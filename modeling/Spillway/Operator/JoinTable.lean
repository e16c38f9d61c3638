import Spillway.Data.Chunk
import Std.Data.TreeMap

/-!
# Join tables

The build rows of one partition, looked up by key. Rows are kept by their numbers, in 32 bits. Those of a
key come in the order of the build side, and a row without a key matches nothing.
-/

namespace Spillway

/-- The numbers of the rows of each key, in order. -/
def numbersByKey (position : Nat) (found : List (Row × Nat)) : Std.TreeMap Key (List UInt32) :=
  found.foldr (fun (row, number) table =>
    match Chunk.rowKey position row with
    | none => table
    | some key => table.insert key (number.toUInt32 :: table.getD key [])) ∅

/-- Build rows of one partition, and their numbers by key. -/
structure JoinTable where
  build : Chunk
  byKey : Std.TreeMap Key (List UInt32)

namespace JoinTable

/-- The table of the rows of several chunks under one schema. -/
def ofChunks (schema : Schema) (chunks : List Chunk) (key : String) : Except Status JoinTable := do
  let build ← (Chunk.concat schema chunks).mapError ColumnFault.status
  if build.isEmpty then return { build, byKey := ∅ }
  else
    let position ← build.keyPosition key
    return { build, byKey := numbersByKey position build.rows.zipIdx }

/-- The numbers of the build rows of a key. -/
def find (table : JoinTable) (key : Key) : List UInt32 :=
  table.byKey.getD key []

/-- The number of a probe row with that of each build row of its key. -/
def pairsOf (table : JoinTable) (position : Nat) (found : Row × Nat) : List (UInt32 × UInt32) :=
  match Chunk.rowKey position found.1 with
  | none => []
  | some key => (table.find key).map (found.2.toUInt32, ·)

/-- The probe row and the build row of a pair of numbers, side by side. -/
def joinedRow? (probe build : Array Row) (pair : UInt32 × UInt32) : Option Row := do
  let left ← probe[pair.1.toNat]?
  let right ← build[pair.2.toNat]?
  return left ++ right

/-- The rows that a probe chunk yields, if there are any. -/
def joinChunk (table : JoinTable) (output : Schema) (probe : Chunk) (key : String) :
    Except Status (Option Chunk) := do
  let position ← probe.keyPosition key
  let pairs := probe.rows.zipIdx.flatMap (table.pairsOf position)
  if pairs.isEmpty then return none
  else
    let rows := pairs.filterMap (joinedRow? probe.rows.toArray table.build.rows.toArray)
    let types := (probe.schema ++ table.build.schema).map Field.type
    let joined ← (Chunk.assemble output types rows).mapError ColumnFault.status
    return some joined

/-- The numbers found for a key are those of the rows of that key, in order. -/
theorem getD_numbersByKey (position : Nat) (found : List (Row × Nat)) (key : Key) :
    (numbersByKey position found).getD key [] =
      (found.filter fun row => Chunk.rowKey position row.1 = some key).map (·.2.toUInt32) := by
  induction found with
  | nil => simp [numbersByKey]
  | cons first rest ih =>
    unfold numbersByKey at ih ⊢
    simp only [List.foldr_cons, List.filter_cons]
    cases has : Chunk.rowKey position first.1 with
    | none => simp [ih]
    | some other =>
      by_cases equal : other = key
      · subst equal
        simp [ih]
      · simp [Std.TreeMap.getD_insert, ih, equal]

end JoinTable

end Spillway
