import Spillway.Proofs.Data.Chunk

/-!
# Rows by number

The rows of a chunk are told apart by their numbers, which are kept in 32 bits. The numbers of a chunk that
is short enough are all different, so the rows that satisfy a condition are found again by their numbers. In
a longer chunk numbers repeat, and then what is found is a row of the chunk, but maybe another one.
-/

namespace Spillway

/-- The rows of the chunk have different numbers. -/
def Chunk.Numbered (chunk : Chunk) : Prop :=
  chunk.length ≤ UInt32.size

instance (chunk : Chunk) : Decidable chunk.Numbered :=
  inferInstanceAs (Decidable (chunk.length ≤ UInt32.size))

/-- The chunk has the schema, and where this is to be `precise`, its rows have different numbers. -/
structure Chunk.Suits (precise : Prop) (schema : Schema) (chunk : Chunk) : Prop where
  schema_eq : chunk.schema = schema
  numbered : precise → chunk.Numbered

theorem Chunk.Suits.of_and
    {precise : Prop}
    {schema : Schema}
    {chunk : Chunk}
    (both : chunk.schema = schema ∧ chunk.Numbered) :
    chunk.Suits precise schema :=
  ⟨both.1, fun _ => both.2⟩

theorem Chunk.Suits.imp
    {precise other : Prop}
    {schema : Schema}
    {chunk : Chunk}
    (suits : chunk.Suits precise schema)
    (stricter : other → precise) :
    chunk.Suits other schema :=
  ⟨suits.schema_eq, fun is => suits.numbered (stricter is)⟩

theorem Chunk.Suits.relax
    {precise : Prop}
    {schema : Schema}
    {chunk : Chunk}
    (suits : chunk.Suits precise schema) :
    chunk.Suits False schema :=
  suits.imp False.elim

/-- The numbers of the rows that satisfy a condition. -/
def numbersOf (keep : Row → Bool) (found : List (Row × Nat)) : List UInt32 :=
  (found.filter fun row => keep row.1).map (·.2.toUInt32)

theorem toNat_toUInt32 {number : Nat} (small : number < UInt32.size) :
    number.toUInt32.toNat = number :=
  Nat.mod_eq_of_lt small

variable {rows : List Row}

/-- By its number a row is found again. -/
theorem getElem?_number
    (short : rows.length ≤ UInt32.size)
    {found : Row × Nat}
    (member : found ∈ rows.zipIdx) :
    rows[found.2.toUInt32.toNat]? = some found.1 := by
  have there := List.mem_zipIdx_iff_getElem?.mp member
  rw [toNat_toUInt32 (Nat.lt_of_lt_of_le (List.getElem?_eq_some_iff.mp there).1 short), there]

/-- The rows with the numbers of those that satisfy a condition are these rows. -/
theorem filterMap_numbersOf
    (short : rows.length ≤ UInt32.size)
    (keep : Row → Bool) :
    ((numbersOf keep rows.zipIdx).filterMap fun number => rows[number.toNat]?) = rows.filter keep :=
  calc ((numbersOf keep rows.zipIdx).filterMap fun number => rows[number.toNat]?)
      = (rows.zipIdx.filter fun row => keep row.1).map Prod.fst := by
        rw [numbersOf, List.filterMap_map, ← List.filterMap_eq_map]
        exact List.filterMap_congr fun found member =>
          getElem?_number short (List.mem_of_mem_filter member)
    _ = (rows.zipIdx.map Prod.fst).filter keep := List.filter_map.symm
    _ = rows.filter keep := by rw [List.zipIdx_map_fst]

theorem length_numbersOf
    (keep : Row → Bool)
    (rows : List Row) :
    (numbersOf keep rows.zipIdx).length = (rows.filter keep).length := by
  conv_rhs => rw [← List.zipIdx_map_fst 0 rows, List.filter_map, List.length_map]
  rw [numbersOf, List.length_map]
  rfl

/-- However long the chunk, every number is that of some row. -/
theorem exists_number
    {keep : Row → Bool}
    {number : UInt32}
    (member : number ∈ numbersOf keep rows.zipIdx) :
    ∃ row, rows[number.toNat]? = some row := by
  obtain ⟨found, inside, rfl⟩ := List.mem_map.mp member
  have there := List.mem_zipIdx_iff_getElem?.mp (List.mem_of_mem_filter inside)
  have bound := (List.getElem?_eq_some_iff.mp there).1
  exact ⟨_, List.getElem?_eq_getElem (Nat.lt_of_le_of_lt (Nat.mod_le _ _) bound)⟩

/-- As many rows are found by number as satisfy the condition. -/
theorem length_filterMap_numbersOf
    (keep : Row → Bool)
    (rows : List Row) :
    ((numbersOf keep rows.zipIdx).filterMap fun number => rows[number.toNat]?).length =
      (rows.filter keep).length := by
  rw [← length_numbersOf, List.length_filterMap_eq_countP, List.countP_eq_length]
  intro number member
  obtain ⟨row, found⟩ := exists_number member
  rw [found, Option.isSome_some]

end Spillway
