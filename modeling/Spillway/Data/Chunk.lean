import Spillway.Data.Key

/-!
# Chunks

A chunk is an ordered run of rows under one schema, and every row fits the schema: it has one cell
for each field, of the field's type, and an absent value only where the field allows it. Chunks are
cut, filtered and put together row by row. The logical size of a chunk counts the rows it refers to
and nothing else: every column is of fixed width, Boolean, or a text with short or long offsets.
-/

namespace Spillway

/-- The cells of a row, in the order of the fields. -/
abbrev Row : Type := List Cell

/-- Whether a row has one suitable cell for each field. -/
def Schema.admits : Schema → Row → Bool
  | [], [] => true
  | field :: fields, cell :: cells => field.admits cell && Schema.admits fields cells
  | _, _ => false

/-- Rows under a schema that every one of them fits. -/
structure Chunk where
  schema : Schema
  rows : List Row
  fits : ∀ row ∈ rows, schema.admits row = true

/-- Faults of a chunk that an operation was given. -/
inductive ChunkFault where
  | missingColumn (name : String) (columns : List String)
  | unsupportedKey (type : ColumnType)
  deriving DecidableEq, Repr

/-- The status that reports the fault. -/
def ChunkFault.status : ChunkFault → Status
  | missingColumn name columns =>
    .invalidArgument ("column '" ++ name ++ "' not found in chunk (columns=" ++
      Text.quotedList columns ++ ")")
  | unsupportedKey type => .invalidArgument ("unsupported key column type: " ++ type.name)

/-- Cell of a row at a position; a row too short has the absent value there. -/
def Row.cell (row : Row) (position : Nat) : Cell :=
  row.getD position .null

/-- Sum of a measure over a list. -/
def total {α : Type} (measure : α → Nat) (values : List α) : Nat :=
  values.foldr (fun value sum => measure value + sum) 0

@[simp] theorem total_nil {α : Type} (measure : α → Nat) : total measure [] = 0 :=
  rfl

@[simp] theorem total_cons {α : Type} (measure : α → Nat) (value : α) (values : List α) :
    total measure (value :: values) = measure value + total measure values :=
  rfl

@[simp] theorem total_append {α : Type} (measure : α → Nat) (values more : List α) :
    total measure (values ++ more) = total measure values + total measure more := by
  induction values with
  | nil => simp
  | cons value values ih => simp [ih, Nat.add_assoc]

/-- Bytes of the texts in a row. -/
def Row.textBytes (row : Row) : Nat :=
  total Cell.textBytes row

/-- Size of a column of so many rows, the characters of texts apart: the values of a type of fixed width,
one bit for each Boolean, and one offset more than there are texts. -/
def ColumnType.layoutBytes (count : Nat) : ColumnType → Nat
  | int8 | uint8 => count
  | int16 => 2 * count
  | int32 | uint32 | date32 => 4 * count
  | int64 | uint64 | float64 => 8 * count
  | boolean => (count + 7) / 8
  | utf8 => 4 * (count + 1)
  | largeUtf8 => 8 * (count + 1)

namespace Chunk

@[ext] theorem ext {a b : Chunk} (schema : a.schema = b.schema) (rows : a.rows = b.rows) :
    a = b := by
  cases a
  cases b
  simp_all

instance : DecidableEq Chunk := fun a b =>
  decidable_of_iff (a.schema = b.schema ∧ a.rows = b.rows)
    ⟨fun equal => ext equal.1 equal.2, fun equal => equal ▸ ⟨rfl, rfl⟩⟩

/-- The chunk without rows. -/
def empty (schema : Schema) : Chunk :=
  ⟨schema, [], by simp⟩

/-- Number of rows. -/
def length (chunk : Chunk) : Nat :=
  chunk.rows.length

/-- Whether there are no rows. -/
def isEmpty (chunk : Chunk) : Bool :=
  chunk.rows.isEmpty

/-- Deterministic size estimate of the rows, in columns of fixed width, Booleans and texts. -/
def logicalBytes (chunk : Chunk) : Nat :=
  total (fun field => field.type.layoutBytes chunk.length) chunk.schema +
    total Row.textBytes chunk.rows

/-- The rows that a function of the row list picks, all of them rows of the chunk. -/
def pick (chunk : Chunk) (rows : List Row) (sound : ∀ row ∈ rows, row ∈ chunk.rows) : Chunk :=
  ⟨chunk.schema, rows, fun row member => chunk.fits row (sound row member)⟩

/-- The `count` rows from position `offset` on, or as many of them as there are. -/
def slice (chunk : Chunk) (offset count : Nat) : Chunk :=
  chunk.pick ((chunk.rows.drop offset).take count) fun _ member =>
    List.mem_of_mem_drop (List.mem_of_mem_take member)

/-- The rows at the given positions, in that order. -/
def take (chunk : Chunk) (positions : List Nat) : Chunk :=
  let rows := chunk.rows.toArray
  chunk.pick (positions.filterMap fun position => rows[position]?) fun row member => by
    obtain ⟨position, _, found⟩ := List.mem_filterMap.mp member
    exact List.mem_of_getElem? (List.getElem?_toArray.symm.trans found)

/-- The rows that satisfy a condition. -/
def filterRows (chunk : Chunk) (keep : Row → Bool) : Chunk :=
  chunk.pick (chunk.rows.filter keep) fun _ member => (List.mem_filter.mp member).1

/-- The rows whose mark is set. Rows beyond the last mark are dropped; more marks than rows are
refused. -/
def filter (chunk : Chunk) (marks : List (Option Bool)) : Except ColumnFault Chunk :=
  if chunk.length < marks.length then
    .error (.invalidArgument ("Filter predicate of length " ++ toString marks.length ++
      " is larger than target array of length " ++ toString chunk.length))
  else
    .ok (chunk.pick ((chunk.rows.zip marks).filterMap fun (row, mark) =>
        if mark = some true then some row else none) fun row member => by
      obtain ⟨⟨candidate, mark⟩, paired, chosen⟩ := List.mem_filterMap.mp member
      by_cases set : mark = some true
      · simp only [set, if_true, Option.some.injEq] at chosen
        exact chosen ▸ (List.of_mem_zip paired).1
      · simp [set] at chosen)

/-- The first field that must not be absent but is absent in some row. -/
def absentField? (rows : List Row) : Nat → Schema → Option Field
  | _, [] => none
  | position, field :: fields =>
    if !field.nullable && rows.any fun row => (Row.cell row position).isNull then some field
    else absentField? rows (position + 1) fields

/-- The first position at which a field has another type than the column found there. -/
def typeMismatch? : Nat → Schema → List ColumnType → Option (Nat × ColumnType × ColumnType)
  | position, field :: fields, found :: rest =>
    if field.type = found then typeMismatch? (position + 1) fields rest
    else some (position, field.type, found)
  | _, _, _ => none

/-- Puts rows under a schema. The rows come from columns of the given types, which have to be those
of the schema, as many and in the same order; a field that must not be absent may not be absent in any
row. -/
def assemble
    (schema : Schema)
    (found : List ColumnType)
    (rows : List Row) :
    Except ColumnFault Chunk :=
  if found.length ≠ schema.length then
    .error (.invalidArgument ("number of columns(" ++ toString found.length ++
      ") must match number of fields(" ++ toString schema.length ++ ") in schema"))
  else
  match absentField? rows 0 schema with
  | some field =>
    .error (.invalidArgument ("Column '" ++ field.name ++
      "' is declared as non-nullable but contains null values"))
  | none =>
    match typeMismatch? 0 schema found with
    | some (position, expected, actual) =>
      .error (.invalidArgument ("column types must match schema types, expected " ++
        expected.name ++ " but found " ++ actual.name ++ " at column index " ++
        toString position))
    | none =>
      if fits : ∀ row ∈ rows, schema.admits row = true then .ok ⟨schema, rows, fits⟩
      else .error (.invalidArgument "all columns in a record batch must have the same length")

/-- Names of different types, in order of appearance, at most ten of them. -/
def typeNames (types : List ColumnType) : String :=
  let distinct := types.foldl (fun seen type => if type ∈ seen then seen else seen ++ [type]) []
  let shown := ", ".intercalate ((distinct.take 10).map ColumnType.name)
  if 10 < distinct.length then shown ++ ", ..." else shown

/-- Types at one position of several schemas. -/
def typesAt (schemas : List Schema) (position : Nat) : List ColumnType :=
  schemas.filterMap fun schema => schema[position]?.map Field.type

/-- The first position up to `count` at which the schemas do not all have the same type. -/
def mixedTypes? (schemas : List Schema) (count : Nat) : Option (List ColumnType) :=
  (List.range count).findSome? fun position =>
    match typesAt schemas position with
    | [] => none
    | first :: rest => if rest.all (· = first) then none else some (first :: rest)

/-- The rows of all chunks, one chunk after the other, under a schema. Columns are matched by
position, whatever their names. -/
def concat (schema : Schema) (chunks : List Chunk) : Except ColumnFault Chunk :=
  match chunks with
  | [] => .ok (empty schema)
  | first :: _ =>
    match mixedTypes? (chunks.map Chunk.schema) schema.length with
    | some types =>
      .error (.invalidArgument ("It is not possible to concatenate arrays of different data types (" ++
        typeNames types ++ ")."))
    | none =>
      assemble schema ((first.schema.map Field.type).take schema.length)
        (chunks.flatMap fun chunk => chunk.rows.map (List.take schema.length))

/-- Position of the first column of a name. -/
def position (chunk : Chunk) (name : String) : Except Status Nat :=
  match chunk.schema.position? name with
  | some position => .ok position
  | none => .error (ChunkFault.missingColumn name chunk.schema.names).status

/-- Position of a column that rows can be joined, grouped or partitioned by. -/
def keyPosition (chunk : Chunk) (name : String) : Except Status Nat := do
  let position ← chunk.position name
  match chunk.schema[position]? with
  | none => throw (ChunkFault.missingColumn name chunk.schema.names).status
  | some field =>
    if field.type.isKey then return position
    else throw (ChunkFault.unsupportedKey field.type).status

/-- Key of a row at a position. -/
def rowKey (position : Nat) (row : Row) : Option Key :=
  (Row.cell row position).key?

/-- Seeded hash of a row by its cell at a position. -/
def rowHash (seed : UInt64) (position : Nat) (row : Row) : UInt64 :=
  (Row.cell row position).hash seed

/-- The cells of a column that rows can be keyed by, row by row. -/
def keyCells (chunk : Chunk) (name : String) : Except Status (List Cell) := do
  let position ← chunk.keyPosition name
  return chunk.rows.map fun row => Row.cell row position

/-- The keys of a column, row by row. -/
def keys (chunk : Chunk) (name : String) : Except Status (List (Option Key)) := do
  let position ← chunk.keyPosition name
  return chunk.rows.map (rowKey position)

@[simp] theorem rows_empty (schema : Schema) : (empty schema).rows = [] := rfl

@[simp] theorem rows_filterRows (chunk : Chunk) (keep : Row → Bool) :
    (chunk.filterRows keep).rows = chunk.rows.filter keep := rfl

@[simp] theorem schema_filterRows (chunk : Chunk) (keep : Row → Bool) :
    (chunk.filterRows keep).schema = chunk.schema := rfl

@[simp] theorem rows_slice (chunk : Chunk) (offset count : Nat) :
    (chunk.slice offset count).rows = (chunk.rows.drop offset).take count := rfl

@[simp] theorem rows_take (chunk : Chunk) (positions : List Nat) :
    (chunk.take positions).rows = positions.filterMap fun position => chunk.rows[position]? := by
  simp [take, pick]

@[simp] theorem schema_slice (chunk : Chunk) (offset count : Nat) :
    (chunk.slice offset count).schema = chunk.schema := rfl

/-- What is put together has the schema and the rows that were asked for. -/
theorem eq_of_assemble
    {schema : Schema}
    {found : List ColumnType}
    {rows : List Row}
    {chunk : Chunk}
    (assembled : assemble schema found rows = .ok chunk) :
    chunk.schema = schema ∧ chunk.rows = rows := by
  unfold assemble at assembled
  repeat' split at assembled
  all_goals simp_all
  subst assembled
  exact ⟨rfl, rfl⟩

end Chunk

end Spillway
