import Spillway.Spill.Body

/-!
# A plain format of streams

Counts are written in groups of seven bits, so there is no largest count. A list is written as its length
and its members, a schema as the list of its fields, and each batch as the types of its columns and its
rows. What is said of a dictionary is not written. Every writer writes bytes that its reader reads as what
was written, from counts up to whole batches.
-/

namespace Spillway
namespace Body

/-- Reads a value off the front of a byte string. -/
abbrev Reader (α : Type) : Type := List UInt8 → Option (α × List UInt8)

/-- A count in groups of seven bits, lowest first; every byte but the last has its top bit set. -/
def writeCount (count : Nat) : List UInt8 :=
  if count < 128 then [count.toUInt8]
  else (128 + count % 128).toUInt8 :: writeCount (count / 128)

/-- Reads a count. -/
def readCount : Reader Nat
  | [] => none
  | byte :: rest =>
    if byte.toNat < 128 then some (byte.toNat, rest)
    else
      match readCount rest with
      | some (high, rest) => some (byte.toNat - 128 + 128 * high, rest)
      | none => none

/-- The values of a list, after their count. -/
def writeList {α : Type} (write : α → List UInt8) (values : List α) : List UInt8 :=
  writeCount values.length ++ values.flatMap write

/-- Reads so many values, after those already read, which are kept last first. -/
def readManyAfter {α : Type} (read : Reader α) (done : List α) : Nat → Reader (List α)
  | 0, bytes => some (done.reverse, bytes)
  | count + 1, bytes =>
    match read bytes with
    | none => none
    | some (value, bytes) => readManyAfter read (value :: done) count bytes

/-- Reads so many values. -/
def readMany {α : Type} (read : Reader α) (count : Nat) : Reader (List α) :=
  readManyAfter read [] count

/-- Reads a list of values. -/
def readList {α : Type} (read : Reader α) : Reader (List α) := fun bytes =>
  match readCount bytes with
  | some (count, bytes) => readMany read count bytes
  | none => none

/-- The characters of a text. -/
def writeText (text : String) : List UInt8 :=
  writeList (fun c => writeCount c.toNat) text.toList

/-- Reads a text. -/
def readText : Reader String := fun bytes =>
  match readList readCount bytes with
  | some (codes, bytes) => some (String.ofList (codes.map Char.ofNat), bytes)
  | none => none

/-- A word in eight bytes. -/
def writeWord (word : UInt64) : List UInt8 :=
  Text.littleEndian 8 word.toNat

/-- Reads a word. -/
def readWord : Reader UInt64
  | a :: b :: c :: d :: e :: f :: g :: h :: bytes =>
    some ((Text.ofLittleEndian [a, b, c, d, e, f, g, h]).toUInt64, bytes)
  | _ => none

/-- A cell: what kind of value it is and the value. -/
def writeCell : Cell → List UInt8
  | .null => [0]
  | .int value => 1 :: writeWord value.toUInt64
  | .word value => 2 :: writeWord value
  | .float bits => 3 :: writeWord bits
  | .bool false => [4]
  | .bool true => [5]
  | .text value => 6 :: writeText value

/-- Reads a cell. -/
def readCell : Reader Cell
  | [] => none
  | kind :: bytes =>
    if kind = 0 then some (.null, bytes)
    else if kind = 1 then (readWord bytes).map fun (word, bytes) => (.int word.toInt64, bytes)
    else if kind = 2 then (readWord bytes).map fun (word, bytes) => (.word word, bytes)
    else if kind = 3 then (readWord bytes).map fun (word, bytes) => (.float word, bytes)
    else if kind = 4 then some (.bool false, bytes)
    else if kind = 5 then some (.bool true, bytes)
    else if kind = 6 then (readText bytes).map fun (text, bytes) => (.text text, bytes)
    else none

/-- Number of a column type. -/
def typeCode : ColumnType → UInt8
  | .int8 => 0
  | .int16 => 1
  | .int32 => 2
  | .int64 => 3
  | .uint8 => 4
  | .uint32 => 5
  | .uint64 => 6
  | .float64 => 7
  | .date32 => 8
  | .boolean => 9
  | .utf8 => 10
  | .largeUtf8 => 11

/-- The column type of a number. -/
def typeOfCode? (code : UInt8) : Option ColumnType :=
  [ColumnType.int8, .int16, .int32, .int64, .uint8, .uint32, .uint64, .float64, .date32, .boolean,
    .utf8, .largeUtf8].find? fun type => typeCode type = code

/-- An entry of the metadata of a field. -/
def writeEntry (entry : String × String) : List UInt8 :=
  writeText entry.1 ++ writeText entry.2

/-- Reads an entry. -/
def readEntry : Reader (String × String) := fun bytes => do
  let (key, bytes) ← readText bytes
  let (value, bytes) ← readText bytes
  return ((key, value), bytes)

/-- A field: its type, whether it may be absent, and its name. -/
def writeField (field : Field) : List UInt8 :=
  typeCode field.type :: (if field.nullable then 1 else 0) :: writeText field.name

/-- Reads a field. -/
def readField : Reader Field
  | code :: nullable :: bytes =>
    match typeOfCode? code, readText bytes with
    | some type, some (name, bytes) => some ({ name, type, nullable := nullable = 1 }, bytes)
    | _, _ => none
  | _ => none

/-- The metadata of a column. -/
def writeRemarks (remarks : Remarks) : List UInt8 :=
  writeList writeEntry remarks.metadata

/-- Reads the metadata of a column. -/
def readRemarks : Reader Remarks := fun bytes =>
  (readList readEntry bytes).map fun (metadata, bytes) => ({ metadata }, bytes)

/-- A row, whose width is that of the schema before it. -/
def writeRow (row : Row) : List UInt8 :=
  row.flatMap writeCell

/-- Reads a column type. -/
def readType : Reader ColumnType
  | [] => none
  | code :: bytes => (typeOfCode? code).map fun type => (type, bytes)

/-- A batch: the types of its columns, then its rows. -/
def writeBatch (batch : Batch) : List UInt8 :=
  writeList (fun type => [typeCode type]) batch.types ++ writeList writeRow batch.rows

/-- Reads a batch. -/
def readBatch : Reader Batch := fun bytes =>
  match readList readType bytes with
  | none => none
  | some (types, bytes) =>
    (readList (readMany readCell types.length) bytes).map fun (rows, bytes) => (⟨types, rows⟩, bytes)

/-- A schema: its fields, and the metadata of its columns. -/
def writeDeclaration (declaration : Declaration) : List UInt8 :=
  writeList writeField declaration.schema ++ writeList writeRemarks declaration.remarks

/-- Reads a schema. -/
def readDeclaration : Reader Declaration := fun bytes => do
  let (schema, bytes) ← readList readField bytes
  let (remarks, bytes) ← readList readRemarks bytes
  return ({ schema, remarks }, bytes)

/-- A schema and batches. -/
def writeStream (declaration : Declaration) (batches : List Batch) : List UInt8 :=
  writeDeclaration declaration ++ writeList writeBatch batches

/-- Reads a schema, and batches up to the end of the bytes. -/
def readStream (bytes : List UInt8) : Option (Declaration × Option (List Batch)) :=
  match readDeclaration bytes with
  | none => none
  | some (declaration, bytes) =>
    match readList readBatch bytes with
    | some (batches, []) => some (declaration, some batches)
    | _ => some (declaration, none)

/-! ## Reading what was written -/

variable {α β : Type}

/-- The reader takes the bytes off the front of whatever follows them, and yields the value. -/
def Reads
    (read : Reader α)
    (bytes : List UInt8)
    (value : α) : Prop :=
  ∀ rest, read (bytes ++ rest) = some (value, rest)

theorem reads_writeCount (count : Nat) : Reads readCount (writeCount count) count := by
  intro rest
  fun_induction writeCount count with
  | case1 count small =>
      have value : count.toUInt8.toNat = count := by
        simp only [Nat.toUInt8_eq, UInt8.toNat_ofNat']
        omega
      simp [readCount, value, small]
  | case2 count large inductionHypothesis =>
      have value : (128 + count % 128).toUInt8.toNat = 128 + count % 128 := by
        simp only [Nat.toUInt8_eq, UInt8.toNat_ofNat']
        omega
      have marked : ¬ (128 + count % 128).toUInt8.toNat < 128 := by omega
      rw [List.cons_append, readCount, if_neg marked, inductionHypothesis, value]
      simp only [Option.some.injEq, Prod.mk.injEq, and_true]
      omega

/-- A run of values is read one after the other. -/
theorem reads_readMany
    {read : Reader β}
    {write : α → List UInt8}
    {image : α → β}
    {values : List α}
    (each : ∀ value ∈ values, Reads read (write value) (image value)) :
    Reads (readMany read values.length) (values.flatMap write) (values.map image) := by
  intro rest
  suffices general : ∀ done, readManyAfter read done values.length (values.flatMap write ++ rest) =
      some (done.reverse ++ values.map image, rest) by
    exact general []
  induction values with
  | nil =>
      intro done
      simp [readManyAfter]
  | cons value values inductionHypothesis =>
      intro done
      have first := each value List.mem_cons_self (values.flatMap write ++ rest)
      have others := inductionHypothesis fun other member =>
        each other (List.mem_cons_of_mem value member)
      simp only [List.length_cons, List.flatMap_cons, List.append_assoc, readManyAfter, first]
      rw [others]
      simp

theorem reads_writeList
    {read : Reader β}
    {write : α → List UInt8}
    {image : α → β}
    {values : List α}
    (each : ∀ value ∈ values, Reads read (write value) (image value)) :
    Reads (readList read) (writeList write values) (values.map image) := by
  intro rest
  have counted := reads_writeCount values.length (values.flatMap write ++ rest)
  rw [writeList, List.append_assoc, readList, counted]
  exact reads_readMany each rest

theorem reads_writeText (text : String) : Reads readText (writeText text) text := by
  intro rest
  have each : ∀ c ∈ text.toList, Reads readCount (writeCount c.toNat) c.toNat :=
    fun c _ => reads_writeCount c.toNat
  have codes := reads_writeList each rest
  have characters : (text.toList.map Char.toNat).map Char.ofNat = text.toList := by
    simp [Function.comp_def, Char.ofNat_toNat]
  rw [writeText, readText, codes]
  simp only [characters, String.ofList_toList]

theorem reads_writeWord (word : UInt64) : Reads readWord (writeWord word) word := by
  intro rest
  have value : Text.ofLittleEndian (Text.littleEndian 8 word.toNat) = word.toNat := by
    have small := word.toNat_lt
    rw [Text.ofLittleEndian_littleEndian]
    exact Nat.mod_eq_of_lt small
  simp only [Text.littleEndian] at value
  simp only [writeWord, Text.littleEndian, List.cons_append, List.nil_append, readWord, value]
  simp

theorem reads_writeCell (cell : Cell) : Reads readCell (writeCell cell) cell := by
  intro rest
  cases cell with
  | null => rfl
  | int value => simp [writeCell, readCell, reads_writeWord value.toUInt64 rest]
  | word value => simp [writeCell, readCell, reads_writeWord value rest]
  | float bits => simp [writeCell, readCell, reads_writeWord bits rest]
  | bool value => cases value <;> rfl
  | text value => simp [writeCell, readCell, reads_writeText value rest]

theorem typeOfCode?_typeCode (type : ColumnType) : typeOfCode? (typeCode type) = some type := by
  cases type <;> rfl

theorem reads_writeEntry (entry : String × String) : Reads readEntry (writeEntry entry) entry := by
  intro rest
  rw [writeEntry, List.append_assoc, readEntry, reads_writeText entry.1]
  simp only [Option.bind_eq_bind, Option.bind_some, reads_writeText entry.2 rest]
  rfl

theorem reads_writeField (field : Field) : Reads readField (writeField field) field := by
  intro rest
  obtain ⟨name, type, nullable⟩ := field
  simp only [writeField, List.cons_append, readField, typeOfCode?_typeCode,
    reads_writeText name rest]
  cases nullable <;> rfl

/-- What a stream keeps of the remarks on a column. -/
def keptRemarks (remarks : Remarks) : Remarks :=
  { metadata := remarks.metadata }

theorem reads_writeRemarks (remarks : Remarks) :
    Reads readRemarks (writeRemarks remarks) (keptRemarks remarks) := by
  intro rest
  have each : ∀ entry ∈ remarks.metadata, Reads readEntry (writeEntry entry) (id entry) :=
    fun entry _ => reads_writeEntry entry
  have entries := reads_writeList each rest
  rw [List.map_id] at entries
  rw [writeRemarks, readRemarks, entries]
  rfl

/-- What a stream keeps of a schema. -/
def keptDeclaration (declaration : Declaration) : Declaration :=
  { declaration with remarks := declaration.remarks.map keptRemarks }

theorem reads_writeDeclaration (declaration : Declaration) :
    Reads readDeclaration (writeDeclaration declaration) (keptDeclaration declaration) := by
  intro rest
  have each : ∀ field ∈ declaration.schema, Reads readField (writeField field) (id field) :=
    fun field _ => reads_writeField field
  have fields := reads_writeList each (writeList writeRemarks declaration.remarks ++ rest)
  have remarks := reads_writeList (fun remarks (_ : remarks ∈ declaration.remarks) =>
    reads_writeRemarks remarks) rest
  rw [List.map_id] at fields
  rw [writeDeclaration, List.append_assoc, readDeclaration, fields]
  simp only [Option.bind_eq_bind, Option.bind_some, remarks]
  rfl

/-- The fields are kept. -/
theorem same_keptDeclaration (declaration : Declaration) :
    (keptDeclaration declaration).same declaration = true := by
  refine Declaration.same_iff.mpr ⟨rfl, fun position _ => ?_⟩
  have same : ((keptDeclaration declaration).remarksAt position).metadata =
      (declaration.remarksAt position).metadata := by
    simp only [Declaration.remarksAt, keptDeclaration, List.getD_eq_getElem?_getD, List.getElem?_map]
    cases declaration.remarks[position]? <;> rfl
  rw [same]

/-- A row of the right width is read cell by cell. -/
theorem reads_writeRow
    {width : Nat}
    {row : Row}
    (wide : row.length = width) :
    Reads (readMany readCell width) (writeRow row) row := by
  have each : ∀ cell ∈ row, Reads readCell (writeCell cell) (id cell) :=
    fun cell _ => reads_writeCell cell
  have cells := reads_readMany each
  rw [wide, List.map_id] at cells
  exact cells

theorem reads_writeBatch
    {batch : Batch}
    (even : batch.Even) :
    Reads readBatch (writeBatch batch) batch := by
  intro rest
  have typed : ∀ type ∈ batch.types, Reads readType [typeCode type] (id type) := by
    intro type _ tail
    simp [readType, typeOfCode?_typeCode]
  have types := reads_writeList typed (writeList writeRow batch.rows ++ rest)
  have fitting : ∀ row ∈ batch.rows,
      Reads (readMany readCell batch.types.length) (writeRow row) (id row) :=
    fun row member => reads_writeRow (even row member)
  have rows := reads_writeList fitting rest
  rw [List.map_id] at types rows
  rw [writeBatch, List.append_assoc, readBatch, types]
  simp only [rows, Option.map_some]

/-- The plain format. -/
def plain : Format where
  write := writeStream
  read := readStream
  read_write declaration batches even := by
    have declared := reads_writeDeclaration declaration (writeList writeBatch batches)
    have each : ∀ batch ∈ batches, Reads readBatch (writeBatch batch) (id batch) :=
      fun batch member => reads_writeBatch (even batch member)
    have rows := reads_writeList each []
    rw [List.append_nil, List.map_id] at rows
    refine ⟨keptDeclaration declaration, ?_, same_keptDeclaration declaration⟩
    rw [writeStream, readStream, declared]
    simp only [rows]

end Body
end Spillway
