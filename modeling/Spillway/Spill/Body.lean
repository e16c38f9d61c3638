import Spillway.Spill.Buffers.Reading

/-!
# Block bodies

The body of a spill block is a stream: the schema, then the chunks that have rows, each as a batch of the
types of its columns and the cells of its rows. The bytes of a stream are left to a format, of which only
this is known: it reads the fields and the batches that it wrote. Reading a body under the fields it was
written with gives the chunks of that schema back in order.
A chunk may also have other columns than the schema of the stream. Those beyond the last field are dropped
then, and if a column has another type than its field, all columns are read as the buffers that they
take up.
-/

namespace Spillway
namespace Body

/-- Rows and the types of their columns. -/
structure Batch where
  types : List ColumnType
  rows : List Row
  deriving DecidableEq, Repr

/-- Whether every row has one cell for each column. -/
def Batch.Even (batch : Batch) : Prop :=
  ∀ row ∈ batch.rows, row.length = batch.types.length

/-- The rows of a chunk. -/
def Batch.ofChunk (chunk : Chunk) : Batch :=
  ⟨chunk.schema.map Field.type, chunk.rows⟩

/-- A format of streams. The schema at the front of a stream can be read even where the batches after it
are damaged. -/
structure Format where
  write : Declaration → List Batch → List UInt8
  read : List UInt8 → Option (Declaration × Option (List Batch))
  /-- What is read of a stream that was written are its fields and its batches, in order. -/
  read_write : ∀ declaration batches, (∀ batch ∈ batches, batch.Even) →
    ∃ found, read (write declaration batches) = some (found, some batches) ∧
      found.same declaration = true

/-- The body that holds the chunks with rows. -/
def encode
    (format : Format)
    (declaration : Declaration)
    (chunks : List Chunk) : List UInt8 :=
  format.write declaration ((chunks.filter (!·.isEmpty)).map Batch.ofChunk)

/-- Why a byte string is no body for a schema. -/
inductive Fault where
  | damaged
  | otherSchema (found expected : Declaration)
  | column (cause : ColumnFault)
  deriving DecidableEq, Repr

/-- Description of the fault. -/
def Fault.message : Fault → String
  | damaged => "arrow ipc error: Ipc error: spill stream is damaged"
  | otherSchema found expected =>
    "spill stream schema " ++ found.render ++ " does not match partition schema " ++ expected.render
  | column cause => "arrow ipc error: " ++ cause.render

/-- The rows of a batch under a schema. -/
def Batch.chunk (schema : Schema) (batch : Batch) : Except ColumnFault Chunk := do
  let types := schema.map Field.type
  if types.isPrefixOf batch.types then
    Chunk.assemble schema types (batch.rows.map (List.take types.length))
  else
    let buffers := ColumnBuffers.ofRows batch.types batch.rows
    Chunk.assemble schema types (← (buffers.read schema).mapError BufferFault.columnFault)

/-- Reads the chunks of a body that was written for a schema. -/
def decode
    (format : Format)
    (declaration : Declaration)
    (bytes : List UInt8) : Except Fault (List Chunk) :=
  match format.read bytes with
  | none => .error .damaged
  | some (found, batches) =>
    if found.same declaration then
      match batches with
      | some batches => (batches.mapM (Batch.chunk declaration.schema)).mapError .column
      | none => .error .damaged
    else .error (.otherSchema found declaration)

end Body
end Spillway
