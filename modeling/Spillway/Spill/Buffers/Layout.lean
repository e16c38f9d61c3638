import Spillway.Data.Chunk
import Spillway.Text.Bits
import Spillway.Text.LittleEndian
import Spillway.Text.Utf8

/-!
# Columns as buffers

The columns of some rows laid out in byte strings that do not say what they hold: which rows have a value,
then the values one after the other, texts as the positions where they end and all their characters. The
buffers of all columns follow each other in one list. An absent value has zeros in its place, and no
characters.
-/

namespace Spillway

/-- How the values of a column are laid out: in so many bytes each, in a bit each, or as texts whose
positions take so many bytes each. -/
inductive ValueLayout where
  | bytes (width : Nat)
  | bits
  | texts (width : Nat)
  deriving DecidableEq, Repr

/-- Layout of the values of a type. -/
def ColumnType.valueLayout : ColumnType → ValueLayout
  | int8 | uint8 => .bytes 1
  | int16 => .bytes 2
  | int32 | uint32 | date32 => .bytes 4
  | int64 | uint64 | float64 => .bytes 8
  | boolean => .bits
  | utf8 => .texts 4
  | largeUtf8 => .texts 8

/-- Columns of equal length: how many of the values of each column are absent, and the buffers of the
columns, one column after the other. -/
structure ColumnBuffers where
  rows : Nat
  absent : List Nat
  buffers : List (List UInt8)
  deriving DecidableEq, Repr

namespace ColumnBuffers

/-- Bytes that so many bits take up. -/
def bitBytes (count : Nat) : Nat :=
  (count + 7) / 8

/-- The word that a cell of fixed width stores. -/
def wordOf : Cell → UInt64
  | .int value => value.toUInt64
  | .word value => value
  | .float bits => bits
  | _ => 0

/-- The truth value that a cell stores. -/
def bitOf : Cell → Bool
  | .bool value => value
  | _ => false

/-- The characters that a cell stores. -/
def charactersOf : Cell → List UInt8
  | .text value => Text.encodeUtf8 value
  | _ => []

/-- A bit for each row, set where the row has a value. A column without absent values has no other bits
than set ones, also in the rest of its last byte. -/
def presence (column : List Cell) : List UInt8 :=
  if column.any Cell.isNull then Text.packBits (column.map (!·.isNull))
  else List.replicate (bitBytes column.length) 0xFF

/-- The positions where parts of given lengths begin, and the one where the last part ends. -/
def positions (start : Nat) : List Nat → List Nat
  | [] => [start]
  | length :: rest => start :: positions (start + length) rest

/-- The buffers of a column. -/
def ofColumn (type : ColumnType) (column : List Cell) : List (List UInt8) :=
  presence column ::
    match type.valueLayout with
    | .bytes width => [column.flatMap fun cell => Text.littleEndian width (wordOf cell).toNat]
    | .bits => [Text.packBits (column.map bitOf)]
    | .texts width =>
      [(positions 0 (column.map fun cell => (charactersOf cell).length)).flatMap
          (Text.littleEndian width),
        column.flatMap charactersOf]

/-- The column at a position, with its type. -/
def columnAt (rows : List Row) (type : ColumnType) (position : Nat) : ColumnType × List Cell :=
  (type, rows.map fun row => Row.cell row position)

/-- The buffers of the columns of some rows. -/
def ofRows (types : List ColumnType) (rows : List Row) : ColumnBuffers :=
  let columns := types.zipIdx.map fun (type, position) => columnAt rows type position
  {
    rows := rows.length
    absent := columns.map fun (_, column) => column.countP Cell.isNull
    buffers := columns.flatMap fun (type, column) => ofColumn type column }

end ColumnBuffers
end Spillway
