import Spillway.Spill.Buffers.Fault
import Spillway.Spill.Buffers.Layout

/-!
# Reading buffers under a schema

A reader of buffers goes by its schema alone. It takes the buffers in turn, as many for each field as the
type of the field has, and reads them as values of that type, whatever they were written as. Fields and
columns are matched by position, and columns beyond the last field are left alone.
-/

namespace Spillway
namespace ColumnBuffers

/-- The cell of a column of fixed width that stores a number. -/
def cellOf (type : ColumnType) (number : Nat) : Cell :=
  match type with
  | .int8 => .int number.toUInt8.toInt8.toInt64
  | .int16 => .int number.toUInt16.toInt16.toInt64
  | .int32 | .date32 => .int number.toUInt32.toInt32.toInt64
  | .int64 => .int number.toUInt64.toInt64
  | .float64 => .float number.toUInt64
  | _ => .word number.toUInt64

/-- The first numbers of a buffer, after those already read, which are kept last first. Each takes
`width` bytes. -/
def numbersAfter (done : List Nat) (width : Nat) : Nat → List UInt8 → List Nat
  | 0, _ => done.reverse
  | count + 1, bytes =>
    numbersAfter (Text.ofLittleEndian (bytes.take width) :: done) width count (bytes.drop width)

/-- The first `count` numbers of a buffer, of `width` bytes each. -/
def numbers (width count : Nat) (bytes : List UInt8) : List Nat :=
  numbersAfter [] width count bytes

/-- A number of `width` bytes as a signed one. -/
def signed (width number : Nat) : Int :=
  Int.bmod number (1 <<< (8 * width))

/-- Whether a byte string does not start within a character. -/
def startsCharacter : List UInt8 → Bool
  | [] => true
  | byte :: _ => !Text.isContinuation byte

/-- The texts of a column, after those already read, which are kept last first. The text of row `row`
starts at position `start`, where `rest` are the characters from there on. If all the characters of the
column together make a text, `whole`, a row may still not begin or end within one of them. -/
def textsAfter
    (done : List String)
    (whole : Bool)
    (limit row start : Nat)
    (rest : List UInt8) :
    List Int → Except BufferFault (List String)
  | [] => .ok done.reverse
  | position :: positions =>
    let stop := position.toNat
    let after := rest.drop (stop - start)
    if position < 0 then .error (.negative (row + 1) position)
    else if limit < stop then .error (.beyond (row + 1) stop limit)
    else if stop < start then .error (.descending row start stop)
    else if whole && !(startsCharacter rest && startsCharacter after) then
      .error (.splitCharacter row)
    else
      match Text.decodeUtf8 (rest.take (stop - start)) with
      | .error cause => .error (.notText row start stop cause)
      | .ok text => textsAfter (text :: done) whole limit (row + 1) stop after positions

/-- The texts of a column whose first and last positions are in order. -/
def texts (type : ColumnType) (positions : List Int) (characters : List UInt8) :
    Except BufferFault (List String) :=
  match positions with
  | [] => .ok []
  | first :: others =>
    let last := others.getLast?.getD first
    let limit := characters.length
    if first < 0 then .error (.negativeEnd type 0 first)
    else if last < 0 then .error (.negativeEnd type others.length last)
    else if limit < first.toNat then .error (.firstBeyond type first.toNat limit)
    else if limit < last.toNat then .error (.lastBeyond type last.toNat limit)
    else if last < first then .error (.endsReversed type first.toNat last.toNat)
    else
      textsAfter [] (Text.decodeUtf8 characters).isOk limit 0 first.toNat
        (characters.drop first.toNat) others

/-- The values of a column, those of absent rows included, off the front of the buffers after the one
that says which rows have a value. -/
def values (type : ColumnType) (rows : Nat) (buffers : List (List UInt8)) :
    Except BufferFault (List Cell × List (List UInt8)) :=
  match type.valueLayout, buffers with
  | .bytes width, bytes :: buffers =>
    if bytes.length < rows * width then .error (.shortBytes type (rows * width) bytes.length)
    else .ok ((numbers width rows bytes).map (cellOf type), buffers)
  | .bits, bytes :: buffers =>
    if bytes.length < bitBytes rows then .error (.shortBits (bitBytes rows) bytes.length)
    else .ok (((Text.unpackBits bytes).take rows).map .bool, buffers)
  | .texts width, bytes :: characters :: buffers =>
    if bytes.length < rows * width then .error (.shortBytes type (rows * width) bytes.length)
    else if bytes.length < (rows + 1) * width then
      .error (.shortPositions type ((rows + 1) * width) bytes.length)
    else do
      let positions := (numbers width (rows + 1) bytes).map (signed width)
      return ((← texts type positions characters).map .text, buffers)
  | _, _ => .error .noBuffer

/-- The column of a type off the front of the buffers. Which rows have a value is looked up only if some
have none. -/
def column (type : ColumnType) (rows absent : Nat) (buffers : List (List UInt8)) :
    Except BufferFault (List Cell × List (List UInt8)) :=
  match buffers with
  | [] => .error .noBuffer
  | presence :: buffers =>
    if absent = 0 then values type rows buffers
    else if presence.length < bitBytes rows then .error .noBuffer
    else do
      let (cells, buffers) ← values type rows buffers
      let marked := cells.zip (Text.unpackBits presence)
      return (marked.map fun (cell, present) => if present then cell else .null, buffers)

/-- The columns of a schema. -/
def columns (rows : Nat) : Schema → List Nat → List (List UInt8) →
    Except BufferFault (List (List Cell))
  | [], _, _ => .ok []
  | field :: _, [], _ => .error (.noColumn field)
  | field :: fields, absent :: others, buffers => do
    let (cells, buffers) ← column field.type rows absent buffers
    return cells :: (← columns rows fields others buffers)

/-- The rows of columns of a length. -/
def rowsOf (count : Nat) (columns : List (List Cell)) : List Row :=
  columns.foldr (List.zipWith fun cell row => cell :: row) (List.replicate count [])

/-- The rows that the buffers hold under a schema. -/
def read (stored : ColumnBuffers) (schema : Schema) : Except BufferFault (List Row) :=
  (columns stored.rows schema stored.absent stored.buffers).map (rowsOf stored.rows)

end ColumnBuffers
end Spillway
