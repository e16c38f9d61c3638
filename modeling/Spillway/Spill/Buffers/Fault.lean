import Spillway.Data.Field
import Spillway.Text.Utf8

/-!
# Faults of buffers

Why buffers do not hold the columns that a reader expects of them.
-/

namespace Spillway

/-- What is wrong with the buffers of a column. -/
inductive BufferFault where
  | noColumn (field : Field)
  | noBuffer
  | shortBytes (type : ColumnType) (needed found : Nat)
  | shortBits (needed found : Nat)
  | shortPositions (type : ColumnType) (needed found : Nat)
  | negativeEnd (type : ColumnType) (index : Nat) (position : Int)
  | firstBeyond (type : ColumnType) (position limit : Nat)
  | lastBeyond (type : ColumnType) (position limit : Nat)
  | endsReversed (type : ColumnType) (first last : Nat)
  | negative (index : Nat) (position : Int)
  | beyond (index position limit : Nat)
  | descending (row start stop : Nat)
  | splitCharacter (row : Nat)
  | notText (row start stop : Nat) (cause : Text.Utf8Fault)
  deriving DecidableEq, Repr

namespace BufferFault

/-- Description of the fault. -/
def message : BufferFault → String
  | noColumn field =>
    "Invalid data for schema. " ++ field.render ++ " refers to node not found in schema"
  | noBuffer => "spill stream is damaged"
  | shortBytes type needed found =>
    "Need at least " ++ toString needed ++ " bytes in buffers[0] in array of type " ++ type.name ++
      ", but got " ++ toString found
  | shortBits needed found =>
    "Need at least " ++ toString needed ++ " bytes for bitmap in buffers[0] in array of type " ++
      ColumnType.boolean.name ++ ", but got " ++ toString found
  | shortPositions type needed found =>
    "Buffer 0 of " ++ type.name ++ " isn't large enough. Expected " ++ toString needed ++
      " bytes got " ++ toString found
  | negativeEnd type index position =>
    "Error converting offset[" ++ toString index ++ "] (" ++ toString position ++
      ") to usize for " ++ type.name
  | firstBeyond type position limit =>
    "First offset " ++ toString position ++ " of " ++ type.name ++
      " is larger than values length " ++ toString limit
  | lastBeyond type position limit =>
    "Last offset " ++ toString position ++ " of " ++ type.name ++
      " is larger than values length " ++ toString limit
  | endsReversed type first last =>
    "First offset " ++ toString first ++ " in " ++ type.name ++ " is smaller than last offset " ++
      toString last
  | negative index position =>
    "Offset invariant failure: Could not convert offset " ++ toString position ++
      " to usize at position " ++ toString index
  | beyond index position limit =>
    "Offset invariant failure: offset at position " ++ toString index ++ " out of bounds: " ++
      toString position ++ " > " ++ toString limit
  | descending row start stop =>
    "Offset invariant failure: non-monotonic offset at slot " ++ toString row ++ ": " ++
      toString start ++ " > " ++ toString stop
  | splitCharacter row => "incomplete utf-8 byte sequence from index " ++ toString row
  | notText row start stop cause =>
    "Invalid UTF8 sequence at string index " ++ toString row ++ " (" ++ toString start ++ ".." ++
      toString stop ++ "): " ++ cause.message

/-- The fault as one of the operations on columns. -/
def columnFault : BufferFault → ColumnFault
  | noColumn field => .schema (noColumn field).message
  | noBuffer => .stream noBuffer.message
  | fault => .invalidArgument fault.message

end BufferFault
end Spillway
