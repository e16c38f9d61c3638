/-!
# Bits in bytes

Truth values packed eight to a byte, the first one in the lowest bit. The last byte is filled up with
zeros, so the number of values has to be known apart from the bytes.
-/

namespace Spillway
namespace Text

/-- The number whose binary digits are given, lowest first. -/
def ofBits : List Bool → Nat
  | [] => 0
  | bit :: rest => bit.toNat + 2 * ofBits rest

/-- Truth values, eight to a byte. -/
def packBits (bits : List Bool) : List UInt8 :=
  match bits with
  | [] => []
  | bit :: rest => (ofBits (bit :: rest.take 7)).toUInt8 :: packBits (rest.drop 7)
termination_by bits.length

/-- The eight truth values of a byte. -/
def bitsOfByte (byte : UInt8) : List Bool :=
  (List.range 8).map byte.toNat.testBit

@[simp] theorem length_bitsOfByte (byte : UInt8) : (bitsOfByte byte).length = 8 := by
  rw [bitsOfByte, List.length_map, List.length_range]

/-- The truth values in bytes, those that fill up the last byte included. -/
def unpackBits (bytes : List UInt8) : List Bool :=
  bytes.flatMap bitsOfByte

end Text
end Spillway
