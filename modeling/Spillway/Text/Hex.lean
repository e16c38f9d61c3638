/-!
# Hexadecimal text

Numbers and byte strings in lower-case hexadecimal digits.
-/

namespace Spillway
namespace Text

/-- The lower-case digit of a value below sixteen. -/
def hexDigit (value : Nat) : Char :=
  if value < 10 then Char.ofNat ('0'.toNat + value) else Char.ofNat ('a'.toNat + (value - 10))

/-- The lowest `width` hexadecimal digits of a number, most significant first. -/
def hexDigits : Nat → Nat → List Char
  | 0, _ => []
  | width + 1, value => hexDigits width (value / 16) ++ [hexDigit (value % 16)]

/-- A number without leading zeros. -/
def hexNat (value : Nat) : String :=
  String.ofList (Nat.toDigits 16 value)

/-- A 64-bit word as sixteen digits. -/
def hexWord (word : UInt64) : String :=
  String.ofList (hexDigits 16 word.toNat)

/-- A byte string, two digits a byte. -/
def hexBytes (bytes : List UInt8) : String :=
  String.ofList (bytes.flatMap fun byte => hexDigits 2 byte.toNat)

end Text
end Spillway
