/-!
# Scientific notation

A floating-point number is a fraction of two integers, so its decimal digits are computed exactly:
one digit, a point, a fixed number of digits, and the exponent of ten. The last digit is rounded to
nearest, and a tie goes to the even neighbour.
-/

namespace Spillway
namespace Text

/-- Quotient rounded to nearest, a tie to the even neighbour. -/
def roundDiv (numerator denominator : Nat) : Nat :=
  let quotient := numerator / denominator
  let double := 2 * (numerator % denominator)
  if double < denominator then quotient
  else if denominator < double then quotient + 1
  else if quotient % 2 = 0 then quotient else quotient + 1

/-- A one with so many zeros. -/
def powerOfTen (zeros : Nat) : Nat :=
  Nat.pow 10 zeros

/-- A non-negative fraction times a power of ten. -/
def shiftDecimal (numerator denominator : Nat) (exponent : Int) : Nat × Nat :=
  if 0 ≤ exponent then (numerator * powerOfTen exponent.toNat, denominator)
  else (numerator, denominator * powerOfTen (-exponent).toNat)

/-- Exponent of the leading decimal digit of a positive fraction. -/
def leadingExponent (numerator denominator : Nat) : Int :=
  let guess : Int :=
    ((Nat.toDigits 10 numerator).length : Int) - ((Nat.toDigits 10 denominator).length : Int)
  let shifted := shiftDecimal numerator denominator (-guess)
  if shifted.2 ≤ shifted.1 then guess else guess - 1

/-- Digits and exponent of a positive fraction: `places + 1` digits read as one number. -/
def scientificDigits (places numerator denominator : Nat) : Nat × Int :=
  let exponent := leadingExponent numerator denominator
  let shifted := shiftDecimal numerator denominator ((places : Int) - exponent)
  let digits := roundDiv shifted.1 shifted.2
  if powerOfTen (places + 1) ≤ digits then (digits / 10, exponent + 1) else (digits, exponent)

/-- Magnitude of a finite number as a fraction, from the bits of its representation. -/
def magnitude (bits : UInt64) : Nat × Nat :=
  let exponent := (bits.toNat >>> 52) % 1 <<< 11
  let mantissa := bits.toNat % 1 <<< 52
  if exponent = 0 then (mantissa, 1 <<< 1074)
  else if 1075 ≤ exponent then ((1 <<< 52 + mantissa) <<< (exponent - 1075), 1)
  else (1 <<< 52 + mantissa, 1 <<< (1075 - exponent))

/-- A number with the given count of digits after the point. -/
def scientific (places : Nat) (number : Float) : String :=
  let bits := number.toBits
  let sign := if UInt64.size / 2 ≤ bits.toNat then "-" else ""
  if number.isNaN then "NaN"
  else if number.isInf then sign ++ "inf"
  else
    let (numerator, denominator) := magnitude bits
    let (digits, exponent) :=
      if numerator = 0 then (0, 0) else scientificDigits places numerator denominator
    let texts := (Nat.toDigits 10 digits).leftpad (places + 1) '0'
    sign ++ String.ofList (texts.take 1) ++ "." ++ String.ofList (texts.drop 1) ++ "e" ++
      toString exponent

end Text
end Spillway
