import Spillway.Settings.Toml.Value
import Spillway.Text.Integer

/-!
# TOML numbers

A number is read from the whole of a token. Digits may be set off by single underscores between them. An
integer is decimal, without leading zeros and with an optional sign, or hexadecimal, octal or binary
without one, and fits 64 bits; a float has a fraction, an exponent or both, or is one of the names of
infinity and of no number.
-/

namespace Spillway
namespace Toml

/-- Digits of a base, without the underscores between them. -/
def ungroup (base : Nat) : List Char → Option (List Char)
  | [] => none
  | [c] => if (Text.digitValue? base c).isSome then some [c] else none
  | c :: '_' :: rest =>
    if (Text.digitValue? base c).isSome then (ungroup base rest).map (c :: ·) else none
  | c :: rest => if (Text.digitValue? base c).isSome then (ungroup base rest).map (c :: ·) else none

/-- The number that digits of a base stand for. -/
def valueOf (base : Nat) (digits : List Char) : Nat :=
  digits.foldl (fun value digit => value * base + (Text.digitValue? base digit).getD 0) 0

/-- A sign and what comes after it. -/
def splitSign : List Char → Bool × List Char
  | '-' :: rest => (true, rest)
  | '+' :: rest => (false, rest)
  | text => (false, text)

/-- The digits of a decimal integer, which starts with a zero only if it is one. -/
def decimalDigits (text : List Char) : Option (List Char) := do
  let digits ← ungroup 10 text
  if digits.head? = some '0' ∧ digits.length ≠ 1 then none else some digits

/-- A number with a sign. -/
def signed (negative : Bool) (magnitude : Nat) : Int :=
  if negative then -magnitude else magnitude

/-- An integer that fits 64 bits. -/
def bounded (value : Int) : Option Int :=
  if Int64.minValue.toInt ≤ value ∧ value ≤ Int64.maxValue.toInt then some value else none

/-- Reads an integer. -/
def readInteger : List Char → Option Int
  | '0' :: 'x' :: rest => do bounded (valueOf 16 (← ungroup 16 rest))
  | '0' :: 'o' :: rest => do bounded (valueOf 8 (← ungroup 8 rest))
  | '0' :: 'b' :: rest => do bounded (valueOf 2 (← ungroup 2 rest))
  | text => do
    let (negative, rest) := splitSign text
    bounded (signed negative (valueOf 10 (← decimalDigits rest)))

/-- Splits a text before the first character that satisfies a condition. -/
def splitBefore (condition : Char → Bool) (text : List Char) : List Char × List Char :=
  (text.takeWhile fun c => !condition c, text.dropWhile fun c => !condition c)

/-- The double nearest to a decimal number. Numbers far beyond the range of doubles are not computed. -/
def toFloat (digits : List Char) (exponent : Int) : Float :=
  let significant := digits.dropWhile (· = '0')
  let magnitude : Int := significant.length + exponent
  if significant.isEmpty ∨ magnitude < -400 then 0.0
  else if 400 < magnitude then 1.0 / 0.0
  else .ofScientific (valueOf 10 significant) (exponent < 0) exponent.natAbs

/-- Reads a float written in digits. One that is too large for a double is refused when positive. -/
def readDecimal (text : List Char) : Option Float := do
  let (negative, rest) := splitSign text
  let (mantissa, exponent) := splitBefore (fun c => c = 'e' || c = 'E') rest
  let (whole, fraction) := splitBefore (· = '.') mantissa
  if fraction.isEmpty ∧ exponent.isEmpty then none
  let whole ← decimalDigits whole
  let fraction ← if fraction.isEmpty then some [] else ungroup 10 fraction.tail
  let scale ←
    if exponent.isEmpty then some 0
    else
      let (negative, rest) := splitSign exponent.tail
      (ungroup 10 rest).map fun digits => signed negative (valueOf 10 digits)
  let value := toFloat (whole ++ fraction) (scale - fraction.length)
  let value := if negative then -value else value
  if value == 1.0 / 0.0 then none else some value

/-- Reads a float. -/
def readFloat (text : List Char) : Option Float :=
  let (negative, rest) := splitSign text
  let withSign := fun (value : Float) => if negative then -value else value
  if rest = ['i', 'n', 'f'] then some (withSign (1.0 / 0.0))
  else if rest = ['n', 'a', 'n'] then some (withSign (0.0 / 0.0))
  else readDecimal text

end Toml
end Spillway
