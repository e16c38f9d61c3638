/-!
# Integer literals

Unsigned integers written in a base of at most sixteen, below a bound. One leading plus sign is
allowed, a minus sign never is. Reading goes from left to right and stops at the first fault, so an
overflow that happens before a bad digit is the one reported.
-/

namespace Spillway
namespace Text

/-- Why a text is not an integer literal. -/
inductive IntegerFault where
  | empty
  | invalidDigit
  | tooLarge
  deriving DecidableEq, Repr

/-- Description of the fault. -/
def IntegerFault.message : IntegerFault → String
  | empty => "cannot parse integer from empty string"
  | invalidDigit => "invalid digit found in string"
  | tooLarge => "number too large to fit in target type"

/-- Value of a digit, letters of either case counting from ten. -/
def digitValue? (base : Nat) (digit : Char) : Option Nat :=
  let value :=
    if '0' ≤ digit ∧ digit ≤ '9' then digit.toNat - '0'.toNat
    else if 'a' ≤ digit ∧ digit ≤ 'z' then digit.toNat - 'a'.toNat + 10
    else if 'A' ≤ digit ∧ digit ≤ 'Z' then digit.toNat - 'A'.toNat + 10
    else base
  if value < base then some value else none

/-- Reads digits after a value already read, keeping every intermediate value below the bound. -/
def readDigits (base bound : Nat) : Nat → List Char → Except IntegerFault Nat
  | value, [] => .ok value
  | value, digit :: rest =>
    match digitValue? base digit with
    | none => .error .invalidDigit
    | some next =>
      if value * base + next < bound then readDigits base bound (value * base + next) rest
      else .error .tooLarge

/-- Reads an unsigned integer below the bound. -/
def parseUnsigned (base bound : Nat) (text : String) : Except IntegerFault Nat :=
  match text.toList with
  | [] => .error .empty
  | ['+'] => .error .invalidDigit
  | '+' :: digits => readDigits base bound 0 digits
  | digits => readDigits base bound 0 digits

end Text
end Spillway
