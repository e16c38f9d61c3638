import Spillway.Text.Integer

/-!
# TOML dates and times

A date, a time of day, or a date with a time and perhaps an offset. They are checked and not kept: no
setting is a moment.
-/

namespace Spillway
namespace Toml

/-- The number that two digits stand for. -/
def twoDigits? (a b : Char) : Option Nat := do
  return (← Text.digitValue? 10 a) * 10 + (← Text.digitValue? 10 b)

/-- Number of days of a month. -/
def daysIn (year month : Nat) : Nat :=
  if month = 2 then
    if year % 4 = 0 ∧ (year % 100 ≠ 0 ∨ year % 400 = 0) then 29 else 28
  else if month = 4 ∨ month = 6 ∨ month = 9 ∨ month = 11 then 30
  else 31

/-- Reads a date, and returns what comes after it. -/
def readDate : List Char → Option (List Char)
  | a :: b :: c :: d :: '-' :: e :: f :: '-' :: g :: h :: rest => do
    let year := (← twoDigits? a b) * 100 + (← twoDigits? c d)
    let month ← twoDigits? e f
    let day ← twoDigits? g h
    if 1 ≤ month ∧ month ≤ 12 ∧ 1 ≤ day ∧ day ≤ daysIn year month then some rest else none
  | _ => none

/-- What comes after a fraction of a second, if there is one. -/
def skipFraction : List Char → List Char
  | '.' :: digit :: rest =>
    if digit.isDigit then rest.dropWhile Char.isDigit else '.' :: digit :: rest
  | text => text

/-- Reads a time of day, and returns what comes after it. -/
def readTime : List Char → Option (List Char)
  | a :: b :: ':' :: c :: d :: ':' :: e :: f :: rest => do
    let hour ← twoDigits? a b
    let minute ← twoDigits? c d
    let second ← twoDigits? e f
    if hour ≤ 23 ∧ minute ≤ 59 ∧ second ≤ 60 then some (skipFraction rest) else none
  | _ => none

/-- Reads an offset that ends the text, or the end of the text. -/
def isOffset : List Char → Bool
  | [] => true
  | [c] => c = 'Z' || c = 'z'
  | [sign, a, b, ':', c, d] =>
    (sign = '+' || sign = '-') && (twoDigits? a b).any (· ≤ 23) && (twoDigits? c d).any (· ≤ 59)
  | _ => false

/-- Whether a text is a time of day with an offset or without. -/
def isOffsetTime (text : List Char) : Bool :=
  (readTime text).any isOffset

/-- Whether a text is a date, a time of day, or both with a letter between them. -/
def isMoment (text : List Char) : Bool :=
  match readDate text with
  | some [] => true
  | some (c :: rest) => (c = 'T' || c = 't') && isOffsetTime rest
  | none => (readTime text).any List.isEmpty

end Toml
end Spillway
