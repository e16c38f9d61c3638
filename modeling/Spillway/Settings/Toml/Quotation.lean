import Spillway.Text.Integer

/-!
# TOML strings

The four ways to quote a text: between double quotes, where a backslash starts an escape, or between
single quotes, where it does not, and each of the two over several lines between triple quotes. A quoted
text holds no control character but the tab, and lines only between triple quotes, where a line end counts
as a line feed whichever way it is written and one right after the opening quotes is dropped. A function
here reads what follows the opening quotes and returns the text with what comes after the closing ones.
-/

namespace Spillway
namespace Toml

/-- Blank within a line. -/
def isSpace (c : Char) : Bool :=
  c = ' ' || c = '\t'

/-- Whether a character may stand in a comment, and in a quoted text unless it has a meaning there. -/
def isPlain (c : Char) : Bool :=
  c = '\t' || (0x20 ≤ c.toNat && c.toNat ≠ 0x7F)

/-- The character whose number is written in hexadecimal digits. -/
def character? (digits : List Char) : Option Char := do
  let number ← digits.foldlM (fun number digit => (Text.digitValue? 16 digit).map (number * 16 + ·)) 0
  if number.isValidChar then some (Char.ofNat number) else none

/-- The character that a one-letter escape stands for. -/
def shortEscape? : Char → Option Char
  | 'b' => some '\x08'
  | 't' => some '\t'
  | 'n' => some '\n'
  | 'f' => some '\x0c'
  | 'r' => some '\r'
  | '"' => some '"'
  | '\\' => some '\\'
  | _ => none

/-- A text and what comes after it, with one character more in front of the text. -/
def follow (c : Char) (rest : Option (List Char × List Char)) : Option (List Char × List Char) :=
  rest.map fun (text, after) => (c :: text, after)

/-- Reads an escape, of which the backslash was read, and goes on behind it. -/
def escape (goOn : List Char → Option (List Char × List Char)) : List Char →
    Option (List Char × List Char)
  | 'u' :: a :: b :: c :: d :: rest => do follow (← character? [a, b, c, d]) (goOn rest)
  | 'U' :: a :: b :: c :: d :: e :: f :: g :: h :: rest => do
    follow (← character? [a, b, c, d, e, f, g, h]) (goOn rest)
  | c :: rest => do follow (← shortEscape? c) (goOn rest)
  | [] => none

/-- Text between double quotes. The number bounds how many characters are read. -/
def readBasic : Nat → List Char → Option (List Char × List Char)
  | 0, _ => none
  | fuel + 1, '\\' :: rest => escape (readBasic fuel) rest
  | _, '"' :: rest => some ([], rest)
  | fuel + 1, c :: rest => if isPlain c then follow c (readBasic fuel rest) else none
  | _, [] => none

/-- Text between single quotes. -/
def readLiteral : List Char → Option (List Char × List Char)
  | '\'' :: rest => some ([], rest)
  | c :: rest => if isPlain c then follow c (readLiteral rest) else none
  | [] => none

/-- Whether only blanks follow up to the end of the line. -/
def endsLine : List Char → Bool
  | '\n' :: _ => true
  | '\r' :: '\n' :: _ => true
  | c :: rest => isSpace c && endsLine rest
  | [] => false

/-- What comes after blanks and line ends. -/
def skipLines : List Char → List Char
  | '\n' :: rest => skipLines rest
  | '\r' :: '\n' :: rest => skipLines rest
  | c :: rest => if isSpace c then skipLines rest else c :: rest
  | [] => []

/-- What comes after a line end right after the opening quotes. -/
def dropLineEnd : List Char → List Char
  | '\n' :: rest => rest
  | '\r' :: '\n' :: rest => rest
  | text => text

/-- The end of a text between triple quotes: up to two more quotes right before the closing ones belong
to the text. -/
def closing? (quote : Char) : List Char → Option (List Char × List Char)
  | a :: b :: c :: d :: e :: rest =>
    if [a, b, c].all (· = quote) then
      if d = quote then
        if e = quote then some ([quote, quote], rest) else some ([quote], e :: rest)
      else some ([], d :: e :: rest)
    else none
  | [a, b, c, d] =>
    if [a, b, c].all (· = quote) then
      if d = quote then some ([quote], []) else some ([], [d])
    else none
  | [a, b, c] => if [a, b, c].all (· = quote) then some ([], []) else none
  | _ => none

/-- Text between triple double quotes. A backslash at the end of a line takes away all blanks and line
ends up to the next other character. The number bounds how many characters are read. -/
def readBasicLines : Nat → List Char → Option (List Char × List Char)
  | 0, _ => none
  | fuel + 1, text =>
    match closing? '"' text with
    | some closed => some closed
    | none =>
      match text with
      | '\\' :: rest =>
        if endsLine rest then readBasicLines fuel (skipLines rest)
        else escape (readBasicLines fuel) rest
      | '\r' :: '\n' :: rest => follow '\n' (readBasicLines fuel rest)
      | c :: rest =>
        if c = '\n' ∨ isPlain c then follow c (readBasicLines fuel rest) else none
      | [] => none

/-- Text between triple single quotes. The number bounds how many characters are read. -/
def readLiteralLines : Nat → List Char → Option (List Char × List Char)
  | 0, _ => none
  | fuel + 1, text =>
    match closing? '\'' text with
    | some closed => some closed
    | none =>
      match text with
      | '\r' :: '\n' :: rest => follow '\n' (readLiteralLines fuel rest)
      | c :: rest =>
        if c = '\n' ∨ isPlain c then follow c (readLiteralLines fuel rest) else none
      | [] => none

/-- Reads a quoted text of one line. -/
def readLine : List Char → Option (String × List Char)
  | '"' :: rest => (readBasic (rest.length + 1) rest).map fun (text, after) => (.ofList text, after)
  | '\'' :: rest => (readLiteral rest).map fun (text, after) => (.ofList text, after)
  | _ => none

/-- Reads a quoted text. -/
def readQuoted : List Char → Option (String × List Char)
  | '"' :: '"' :: '"' :: rest =>
    let rest := dropLineEnd rest
    (readBasicLines (rest.length + 1) rest).map fun (text, after) => (.ofList text, after)
  | '\'' :: '\'' :: '\'' :: rest =>
    let rest := dropLineEnd rest
    (readLiteralLines (rest.length + 1) rest).map fun (text, after) => (.ofList text, after)
  | text => readLine text

end Toml
end Spillway
