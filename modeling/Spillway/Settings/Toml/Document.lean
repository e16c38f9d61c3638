import Spillway.Settings.Toml.Moment
import Spillway.Settings.Toml.Node
import Spillway.Settings.Toml.Number
import Spillway.Settings.Toml.Quotation

/-!
# TOML documents

A document is a sequence of lines: entries, headers of tables and of elements of arrays of tables, blank
lines and comments. The entries below a header belong to its table. Reading either yields the whole
document as one table or fails; keys have fewer than 80 parts and values are nested fewer than 80 deep.
-/

namespace Spillway
namespace Toml

/-- Bound on the parts of a key and on the nesting of values. -/
def depthBound : Nat := 80

/-- What comes after blanks within a line. -/
def skipSpaces (text : List Char) : List Char :=
  text.dropWhile isSpace

/-- What comes after blanks, line ends and comments; the flag says whether a comment is open. -/
def skipVoid : Bool → List Char → List Char
  | _, '\n' :: rest => skipVoid false rest
  | _, '\r' :: '\n' :: rest => skipVoid false rest
  | true, c :: rest => if isPlain c then skipVoid true rest else c :: rest
  | false, c :: rest =>
    if isSpace c then skipVoid false rest
    else if c = '#' then skipVoid true rest
    else c :: rest
  | _, [] => []

/-- What comes after the end of a line on which only blanks and a comment are left. -/
def endLine (text : List Char) : Option (List Char) :=
  let text := skipSpaces text
  let text := if text.head? = some '#' then text.dropWhile isPlain else text
  match text with
  | [] => some []
  | '\n' :: rest => some rest
  | '\r' :: '\n' :: rest => some rest
  | _ => none

/-- Whether a character may stand in a key without quotes. -/
def isKeyChar (c : Char) : Bool :=
  c.isAlphanum || c = '-' || c = '_'

/-- Reads one part of a key. -/
def readPart (text : List Char) : Option (String × List Char) :=
  match text with
  | '"' :: _ => readLine text
  | '\'' :: _ => readLine text
  | _ =>
    let part := text.takeWhile isKeyChar
    if part.isEmpty then none else some (.ofList part, text.dropWhile isKeyChar)

/-- Reads a key of so many parts at most. -/
def readKey : Nat → List Char → Option (List String × List Char)
  | 0, _ => none
  | fuel + 1, text => do
    let (part, rest) ← readPart (skipSpaces text)
    match skipSpaces rest with
    | '.' :: rest => do
      let (parts, rest) ← readKey fuel rest
      return (part :: parts, rest)
    | rest => return ([part], rest)

/-- Whether a character ends a value that is not quoted. -/
def endsToken (c : Char) : Bool :=
  isSpace c || c = '\n' || c = '\r' || c = ',' || c = ']' || c = '}' || c = '#'

/-- The value that a token stands for. -/
def scalar? (token : List Char) : Option Value :=
  if token = ['t', 'r', 'u', 'e'] then some (.boolean true)
  else if token = ['f', 'a', 'l', 's', 'e'] then some (.boolean false)
  else if isMoment token then some .moment
  else
    match readInteger token with
    | some value => some (.integer value)
    | none => (readFloat token).map .float

/-- Reads a value that is neither array nor table. A time may follow a date after one space. -/
def readScalar (text : List Char) : Option (Value × List Char) :=
  match text with
  | '"' :: _ => (readQuoted text).map fun (text, rest) => (.text text, rest)
  | '\'' :: _ => (readQuoted text).map fun (text, rest) => (.text text, rest)
  | _ =>
    let (token, rest) := splitBefore endsToken text
    match rest with
    | ' ' :: more =>
      let (time, after) := splitBefore endsToken more
      if readDate token = some [] ∧ isOffsetTime time then some (.moment, after)
      else (scalar? token).map fun value => (value, rest)
    | _ => (scalar? token).map fun value => (value, rest)

mutual

/-- Reads a value, nested so deep at most. The other number bounds the steps that reading takes. -/
def readValue : Nat → Nat → List Char → Option (Value × List Char)
  | 0, _, _ => none
  | fuel + 1, depth, '[' :: rest =>
    if depth = 0 then none
    else (readElements fuel (depth - 1) (skipVoid false rest)).map fun (elements, rest) =>
      (.array elements, rest)
  | fuel + 1, depth, '{' :: rest =>
    if depth = 0 then none
    else
      match skipSpaces rest with
      | '}' :: rest => some (.table [], rest)
      | rest => do
        let (entries, rest) ← readEntries fuel (depth - 1) rest
        return (← tableOf entries, rest)
  | _, _, text => readScalar text

/-- Reads the elements of an array up to its end. -/
def readElements : Nat → Nat → List Char → Option (List Value × List Char)
  | 0, _, _ => none
  | _, _, ']' :: rest => some ([], rest)
  | fuel + 1, depth, text => do
    let (value, rest) ← readValue fuel depth text
    match skipVoid false rest with
    | ']' :: rest => return ([value], rest)
    | ',' :: rest => do
      let (values, rest) ← readElements fuel depth (skipVoid false rest)
      return (value :: values, rest)
    | _ => none

/-- Reads the entries of a table in braces up to its end. -/
def readEntries : Nat → Nat → List Char → Option (List (List String × Value) × List Char)
  | 0, _, _ => none
  | fuel + 1, depth, text => do
    let (path, rest) ← readKey (depthBound - 1) text
    match rest with
    | '=' :: rest => do
      let (value, rest) ← readValue fuel depth (skipSpaces rest)
      match skipSpaces rest with
      | '}' :: rest => return ([(path, value)], rest)
      | ',' :: rest => do
        let (entries, rest) ← readEntries fuel depth rest
        return ((path, value) :: entries, rest)
      | _ => none
    | _ => none

end

/-- A line that says something. -/
inductive Line where
  | entry (path : List String) (value : Value)
  | table (path : List String)
  | element (path : List String)

/-- Reads what a line says. -/
def readLineContent (text : List Char) : Option (Line × List Char) :=
  match text with
  | '[' :: '[' :: rest => do
    let (path, rest) ← readKey (depthBound - 1) rest
    match rest with
    | ']' :: ']' :: rest => return (.element path, rest)
    | _ => none
  | '[' :: rest => do
    let (path, rest) ← readKey (depthBound - 1) rest
    match rest with
    | ']' :: rest => return (.table path, rest)
    | _ => none
  | _ => do
    let (path, rest) ← readKey (depthBound - 1) text
    match rest with
    | '=' :: rest => do
      let (value, rest) ← readValue (2 * rest.length + 2) (depthBound - 1) (skipSpaces rest)
      return (.entry path value, rest)
    | _ => none

/-- Reads all lines. The number bounds how many there are. -/
def readLines : Nat → List Char → Option (List Line)
  | _, [] => some []
  | 0, _ => none
  | fuel + 1, text =>
    match endLine text with
    | some rest => readLines fuel rest
    | none => do
      let (line, rest) ← readLineContent (skipSpaces text)
      return line :: (← readLines fuel (← endLine rest))

/-- The entries at the start of some lines, and the lines from the first header on. -/
def splitSection : List Line → List (List String × Value) × List Line
  | .entry path value :: rest =>
    let (entries, rest) := splitSection rest
    ((path, value) :: entries, rest)
  | lines => ([], lines)

/-- Adds what the lines from a header on say. The number bounds how many headers there are. -/
def addSections : Nat → List Line → Nodes → Option Nodes
  | 0, lines, nodes => if lines.isEmpty then some nodes else none
  | _, [], nodes => some nodes
  | fuel + 1, line :: rest, nodes =>
    let (entries, rest) := splitSection rest
    match line with
    | .entry .. => none
    | .table path => do addSections fuel rest (← nodes.change (Nodes.openTable entries) path)
    | .element path => do addSections fuel rest (← nodes.change (Nodes.addElement entries) path)

/-- Reads a document. A byte order mark in front of it does not count. -/
def read (text : String) : Option (List (String × Value)) := do
  let text := text.toList
  let text := if text.head? = some '\uFEFF' then text.tail else text
  let lines ← readLines (text.length + 1) text
  let (entries, rest) := splitSection lines
  let nodes ← Nodes.insertAll entries []
  return finishEntries (← addSections lines.length rest nodes)

end Toml
end Spillway
