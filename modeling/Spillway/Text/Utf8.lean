/-!
# UTF-8

The bytes of a text, and texts read from bytes. A reading that fails says how many leading bytes are
sound and, unless the text merely stops too early, how many bytes after them are at fault.
-/

namespace Spillway
namespace Text

/-- Why a byte string is not UTF-8. `length` is absent when the last character is cut off. -/
structure Utf8Fault where
  index : Nat
  length : Option Nat
  deriving DecidableEq, Repr

/-- Description of the fault. -/
def Utf8Fault.message (fault : Utf8Fault) : String :=
  match fault.length with
  | some length =>
    "invalid utf-8 sequence of " ++ toString length ++ " bytes from index " ++ toString fault.index
  | none => "incomplete utf-8 byte sequence from index " ++ toString fault.index

/-- The bytes of one character. -/
def utf8Char (c : Char) : List UInt8 :=
  let code := c.toNat
  if code < 0x80 then [code.toUInt8]
  else if code < 0x800 then [(0xC0 + code / 0x40).toUInt8, (0x80 + code % 0x40).toUInt8]
  else if code < 0x10000 then
    [(0xE0 + code / 0x1000).toUInt8, (0x80 + code / 0x40 % 0x40).toUInt8,
      (0x80 + code % 0x40).toUInt8]
  else
    [(0xF0 + code / 0x40000).toUInt8, (0x80 + code / 0x1000 % 0x40).toUInt8,
      (0x80 + code / 0x40 % 0x40).toUInt8, (0x80 + code % 0x40).toUInt8]

/-- The bytes of a text. -/
def encodeUtf8 (text : String) : List UInt8 :=
  text.toList.flatMap utf8Char

/-- Whether a byte continues a character. -/
def isContinuation (byte : UInt8) : Bool :=
  0x80 ≤ byte.toNat && byte.toNat < 0xC0

/-- Range of the second byte of a character of three or four bytes, which rules out spellings that
are too long and code points that are no characters. -/
def secondByteRange (first : Nat) : Nat × Nat :=
  if first = 0xE0 then (0xA0, 0xBF)
  else if first = 0xED then (0x80, 0x9F)
  else if first = 0xF0 then (0x90, 0xBF)
  else if first = 0xF4 then (0x80, 0x8F)
  else (0x80, 0xBF)

/-- Payload of a continuation byte. -/
def payload (byte : UInt8) : Nat :=
  byte.toNat % 0x40

/-- Reads one character off a byte string that starts with `first`. Failure gives the length of
the faulty sequence, or nothing if bytes are missing. -/
def decodeChar (first : UInt8) (rest : List UInt8) : Except (Option Nat) (Char × List UInt8) :=
  let lead := first.toNat
  if lead < 0x80 then .ok (Char.ofNat lead, rest)
  else if lead < 0xC2 ∨ 0xF4 < lead then .error (some 1)
  else if lead < 0xE0 then
    match rest with
    | [] => .error none
    | second :: rest =>
      if isContinuation second then
        .ok (Char.ofNat (lead % 0x20 * 0x40 + payload second), rest)
      else .error (some 1)
  else
    let range := secondByteRange lead
    match rest with
    | [] => .error none
    | second :: rest =>
      if ¬ (range.1 ≤ second.toNat ∧ second.toNat ≤ range.2) then .error (some 1)
      else
        match rest with
        | [] => .error none
        | third :: rest =>
          if ¬ isContinuation third then .error (some 2)
          else if lead < 0xF0 then
            .ok (Char.ofNat (lead % 0x10 * 0x1000 + payload second * 0x40 + payload third), rest)
          else
            match rest with
            | [] => .error none
            | fourth :: rest =>
              if ¬ isContinuation fourth then .error (some 3)
              else
                .ok (Char.ofNat (lead % 0x08 * 0x40000 + payload second * 0x1000 +
                  payload third * 0x40 + payload fourth), rest)

/-- What is left after a character is a shorter byte string. -/
theorem decodeChar_length_le
    {first : UInt8}
    {rest left : List UInt8}
    {c : Char}
    (read : decodeChar first rest = .ok (c, left)) :
    left.length ≤ rest.length := by
  simp only [decodeChar] at read
  repeat' split at read
  all_goals simp_all
  all_goals omega

/-- Reads the characters that start at position `index`, after those already read, which are kept
last first. -/
def decodeUtf8From (index : Nat) (done : List Char) (bytes : List UInt8) :
    Except Utf8Fault (List Char) :=
  match bytes with
  | [] => .ok done.reverse
  | first :: rest =>
    match _read : decodeChar first rest with
    | .error length => .error ⟨index, length⟩
    | .ok (c, left) => decodeUtf8From (index + c.utf8Size) (c :: done) left
termination_by bytes.length
decreasing_by
  have shorter := decodeChar_length_le _read
  simp only [List.length_cons]
  omega

/-- Reads a text. -/
def decodeUtf8 (bytes : List UInt8) : Except Utf8Fault String :=
  (decodeUtf8From 0 [] bytes).map String.ofList

end Text
end Spillway
