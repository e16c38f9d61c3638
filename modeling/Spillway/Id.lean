import Spillway.Text.Hex
import Spillway.Text.Integer

/-!
# Identifiers

Filters, workers, producers, consumers and partitions are named by 32-bit numbers, and a number of
one kind is never taken for one of another. A query is named by 128 bits, written as two hexadecimal
numbers with a hyphen between them.
-/

namespace Spillway

/-- What an identifier names. -/
inductive IdKind where
  | filter
  | worker
  | producer
  | consumer
  | partition
  deriving DecidableEq, Repr

/-- The kind as it is called in messages. -/
def IdKind.label : IdKind → String
  | filter => "filter id"
  | worker => "worker id"
  | producer => "producer id"
  | consumer => "consumer id"
  | partition => "partition id"

/-- Identifier of one kind. -/
structure Id (kind : IdKind) where
  value : UInt32
  deriving DecidableEq, Repr, Inhabited

abbrev FilterId : Type := Id .filter

abbrev WorkerId : Type := Id .worker

abbrev ProducerId : Type := Id .producer

abbrev ConsumerId : Type := Id .consumer

/-- Why a number or a text names nothing. -/
inductive IdFault where
  | negative (label : String) (value : Int)
  | malformed (label text : String) (cause : Text.IntegerFault)
  | noHyphen (text : String)
  deriving DecidableEq, Repr

/-- Description of the fault. -/
def IdFault.message : IdFault → String
  | negative label value => "invalid " ++ label ++ ": " ++ toString value
  | malformed label text cause => "invalid " ++ label ++ " string '" ++ text ++ "': " ++ cause.message
  | noHyphen text => "invalid query id string '" ++ text ++ "': missing '-'"

namespace Id

variable {kind : IdKind}

instance : Ord (Id kind) where
  compare a b := compare a.value b.value

/-- Decimal text of an identifier. -/
def render (id : Id kind) : String :=
  toString id.value.toNat

/-- The identifier of a signed number. -/
def ofInt (kind : IdKind) (value : Int) : Except IdFault (Id kind) :=
  if 0 ≤ value then .ok ⟨value.toNat.toUInt32⟩ else .error (.negative kind.label value)

/-- Reads the decimal text of an identifier. -/
def parse (kind : IdKind) (text : String) : Except IdFault (Id kind) :=
  match Text.parseUnsigned 10 UInt32.size text with
  | .ok value => .ok ⟨value.toUInt32⟩
  | .error cause => .error (.malformed kind.label text cause)

end Id

/-- Name of a query. -/
structure QueryId where
  high : UInt64
  low : UInt64
  deriving DecidableEq, Repr, Inhabited

namespace QueryId

/-- The two halves in hexadecimal. -/
def render (id : QueryId) : String :=
  Text.hexNat id.high.toNat ++ "-" ++ Text.hexNat id.low.toNat

/-- Splits a text at its first hyphen. -/
def splitHyphen : List Char → Option (List Char × List Char)
  | [] => none
  | c :: rest => if c = '-' then some ([], rest) else (splitHyphen rest).map fun (a, b) => (c :: a, b)

/-- Reads one half of the text of a query id. -/
def parseHalf (text : String) (half : List Char) : Except IdFault UInt64 :=
  match Text.parseUnsigned 16 UInt64.size (String.ofList half) with
  | .ok value => .ok value.toUInt64
  | .error cause => .error (.malformed "query id" text cause)

/-- Reads the text of a query id. -/
def parse (text : String) : Except IdFault QueryId :=
  match splitHyphen text.toList with
  | none => .error (.noHyphen text)
  | some (high, low) => do return ⟨← parseHalf text high, ← parseHalf text low⟩

end QueryId

end Spillway
