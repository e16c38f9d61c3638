import Spillway.Filter.KeyFilter
import Spillway.Text.LittleEndian

/-!
# Filters on the wire

A filter is sent as a version byte, a kind byte and its content: the directory with its sizes, or a
flag and the two ends of the range. The reader accepts exactly what the writer produces: sizes have to
agree with each other, ends have to be in order, and no byte may be left over.
-/

namespace Spillway
namespace Wire

/-- Why bytes are no filter. -/
inductive Fault where
  | version (found : Nat)
  | kind (found : Nat)
  | presence (found : Nat)
  | keyTag (found : Nat)
  | keyText (cause : Text.Utf8Fault)
  | range (cause : RangeFault)
  | truncated
  | directorySize
  | directoryMask
  | trailing (bytes : Nat)
  deriving DecidableEq, Repr

/-- The status that reports the fault. -/
def Fault.status : Fault → Status
  | version found =>
    .invalidArgument ("unsupported runtime filter codec version: " ++ toString found)
  | kind found => .invalidArgument ("unknown runtime filter kind: " ++ toString found)
  | presence found =>
    .invalidArgument ("invalid runtime range filter presence flag: " ++ toString found)
  | keyTag found => .invalidArgument ("unknown runtime filter key tag: " ++ toString found)
  | keyText cause => .invalidArgument ("runtime filter key is not utf8: " ++ cause.message)
  | range cause => .invalidArgument cause.message
  | truncated => .invalidArgument "runtime filter data truncated"
  | directorySize => .invalidArgument "runtime bloom filter directory size invalid"
  | directoryMask => .invalidArgument "runtime bloom filter directory mask invalid"
  | trailing bytes =>
    .invalidArgument ("runtime filter payload has " ++ toString bytes ++ " trailing bytes")

/-- The version of the format. -/
def version : UInt8 := 1

/-- A key: its class, then eight bytes, or the length and the bytes of a text. -/
def writeKey : Key → List UInt8
  | .int value => 0 :: Text.littleEndian 8 value.toUInt64.toNat
  | .text value =>
    let bytes := Text.encodeUtf8 value
    1 :: (Text.littleEndian 4 bytes.length ++ bytes)

/-- A directory: the logarithm of its bucket count, the mask of bucket numbers, its words. -/
def writeBloom (bloom : Bloom) : List UInt8 :=
  Text.littleEndian 4 bloom.logBuckets ++ Text.littleEndian 4 (Bloom.bucketCount bloom.logBuckets - 1) ++
    Text.littleEndian 4 bloom.words.size ++
    bloom.words.toList.flatMap fun word => Text.littleEndian 4 word.toNat

/-- A range: whether it holds anything, and its ends. -/
def writeRange (range : KeyRange) : List UInt8 :=
  match range.bounds with
  | none => [0]
  | some (low, high) => 1 :: (writeKey low ++ writeKey high)

/-- The bytes of a filter. -/
def encode : KeyFilter → List UInt8
  | .membership bloom => version :: 0 :: writeBloom bloom
  | .range range => version :: 1 :: writeRange range

/-- Reads a value off the front of a byte string. -/
abbrev Reader (α : Type) : Type := StateT (List UInt8) (Except Fault) α

/-- The next bytes, exactly so many. -/
def take (count : Nat) : Reader (List UInt8) := do
  let bytes ← get
  if bytes.length < count then throw .truncated
  set (bytes.drop count)
  return bytes.take count

/-- The next little-endian number of so many bytes. -/
def number (width : Nat) : Reader Nat := do
  return Text.ofLittleEndian (← take width)

/-- Reads a key. -/
def readKey : Reader Key := do
  let tag ← number 1
  if tag = 0 then return .int (← number 8).toUInt64.toInt64
  else if tag = 1 then
    let length ← number 4
    match Text.decodeUtf8 (← take length) with
    | .ok text => return .text text
    | .error cause => throw (.keyText cause)
  else throw (.keyTag tag)

/-- The word that starts at a position of a byte string. -/
def wordAt (bytes : Array UInt8) (position : Nat) : UInt32 :=
  (Text.ofLittleEndian [bytes.getD position 0, bytes.getD (position + 1) 0,
    bytes.getD (position + 2) 0, bytes.getD (position + 3) 0]).toUInt32

/-- The directory whose words are written in a byte string. -/
def bloomOfBytes (logBuckets : Nat) (bytes : Array UInt8) : Bloom where
  logBuckets
  words := Array.ofFn fun position : Fin (8 * Bloom.bucketCount logBuckets) => wordAt bytes (4 * position)
  size_words := by simp

/-- Reads a directory. -/
def readBloom : Reader Bloom := do
  let logBuckets ← number 4
  let mask ← number 4
  let words ← number 4
  if 32 ≤ logBuckets then throw .directorySize
  if words ≠ 8 * Bloom.bucketCount logBuckets then throw .directorySize
  if mask ≠ Bloom.bucketCount logBuckets - 1 then throw .directoryMask
  return bloomOfBytes logBuckets (← take (4 * words)).toArray

/-- Reads a range. -/
def readRange : Reader KeyRange := do
  let flag ← number 1
  if flag = 0 then return .empty
  else if flag = 1 then
    let low ← readKey
    let high ← readKey
    match KeyRange.ofBounds low high with
    | .ok range => return range
    | .error cause => throw (.range cause)
  else throw (.presence flag)

/-- Reads a filter and leaves what comes after it. -/
def readFilter : Reader KeyFilter := do
  let found ← number 1
  if found ≠ version.toNat then throw (.version found)
  let kind ← number 1
  if kind = 0 then return .membership (← readBloom)
  else if kind = 1 then return .range (← readRange)
  else throw (.kind kind)

/-- Reads a filter that takes up the whole byte string. -/
def decode (bytes : List UInt8) : Except Fault KeyFilter := do
  let (filter, rest) ← readFilter.run bytes
  if rest.isEmpty then return filter
  else throw (.trailing rest.length)

end Wire
end Spillway
