import Spillway.Hash
import Spillway.Status

/-!
# Bloom directories

A directory is a power of two of buckets of eight 32-bit words. A hash picks one bucket by its low
bits and sets one bit in each of its words; a hash may be present only if all its bits are set. Two
directories of one size are merged word by word, and no bit is ever lost.
-/

namespace Spillway

/-- Number of buckets with a given logarithm. -/
def Bloom.bucketCount (logBuckets : Nat) : Nat :=
  1 <<< logBuckets

/-- A directory of `2 ^ logBuckets` buckets. -/
structure Bloom where
  logBuckets : Nat
  words : Array UInt32
  size_words : words.size = 8 * Bloom.bucketCount logBuckets

namespace Bloom

@[ext] theorem ext {a b : Bloom} (log : a.logBuckets = b.logBuckets) (words : a.words = b.words) :
    a = b := by
  cases a
  cases b
  simp_all

instance : DecidableEq Bloom := fun a b =>
  decidable_of_iff (a.logBuckets = b.logBuckets ∧ a.words = b.words)
    ⟨fun equal => ext equal.1 equal.2, fun equal => equal ▸ ⟨rfl, rfl⟩⟩

/-- Odd multipliers, one for each word of a bucket. -/
def salts : List UInt32 :=
  [0x47b6137b, 0x44974d91, 0x8824ad5b, 0xa2b7289d, 0x705495c7, 0x2df1424b, 0x9efc4947, 0x5c6bfb31]

/-- The bit of a hash in each word of its bucket. -/
def masks (key : UInt32) : List UInt32 :=
  salts.map fun salt => (1 : UInt32) <<< ((key * salt) >>> 27)

/-- The empty directory of `2 ^ logBuckets` buckets. -/
def empty (logBuckets : Nat) : Bloom where
  logBuckets
  words := Array.replicate (8 * bucketCount logBuckets) 0
  size_words := by simp

/-- The empty directory of `2 ^ logSpace` bytes, or of two buckets if that is more. -/
def withLogSpace (logSpace : Nat) : Bloom :=
  empty (max (logSpace - 5) 1)

/-- Size in bytes. -/
def sizeBytes (bloom : Bloom) : Nat :=
  4 * bloom.words.size

/-- Logarithm of the size in bytes. -/
def logSpace (bloom : Bloom) : Nat :=
  bloom.logBuckets + 5

/-- Position of the first word of the bucket of a hash. -/
def base (bloom : Bloom) (hash : UInt64) : Nat :=
  8 * (hash.toUInt32.toNat % bucketCount bloom.logBuckets)

/-- The part of a hash that picks its bits. -/
def keyOf (bloom : Bloom) (hash : UInt64) : UInt32 :=
  (hash >>> bloom.logBuckets.toUInt64).toUInt32

/-- Sets bits in consecutive words. -/
def setBits (words : Array UInt32) (position : Nat) : List UInt32 → Array UInt32
  | [] => words
  | mask :: rest => setBits (words.modify position (· ||| mask)) (position + 1) rest

@[simp] theorem size_setBits (words : Array UInt32) (position : Nat) (bits : List UInt32) :
    (setBits words position bits).size = words.size := by
  induction bits generalizing words position with
  | nil => rfl
  | cons mask rest ih => simp [setBits, ih]

/-- Whether all bits are set in consecutive words. -/
def testBits (words : Array UInt32) (position : Nat) : List UInt32 → Bool
  | [] => true
  | mask :: rest => words.getD position 0 &&& mask != 0 && testBits words (position + 1) rest

/-- Adds a hash. -/
def insert (bloom : Bloom) (hash : UInt64) : Bloom where
  logBuckets := bloom.logBuckets
  words := setBits bloom.words (bloom.base hash) (masks (bloom.keyOf hash))
  size_words := by rw [size_setBits, bloom.size_words]

/-- Whether a hash may have been added; if not, it was not. -/
def test (bloom : Bloom) (hash : UInt64) : Bool :=
  testBits bloom.words (bloom.base hash) (masks (bloom.keyOf hash))

/-- The union of two directories of one size. -/
def merge? (bloom other : Bloom) : Option Bloom :=
  if same : bloom.logBuckets = other.logBuckets then
    some {
      logBuckets := bloom.logBuckets
      words := Array.zipWith (· ||| ·) bloom.words other.words
      size_words := by simp [bloom.size_words, other.size_words, same] }
  else none

end Bloom

end Spillway
