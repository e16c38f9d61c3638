import Spillway.Filter.Bloom

/-!
# Sizing of Bloom directories

The expected rate of false positives of a directory, and the sizes and key counts that keep it below a
bound. A requested size is brought into the supported range and rounded up to a power of two.
-/

namespace Spillway
namespace Sizing

/-- Logarithm of the largest supported size. -/
def maxLogSpace : Nat := 24

/-- Logarithms of the supported sizes. -/
def logSpaces : List Nat :=
  [12, 13, 14, 15, 16, 17, 18, 19, 20, 21, 22, 23, 24]

/-- Logarithm of the smallest supported size that holds the requested one, or of the largest. -/
def logSpaceFor (bytes : Nat) : Nat :=
  (logSpaces.find? fun logSpace => bytes ≤ 1 <<< logSpace).getD maxLogSpace

/-- The supported size for a requested one. -/
def normalize (bytes : Nat) : Nat :=
  1 <<< logSpaceFor bytes

/-- Number of words of a bucket, which is the number of bits that a key sets. -/
def bitsPerKey : Float := 8.0

/-- A count as a floating-point number. -/
def ofCount (count : Nat) : Float :=
  count.toUInt64.toFloat

/-- Number of bits of a directory of `2 ^ logSpace` bytes. -/
def bitCount (logSpace : Nat) : Float :=
  ((1 : UInt64) <<< (logSpace.toUInt64 + 3)).toFloat

/-- The larger of two numbers; something that is not a number gives way to the other. -/
def larger (a b : Float) : Float :=
  if a.isNaN then b else if b.isNaN then a else if a < b then b else a

/-- Expected rate of false positives after so many distinct keys. -/
def errorRate (keys logSpace : Nat) : Float :=
  Float.pow (1.0 - Float.exp (-bitsPerKey * ofCount keys / bitCount logSpace)) bitsPerKey

/-- Smallest logarithm of a size that keeps the rate of false positives within a bound. -/
def minLogSpace (keys : Nat) (rate : Float) : Nat :=
  let bits := -bitsPerKey * ofCount keys / Float.log (1.0 - Float.pow rate (1.0 / bitsPerKey))
  let bytes := larger (bits / 8.0) 1.0
  (larger (Float.ceil (Float.log2 bytes)) 0.0).toUInt32.toNat

/-- Largest number of distinct keys that keeps the rate of false positives within a bound. -/
def maxKeys (logSpace : Nat) (rate : Float) : Nat :=
  let share := 1.0 / bitsPerKey
  (-bitCount logSpace * Float.log (1.0 - Float.pow rate share) * share).toUInt64.toNat

/-- Whether a directory of the requested size would be too imprecise to be worth building. -/
def shouldDisable (keys bytes : Nat) (maxErrorRate : Float) : Bool :=
  errorRate keys (logSpaceFor bytes) > maxErrorRate

end Sizing

/-- The empty directory of the supported size for a requested one. -/
def Bloom.withSize (bytes : Nat) : Bloom :=
  Bloom.withLogSpace (Sizing.logSpaceFor bytes)

end Spillway
