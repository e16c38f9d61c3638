import Spillway.Text.Utf8

/-!
# Hashing

Seeded 64-bit hashes of words and byte strings. A word is mixed by steps each of which can be undone,
so under one seed no two words share a hash. Every level of partitioning has a seed of its own.
-/

namespace Spillway
namespace Hash

/-- Mixes the bits of a word: an addition, then multiplications by odd numbers between shifts. -/
def mix (word : UInt64) : UInt64 :=
  let a := word + 0x9e3779b97f4a7c15
  let b := (a ^^^ (a >>> 30)) * 0xbf58476d1ce4e5b9
  let c := (b ^^^ (b >>> 27)) * 0x94d049bb133111eb
  c ^^^ (c >>> 31)

/-- Hash of a word. -/
def word (seed value : UInt64) : UInt64 :=
  mix (seed ^^^ value)

/-- Hash of a byte string: each byte is mixed in by an exclusive or and a multiplication. -/
def bytes (seed : UInt64) (string : List UInt8) : UInt64 :=
  string.foldl (fun hash byte => (hash ^^^ byte.toUInt64) * 0x100000001b3)
    (seed ^^^ 0xcbf29ce484222325)

/-- Hash of the absent value. -/
def null (seed : UInt64) : UInt64 :=
  word seed 0x9e3779b97f4a7c15

/-- Hash of a text. -/
def text (seed : UInt64) (value : String) : UInt64 :=
  word seed (bytes 0 (Text.encodeUtf8 value))

/-- Seed of the hashes that runtime filters hold. -/
def filterSeed : UInt64 := 1234

/-- Seed of the hashes that route rows at a level of partitioning. -/
def partitionSeed (level : UInt32) : UInt64 :=
  mix ((0x5bd1e9957f4a7c15 : UInt64) ^^^ ((level.toUInt64 <<< 32) ||| level.toUInt64))

end Hash
end Spillway
