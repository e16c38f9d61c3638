import Spillway.Data.Chunk
import Spillway.Partition.FanOut

/-!
# Directories

A directory deals the rows of a chunk out to buckets by the hash of their key. Directories of
different levels use different hash functions, so rows that share a bucket at one level spread again
at the next unless their keys are equal.
-/

namespace Spillway

/-- Routes rows to a power of two of buckets. -/
structure Directory where
  fanOut : Nat
  level : UInt32
  valid : FanOut.Valid fanOut

namespace Directory

/-- The directory of a level. -/
def make (fanOut : Nat) (level : UInt32) : Except Status Directory :=
  if valid : FanOut.Valid fanOut then .ok ⟨fanOut, level, valid⟩
  else
    .error (.invalidArgument ("partition fan-out must be a power of two in [2, " ++
      toString FanOut.max ++ "], got " ++ toString fanOut))

/-- Seed of the hashes of this level. -/
def seed (directory : Directory) : UInt64 :=
  Hash.partitionSeed directory.level

/-- Bucket of a hash: the last bits of it, as many as number the buckets. -/
def bucketOf (directory : Directory) (hash : UInt64) : Nat :=
  (hash &&& (directory.fanOut.toUInt64 - 1)).toNat

/-- Bucket of the rows of a key. -/
def bucketOfKey (directory : Directory) (key : Option Key) : Nat :=
  directory.bucketOf (hashKey directory.seed key)

/-- Bucket of a row by its cell at a position. -/
def bucketOfRow (directory : Directory) (position : Nat) (row : Row) : Nat :=
  directory.bucketOf (Chunk.rowHash directory.seed position row)

/-- Notes the number of a row, in 32 bits, under the bucket of the row. The numbers of a bucket are kept
last first. -/
def note
    (directory : Directory)
    (position : Nat)
    (noted : List (List UInt32))
    (found : Row × Nat) :
    List (List UInt32) :=
  noted.modify (directory.bucketOfRow position found.1) (found.2.toUInt32 :: ·)

/-- The numbers of the rows of every bucket, in order. -/
def numbers (directory : Directory) (chunk : Chunk) (position : Nat) : List (List UInt32) :=
  (chunk.rows.zipIdx.foldl (directory.note position) (List.replicate directory.fanOut [])).map
    List.reverse

/-- The rows of a chunk with some numbers, if there are any. Where there are as many numbers as rows, it is
the chunk as it is. -/
def part (chunk : Chunk) (numbers : List UInt32) : Option Chunk :=
  if numbers.isEmpty then none
  else if numbers.length = chunk.length then some chunk
  else some (chunk.take (numbers.map UInt32.toNat))

/-- Deals out a chunk by the key in a column: one slot for each bucket, empty where no row goes. -/
def split (directory : Directory) (chunk : Chunk) (key : String) :
    Except Status (List (Option Chunk)) :=
  if chunk.isEmpty then .ok (List.replicate directory.fanOut none)
  else do
    let position ← chunk.keyPosition key
    return (directory.numbers chunk position).map (part chunk)

theorem bucketOf_eq_mod (directory : Directory) (hash : UInt64) :
    directory.bucketOf hash = hash.toNat % directory.fanOut := by
  obtain ⟨exponent, power⟩ := (FanOut.valid_iff.mp directory.valid).2.2
  rw [bucketOf, UInt64.toNat_and, FanOut.toNat_mask directory.valid, power,
    Nat.and_two_pow_sub_one_eq_mod]

theorem bucketOf_lt (directory : Directory) (hash : UInt64) :
    directory.bucketOf hash < directory.fanOut :=
  bucketOf_eq_mod directory hash ▸ Nat.mod_lt _ (FanOut.pos_of_valid directory.valid)

/-- The bucket of a row is that of its key. -/
theorem bucketOfRow_eq (directory : Directory) (position : Nat) (row : Row) :
    directory.bucketOfRow position row = directory.bucketOfKey (Chunk.rowKey position row) :=
  congrArg directory.bucketOf (Cell.hash_eq_hashKey _ _)

end Directory

end Spillway
