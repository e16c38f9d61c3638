import Spillway.Status

/-!
# Fan-out

Rows are dealt out to a power of two of buckets, at least two and at most 256. The fan-out for an
estimated size is the smallest one whose share fits the memory limit.
-/

namespace Spillway
namespace FanOut

/-- The fan-outs, in increasing order. -/
def all : List Nat :=
  [2, 4, 8, 16, 32, 64, 128, 256]

/-- Largest fan-out. -/
def max : Nat := 256

/-- Whether a number is a fan-out. -/
def Valid (count : Nat) : Prop :=
  count ∈ all

instance (count : Nat) : Decidable (Valid count) :=
  inferInstanceAs (Decidable (count ∈ all))

/-- Share of one bucket, rounded up. -/
def share (bytes count : Nat) : Nat :=
  (bytes + count - 1) / count

/-- Doubles a count for as long as it is too small, at most up to the largest fan-out. -/
def doubled (tooSmall : Nat → Bool) (count : Nat) (positive : 0 < count) : Nat :=
  if count < max ∧ tooSmall count then
    doubled tooSmall (count * 2) (Nat.mul_pos positive Nat.two_pos)
  else count
termination_by max - count

/-- Fan-out for an estimated size: two, doubled until the share fits the limit. Without an estimate or a
limit it is two, doubled until it reaches the configured count. -/
def forBudget (limit estimated configured : Nat) : Nat :=
  if estimated = 0 ∨ limit = 0 then doubled (fun count => count < min configured max) 2 Nat.two_pos
  else doubled (fun count => limit < share estimated count) 2 Nat.two_pos

/-- Doubling ends at a fan-out if it starts at one. -/
theorem valid_doubled
    {tooSmall : Nat → Bool}
    {count : Nat}
    {positive : 0 < count}
    (valid : Valid count) :
    Valid (doubled tooSmall count positive) := by
  fun_induction doubled with
  | case1 count positive more inductionHypothesis =>
    exact inductionHypothesis
      ((by decide : ∀ fanOut ∈ all, fanOut < max → Valid (fanOut * 2)) count valid more.1)
  | case2 count positive enough => exact valid

theorem valid_forBudget (limit estimated configured : Nat) :
    Valid (forBudget limit estimated configured) := by
  unfold forBudget
  split <;> exact valid_doubled (by decide)

/-- The fan-outs are the powers of two from two to the largest one. -/
theorem valid_iff {count : Nat} :
    Valid count ↔ 2 ≤ count ∧ count ≤ max ∧ count.isPowerOfTwo := by
  constructor
  · exact (by decide : ∀ fanOut ∈ all, 2 ≤ fanOut ∧ fanOut ≤ max ∧ fanOut.isPowerOfTwo) count
  · rintro ⟨least, greatest, exponent, rfl⟩
    have below : 2 ^ exponent < 2 ^ 9 := Nat.lt_of_le_of_lt greatest (by decide)
    have small : exponent < 9 := (Nat.pow_lt_pow_iff_right Nat.one_lt_two).mp below
    exact (by decide : ∀ exponent < 9, 2 ≤ 2 ^ exponent → Valid (2 ^ exponent)) exponent small least

/-- The mask that cuts the bucket off a hash. -/
theorem toNat_mask {count : Nat} (valid : Valid count) : (count.toUInt64 - 1).toNat = count - 1 :=
  (by decide : ∀ fanOut ∈ all, (fanOut.toUInt64 - 1).toNat = fanOut - 1) count valid

theorem pos_of_valid {count : Nat} (valid : Valid count) : 0 < count :=
  (by decide : ∀ fanOut ∈ all, 0 < fanOut) count valid

end FanOut
end Spillway
