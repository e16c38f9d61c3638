import Mathlib.Algebra.Group.Nat.Defs
import Spillway.Filter.Bloom

/-!
# Bloom directories lose no bit

A directory grows from another if every bit set in the one is set in the other. Adding a hash and
merging make a directory grow, and a hash is found in every directory that grew from one that it was
added to. So a hash that was added at any time is always found.
-/

namespace Spillway
namespace Bloom

theorem or_and_right (a b mask : UInt32) : (a ||| b) &&& mask = (a &&& mask) ||| (b &&& mask) := by
  refine UInt32.toBitVec_inj.mp (BitVec.eq_of_getLsbD_eq fun index _ => ?_)
  simp [Bool.and_or_distrib_right]

/-- One bit shifted by less than the width of a word is still there. -/
theorem one_shiftLeft_ne_zero (places : UInt32) : (1 : UInt32) <<< places ≠ 0 := by
  intro zero
  have bounded : places.toNat % 32 < 32 := Nat.mod_lt _ (by decide)
  have small : 2 ^ (places.toNat % 32) < 2 ^ 32 := Nat.pow_lt_pow_right (by decide) bounded
  have value := congrArg UInt32.toNat zero
  rw [UInt32.toNat_shiftLeft] at value
  simp only [UInt32.toNat_one, Nat.shiftLeft_eq, Nat.one_mul, Nat.mod_eq_of_lt small,
    UInt32.toNat_zero] at value
  exact Nat.ne_of_gt (Nat.two_pow_pos _) value

theorem ne_zero_of_mem_masks
    {key mask : UInt32}
    (member : mask ∈ masks key) :
    mask ≠ 0 := by
  obtain ⟨salt, _, rfl⟩ := List.mem_map.mp member
  exact one_shiftLeft_ne_zero _

/-- Every bit set in the first words is set in the second. -/
def Grows (words more : Array UInt32) : Prop :=
  ∀ position mask, words.getD position 0 &&& mask ≠ 0 → more.getD position 0 &&& mask ≠ 0

theorem Grows.refl (words : Array UInt32) : Grows words words :=
  fun _ _ set => set

theorem Grows.trans
    {first second third : Array UInt32}
    (one : Grows first second)
    (another : Grows second third) :
    Grows first third :=
  fun position mask set => another position mask (one position mask set)

theorem grows_or
    {words more : Array UInt32}
    (holds : ∀ position, ∃ extra, more.getD position 0 = words.getD position 0 ||| extra) :
    Grows words more := by
  intro position mask set
  obtain ⟨extra, same⟩ := holds position
  rw [same, or_and_right, ne_eq, UInt32.or_eq_zero_iff, not_and]
  exact fun zero => absurd zero set

theorem grows_modify
    (words : Array UInt32)
    (position : Nat)
    (mask : UInt32) :
    Grows words (words.modify position (· ||| mask)) := by
  refine grows_or fun other => ?_
  simp only [Array.getD_eq_getD_getElem?, Array.getElem?_modify]
  split
  · cases words[other]? with
    | none => exact ⟨0, UInt32.or_zero.symm⟩
    | some word => exact ⟨mask, rfl⟩
  · exact ⟨0, UInt32.or_zero.symm⟩

theorem grows_setBits
    (words : Array UInt32)
    (position : Nat)
    (bits : List UInt32) :
    Grows words (setBits words position bits) := by
  induction bits generalizing words position with
  | nil => exact .refl words
  | cons mask rest inductionHypothesis =>
      exact (grows_modify words position mask).trans (inductionHypothesis _ _)

/-- Bits that are found are found in all words that grew. -/
theorem Grows.testBits
    {words more : Array UInt32}
    {position : Nat}
    {bits : List UInt32}
    (grows : Grows words more)
    (found : testBits words position bits = true) :
    testBits more position bits = true := by
  induction bits generalizing position with
  | nil => rfl
  | cons mask rest inductionHypothesis =>
      simp only [Bloom.testBits, Bool.and_eq_true, bne_iff_ne] at found ⊢
      exact ⟨grows position mask found.1, inductionHypothesis found.2⟩

/-- Bits that were set are found. -/
theorem testBits_setBits
    {words : Array UInt32}
    {position : Nat}
    {bits : List UInt32}
    (inside : position + bits.length ≤ words.size)
    (present : ∀ mask ∈ bits, mask ≠ 0) :
    testBits (setBits words position bits) position bits = true := by
  induction bits generalizing words position with
  | nil => rfl
  | cons mask rest inductionHypothesis =>
      rw [List.length_cons] at inside
      have here : (words.modify position (· ||| mask)).getD position 0 &&& mask ≠ 0 := by
        have bounded : position < words.size := by omega
        rw [Array.getD_eq_getD_getElem?, Array.getElem?_modify, if_pos rfl,
          Array.getElem?_eq_getElem bounded, Option.map_some, Option.getD_some, or_and_right,
          UInt32.and_self, ne_eq, UInt32.or_eq_zero_iff, not_and]
        exact fun _ => present mask List.mem_cons_self
      simp only [setBits, Bloom.testBits, Bool.and_eq_true, bne_iff_ne]
      refine ⟨grows_setBits _ _ rest position mask here, inductionHypothesis ?_ ?_⟩
      · rw [Array.size_modify]
        omega
      · exact fun other member => present other (List.mem_cons_of_mem _ member)

@[simp] theorem length_masks (key : UInt32) : (masks key).length = 8 := by
  rw [masks, List.length_map]
  rfl

/-- The bucket of a hash lies inside the directory. -/
theorem base_add_length_le
    (bloom : Bloom)
    (hash : UInt64) :
    bloom.base hash + (masks (bloom.keyOf hash)).length ≤ bloom.words.size := by
  have bounded : hash.toUInt32.toNat % bucketCount bloom.logBuckets < bucketCount bloom.logBuckets :=
    Nat.mod_lt _ (by rw [bucketCount, Nat.one_shiftLeft]; exact Nat.two_pow_pos _)
  rw [bloom.size_words, length_masks, base]
  omega

/-- The bucket of a hash is picked by its low bits. -/
theorem base_eq_mask
    (bloom : Bloom)
    (hash : UInt64) :
    bloom.base hash = 8 * (hash.toUInt32.toNat &&& (2 ^ bloom.logBuckets - 1)) := by
  rw [base, bucketCount, Nat.one_shiftLeft, Nat.and_two_pow_sub_one_eq_mod]

/-- Words outside the run that is set stay as they are. -/
theorem getElem?_setBits_of_outside
    {words : Array UInt32}
    {start position : Nat}
    {bits : List UInt32}
    (outside : position < start ∨ start + bits.length ≤ position) :
    (setBits words start bits)[position]? = words[position]? := by
  induction bits generalizing words start with
  | nil => rfl
  | cons mask rest inductionHypothesis =>
      rw [List.length_cons] at outside
      rw [setBits, inductionHypothesis (by omega), Array.getElem?_modify, if_neg (by omega)]

theorem words_insert
    (bloom : Bloom)
    (hash : UInt64) :
    (bloom.insert hash).words =
      setBits bloom.words (bloom.base hash) (masks (bloom.keyOf hash)) := by
  rw [insert]

theorem logBuckets_insert
    (bloom : Bloom)
    (hash : UInt64) :
    (bloom.insert hash).logBuckets = bloom.logBuckets := by
  rw [insert]

/-- What a test after an addition looks at. -/
theorem test_insert_eq
    (bloom : Bloom)
    (added hash : UInt64) :
    (bloom.insert added).test hash =
      testBits (setBits bloom.words (bloom.base added) (masks (bloom.keyOf added)))
        (bloom.base hash) (masks (bloom.keyOf hash)) := by
  simp only [test, base, keyOf, words_insert, logBuckets_insert]

/-- A hash that was added is found. -/
theorem test_insert_self
    (bloom : Bloom)
    (hash : UInt64) :
    (bloom.insert hash).test hash = true := by
  rw [test_insert_eq]
  exact testBits_setBits (base_add_length_le bloom hash) fun _ => ne_zero_of_mem_masks

/-- A hash that is found is still found after another one was added. -/
theorem test_insert_of_test
    {bloom : Bloom}
    {hash : UInt64}
    (found : bloom.test hash = true)
    (other : UInt64) :
    (bloom.insert other).test hash = true := by
  rw [test_insert_eq]
  exact (grows_setBits _ _ _).testBits found

/-- The words of a union are the unions of the words. -/
theorem words_of_merge?
    {bloom other merged : Bloom}
    (merges : bloom.merge? other = some merged) :
    bloom.logBuckets = other.logBuckets ∧ merged.logBuckets = bloom.logBuckets ∧
      ∀ position, merged.words.getD position 0 =
        bloom.words.getD position 0 ||| other.words.getD position 0 := by
  unfold merge? at merges
  split at merges
  · next same =>
    cases merges
    refine ⟨same, rfl, fun position => ?_⟩
    have sizes : bloom.words.size = other.words.size := by
      rw [bloom.size_words, other.size_words, same]
    simp only [Array.getD_eq_getD_getElem?, Array.getElem?_zipWith]
    by_cases inside : position < bloom.words.size
    · rw [Array.getElem?_eq_getElem inside, Array.getElem?_eq_getElem (sizes ▸ inside)]
      rfl
    · rw [Array.getElem?_eq_none (Nat.not_lt.mp inside),
        Array.getElem?_eq_none (sizes ▸ Nat.not_lt.mp inside)]
      rfl
  · cases merges

/-- A hash that is found in one of two directories is found in their union. -/
theorem test_of_merge?
    {bloom other merged : Bloom}
    {hash : UInt64}
    (merges : bloom.merge? other = some merged)
    (found : bloom.test hash = true ∨ other.test hash = true) :
    merged.test hash = true := by
  obtain ⟨same, log, words⟩ := words_of_merge? merges
  rw [test, base, keyOf, log]
  obtain here | there := found
  · exact (grows_or fun position => ⟨_, words position⟩).testBits here
  · rw [test, base, keyOf, ← same] at there
    exact (grows_or fun position => ⟨_, (words position).trans (UInt32.or_comm _ _)⟩).testBits there

end Bloom
end Spillway
