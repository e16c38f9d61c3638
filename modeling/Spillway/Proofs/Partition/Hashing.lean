import Mathlib.Data.Set.Function
import Spillway.Operator.Partitioned

/-!
# Hashes that tell words and levels apart

A word is mixed by an addition, by multiplications with odd numbers, and by exclusive ors with its own
upper bits. Each of these can be undone, so under every seed the hashes of all words are all words, each of
them once, and no two integers have the same hash. The seeds of the levels are mixed in the same way. So
every level has a seed of its own, and no key has the same hash on two levels.
-/

namespace Spillway
namespace Hash

/-- A word with its upper bits mixed into its lower ones. -/
def smear (count word : UInt64) : UInt64 :=
  word ^^^ (word >>> count)

/-- A word with its upper bits taken out of its lower ones, if three shifts leave nothing of it. -/
def unsmear (count word : UInt64) : UInt64 :=
  word ^^^ (word >>> count) ^^^ (word >>> count >>> count)

theorem mix_eq :
    mix = smear 31 ∘ (· * 0x94d049bb133111eb) ∘ smear 27 ∘ (· * 0xbf58476d1ce4e5b9) ∘ smear 30 ∘
      (· + 0x9e3779b97f4a7c15) :=
  rfl

/-! ## Steps that can be undone -/

/-- Three shifts of more than a third of all bits leave nothing. -/
theorem shiftRight_thrice
    {count : UInt64}
    (far : 22 ≤ count.toNat)
    (within : count.toNat < 64)
    (word : UInt64) :
    word >>> count >>> count >>> count = 0 := by
  apply UInt64.toNat_inj.mp
  simp only [UInt64.toNat_shiftRight, Nat.mod_eq_of_lt within, ← Nat.shiftRight_add]
  have beyond : 64 ≤ count.toNat + count.toNat + count.toNat := by omega
  exact Nat.shiftRight_eq_zero _ _
    (Nat.lt_of_lt_of_le word.toNat_lt (Nat.pow_le_pow_right (by decide) beyond))

/-- What is combined twice drops out. -/
theorem xor_xor_xor (first middle last : UInt64) :
    (first ^^^ middle) ^^^ (middle ^^^ last) = first ^^^ last := by
  rw [UInt64.xor_assoc, ← UInt64.xor_assoc middle, UInt64.xor_self, UInt64.zero_xor]

theorem bijective_smear
    {count : UInt64}
    (far : 22 ≤ count.toNat)
    (within : count.toNat < 64) :
    Function.Bijective (smear count) := by
  refine Function.bijective_iff_has_inverse.mpr ⟨unsmear count, fun word => ?_, fun word => ?_⟩
  · calc unsmear count (smear count word)
      _ = word ^^^ word >>> count >>> count >>> count := by
        simp only [unsmear, smear, UInt64.shiftRight_xor, xor_xor_xor]
      _ = word := by rw [shiftRight_thrice far within, UInt64.xor_zero]
  · calc smear count (unsmear count word)
      _ = word ^^^ word >>> count >>> count >>> count := by
        simp only [unsmear, smear, UInt64.shiftRight_xor]
        rw [UInt64.xor_assoc word, xor_xor_xor]
      _ = word := by rw [shiftRight_thrice far within, UInt64.xor_zero]

/-- A multiplication is undone by the multiplication with an inverse. -/
theorem bijective_mul
    {factor inverse : UInt64}
    (inverts : factor * inverse = 1) :
    Function.Bijective (· * factor) := by
  refine Function.bijective_iff_has_inverse.mpr ⟨(· * inverse), fun word => ?_, fun word => ?_⟩
  · show word * factor * inverse = word
    rw [UInt64.mul_assoc, inverts, UInt64.mul_one]
  · show word * inverse * factor = word
    rw [UInt64.mul_assoc, UInt64.mul_comm inverse, inverts, UInt64.mul_one]

theorem bijective_add (number : UInt64) : Function.Bijective (· + number) :=
  Function.bijective_iff_has_inverse.mpr
    ⟨(· - number), fun word => UInt64.add_sub_cancel word number,
      fun word => UInt64.sub_add_cancel word number⟩

theorem bijective_xor (mask : UInt64) : Function.Bijective (mask ^^^ ·) :=
  Function.Involutive.bijective fun word => by
    rw [← UInt64.xor_assoc, UInt64.xor_self, UInt64.zero_xor]

theorem bijective_mix : Function.Bijective mix := by
  -- Both factors are odd, so each has an inverse among the words.
  have first : (0xbf58476d1ce4e5b9 : UInt64) * 0x96de1b173f119089 = 1 := by decide
  have second : (0x94d049bb133111eb : UInt64) * 0x319642b2d24d8ec3 = 1 := by decide
  rw [mix_eq]
  exact (bijective_smear (by decide) (by decide)).comp <| (bijective_mul second).comp <|
    (bijective_smear (by decide) (by decide)).comp <| (bijective_mul first).comp <|
    (bijective_smear (by decide) (by decide)).comp (bijective_add _)

/-! ## Words and seeds -/

theorem bijective_word (seed : UInt64) : Function.Bijective (word seed) :=
  bijective_mix.comp (bijective_xor seed)

theorem word_seed_inj {seed other value : UInt64} :
    word seed value = word other value ↔ seed = other :=
  bijective_mix.injective.eq_iff.trans (UInt64.xor_left_inj value)

/-- The two halves of what the seed of a level is mixed from are the level. -/
theorem toNat_doubled (level : UInt32) :
    (level.toUInt64 <<< 32 ||| level.toUInt64).toNat = level.toNat * UInt32.size + level.toNat := by
  have small := level.toNat_lt
  have shifted : (level.toUInt64 <<< 32).toNat = level.toNat <<< 32 := by
    have count : (32 : UInt64).toNat % 64 = 32 := rfl
    rw [UInt64.toNat_shiftLeft, UInt32.toNat_toUInt64, count, Nat.shiftLeft_eq]
    exact Nat.mod_eq_of_lt (by omega)
  rw [UInt64.toNat_or, shifted, UInt32.toNat_toUInt64, ← Nat.shiftLeft_add_eq_or_of_lt small,
    Nat.shiftLeft_eq]

theorem injective_partitionSeed : Function.Injective partitionSeed := by
  intro level other same
  have doubled := (bijective_mix.comp (bijective_xor _)).injective same
  have numbers := congrArg UInt64.toNat doubled
  rw [toNat_doubled, toNat_doubled] at numbers
  exact UInt32.toNat_inj.mp (by simp only [UInt32.size] at numbers; omega)

end Hash

/-! ## Keys and levels -/

/-- Under two seeds a key has two hashes: whatever the key is, its hash is that of some word. -/
theorem hashKey_seed_inj {seed other : UInt64} {key : Option Key} :
    hashKey seed key = hashKey other key ↔ seed = other := by
  rcases key with _ | value | value
  · exact Hash.word_seed_inj
  · exact Hash.word_seed_inj
  · exact Hash.word_seed_inj

theorem hashKey_int_inj {seed : UInt64} {value other : Int64} :
    hashKey seed (some (.int value)) = hashKey seed (some (.int other)) ↔ value = other :=
  (Hash.bijective_word seed).injective.eq_iff.trans
    ⟨congrArg Int64.ofUInt64, congrArg Int64.toUInt64⟩

/-- Under each seed hashing takes words to words one by one and leaves none out, so integer keys have the
same hash only if they are the same. No two levels have the same seed, and on two levels of partitioned
input that are not the same every key has two hashes. -/
theorem Hash.distinguishes :
    (∀ seed, Function.Bijective (word seed)) ∧
      (∀ seed, Function.Injective fun value => hashKey seed (some (.int value))) ∧
      Function.Injective partitionSeed ∧
      ∀ (input : Partitioned) (key : Option Key),
        Set.InjOn (fun level => hashKey (input.directory level).seed key) {level | level < UInt32.size} := by
  refine ⟨bijective_word, fun seed value other same => hashKey_int_inj.mp same, injective_partitionSeed,
    fun input key level inside other alsoInside same => ?_⟩
  have levels := injective_partitionSeed (hashKey_seed_inj.mp same)
  have numbers := congrArg UInt32.toNat levels
  exact (UInt32.toNat_ofNat_of_lt' inside).symm.trans (numbers.trans (UInt32.toNat_ofNat_of_lt' alsoInside))

end Spillway
