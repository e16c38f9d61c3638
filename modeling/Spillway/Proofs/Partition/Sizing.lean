import Mathlib.Algebra.Order.Floor.Semifield
import Mathlib.Data.Rat.Floor
import Mathlib.Order.Bounds.Basic
import Spillway.Operator.Params

/-!
# The least fan-out

A fan-out is found by doubling, so what is found is the least fan-out that is not too small, or the largest
one if all of them are. For an estimated size and a limit, that is the least fan-out whose share, rounded
up, fits the limit, and without one of them the least that reaches the configured count.
-/

namespace Spillway
namespace FanOut

/-! ## Doubling -/

/-- No fan-out lies between another one and its double. -/
theorem double_le_of_lt
    {count fanOut : Nat}
    (valid : Valid count)
    (alsoValid : Valid fanOut)
    (less : count < fanOut) :
    count * 2 ≤ fanOut :=
  (by decide : ∀ count ∈ all, ∀ fanOut ∈ all, count < fanOut → count * 2 ≤ fanOut)
    count valid fanOut alsoValid less

theorem le_max {fanOut : Nat} (valid : Valid fanOut) : fanOut ≤ max :=
  (valid_iff.mp valid).2.1

theorem two_le {fanOut : Nat} (valid : Valid fanOut) : 2 ≤ fanOut :=
  (valid_iff.mp valid).1

/-- Doubling passes over no fan-out that is not too small. -/
theorem doubled_le
    {tooSmall : Nat → Bool}
    {count fanOut : Nat}
    {positive : 0 < count}
    (valid : Valid count)
    (alsoValid : Valid fanOut)
    (least : count ≤ fanOut)
    (enough : tooSmall fanOut = false) :
    doubled tooSmall count positive ≤ fanOut := by
  fun_induction doubled with
  | case1 count positive more inductionHypothesis =>
    have other : count ≠ fanOut := by
      rintro rfl
      exact Bool.false_ne_true (enough.symm.trans more.2)
    have twice := double_le_of_lt valid alsoValid (Nat.lt_of_le_of_ne least other)
    exact inductionHypothesis
      ((by decide : ∀ fanOut ∈ all, fanOut < max → Valid (fanOut * 2)) count valid more.1) twice
  | case2 count positive stays => exact least

/-- Doubling ends at what is not too small, or at the largest fan-out. -/
theorem doubled_enough
    {tooSmall : Nat → Bool}
    {count : Nat}
    {positive : 0 < count}
    (short : doubled tooSmall count positive < max) :
    tooSmall (doubled tooSmall count positive) = false := by
  fun_induction doubled with
  | case1 count positive more inductionHypothesis => exact inductionHypothesis short
  | case2 count positive stays => exact Bool.eq_false_iff.mpr fun too => stays ⟨short, too⟩

/-- Doubling from two ends at the least fan-out that is not too small. -/
theorem isLeast_doubled
    {tooSmall : Nat → Bool}
    (nonempty : ∃ fanOut, Valid fanOut ∧ tooSmall fanOut = false) :
    IsLeast {fanOut | Valid fanOut ∧ tooSmall fanOut = false} (doubled tooSmall 2 Nat.two_pos) := by
  have least : ∀ fanOut, Valid fanOut → tooSmall fanOut = false →
      doubled tooSmall 2 Nat.two_pos ≤ fanOut :=
    fun fanOut valid enough => doubled_le (by decide) valid (two_le valid) enough
  refine ⟨⟨valid_doubled (by decide), ?_⟩, fun fanOut inside => least fanOut inside.1 inside.2⟩
  obtain ⟨fanOut, valid, enough⟩ := nonempty
  rcases Nat.lt_or_ge (doubled tooSmall 2 Nat.two_pos) max with below | full
  · exact doubled_enough below
  · have same : doubled tooSmall 2 Nat.two_pos = fanOut :=
      Nat.le_antisymm (least fanOut valid enough) ((le_max valid).trans full)
    rw [same]
    exact enough

/-- Doubling ends at the largest fan-out if all of them are too small. -/
theorem doubled_eq_max
    {tooSmall : Nat → Bool}
    (short : ∀ fanOut, Valid fanOut → tooSmall fanOut = true) :
    doubled tooSmall 2 Nat.two_pos = max := by
  have valid : Valid (doubled tooSmall 2 Nat.two_pos) := valid_doubled (by decide)
  rcases Nat.lt_or_ge (doubled tooSmall 2 Nat.two_pos) max with below | full
  · exact absurd ((short _ valid).symm.trans (doubled_enough below)) Bool.false_ne_true.symm
  · exact Nat.le_antisymm (le_max valid) full

/-! ## Shares and configured counts -/

/-- A share is the part of one bucket, rounded up. -/
theorem share_eq
    (bytes : Nat)
    {count : Nat}
    (positive : 0 < count) :
    share bytes count = ⌈(bytes / count : ℚ)⌉₊ := by
  have fits : ∀ limit, share bytes count ≤ limit ↔ ⌈(bytes / count : ℚ)⌉₊ ≤ limit := by
    intro limit
    rw [Nat.ceil_le, div_le_iff₀ (by exact_mod_cast positive), share,
      Nat.div_le_iff_le_mul_add_pred positive]
    constructor
    · intro within
      exact_mod_cast (by rw [Nat.mul_comm]; omega : bytes ≤ limit * count)
    · intro within
      have product : bytes ≤ limit * count := by exact_mod_cast within
      rw [Nat.mul_comm] at product
      omega
  exact Nat.le_antisymm ((fits _).mpr le_rfl) ((fits _).mp le_rfl)

/-- The fan-outs of which one share of an estimated size fits a limit. -/
def Fitting (limit estimated : Nat) : Set Nat :=
  {fanOut | Valid fanOut ∧ ⌈(estimated / fanOut : ℚ)⌉₊ ≤ limit}

/-- The fan-outs that are not below a configured count moved into the range from two to 256. -/
def Reaching (configured : Nat) : Set Nat :=
  {fanOut | Valid fanOut ∧ Max.max 2 (min configured 256) ≤ fanOut}

theorem fitting_eq (limit estimated : Nat) :
    Fitting limit estimated =
      {fanOut | Valid fanOut ∧ decide (limit < share estimated fanOut) = false} := by
  ext fanOut
  refine and_congr_right fun valid => ?_
  rw [decide_eq_false_iff_not, Nat.not_lt, share_eq estimated (pos_of_valid valid)]

theorem reaching_eq (configured : Nat) :
    Reaching configured =
      {fanOut | Valid fanOut ∧ decide (fanOut < min configured max) = false} := by
  ext fanOut
  refine and_congr_right fun valid => ?_
  rw [decide_eq_false_iff_not, Nat.not_lt, Nat.max_le]
  exact and_iff_right (two_le valid)

theorem isLeast_forBudget
    {limit estimated : Nat}
    (configured : Nat)
    (limited : 0 < limit)
    (known : 0 < estimated)
    (nonempty : (Fitting limit estimated).Nonempty) :
    IsLeast (Fitting limit estimated) (forBudget limit estimated configured) := by
  rw [fitting_eq] at nonempty ⊢
  rw [forBudget, if_neg (by omega)]
  exact isLeast_doubled nonempty

theorem forBudget_eq_max
    {limit estimated : Nat}
    (configured : Nat)
    (limited : 0 < limit)
    (known : 0 < estimated)
    (empty : Fitting limit estimated = ∅) :
    forBudget limit estimated configured = max := by
  rw [fitting_eq] at empty
  rw [forBudget, if_neg (by omega)]
  refine doubled_eq_max fun fanOut valid => Bool.of_not_eq_false fun enough => ?_
  exact Set.eq_empty_iff_forall_notMem.mp empty fanOut ⟨valid, enough⟩

theorem isLeast_forBudget_of_unknown
    {limit estimated : Nat}
    (configured : Nat)
    (unknown : limit = 0 ∨ estimated = 0) :
    IsLeast (Reaching configured) (forBudget limit estimated configured) := by
  rw [reaching_eq, forBudget, if_pos unknown.symm]
  exact isLeast_doubled ⟨max, by decide, decide_eq_false (Nat.not_lt.mpr (Nat.min_le_right _ _))⟩

end FanOut

namespace Params

/-- A sizing with a fan-out that was found for a budget is accepted if its other two numbers are
positive. -/
theorem validate_of_forBudget
    {limit estimated configured : Nat}
    {params : Params}
    (sized : params.partitionCount = FanOut.forBudget limit estimated configured)
    (limited : 0 < params.memLimit)
    (deep : 0 < params.maxDepth) :
    ∃ valid, params.validate = .ok valid := by
  have valid : FanOut.Valid params.partitionCount :=
    sized ▸ FanOut.valid_forBudget limit estimated configured
  rw [validate, dif_pos valid, dif_pos deep, dif_pos limited]
  exact ⟨_, rfl⟩

/-- For every limit, estimate and configured count the fan-out is a power of two from two to 256, so a
sizing with it is accepted. It is the least fan-out whose rounded share fits the limit, or 256 if no share
does, and without a limit or an estimate the least that is not below the configured count. -/
theorem sizes (limit estimated configured : Nat) :
    (FanOut.forBudget limit estimated configured).isPowerOfTwo ∧
      2 ≤ FanOut.forBudget limit estimated configured ∧
      FanOut.forBudget limit estimated configured ≤ 256 ∧
      (∀ params : Params, params.partitionCount = FanOut.forBudget limit estimated configured →
        0 < params.memLimit → 0 < params.maxDepth → ∃ valid, params.validate = .ok valid) ∧
      (0 < limit → 0 < estimated →
        ((FanOut.Fitting limit estimated).Nonempty →
          IsLeast (FanOut.Fitting limit estimated) (FanOut.forBudget limit estimated configured)) ∧
        (FanOut.Fitting limit estimated = ∅ → FanOut.forBudget limit estimated configured = 256)) ∧
      (limit = 0 ∨ estimated = 0 →
        IsLeast (FanOut.Reaching configured) (FanOut.forBudget limit estimated configured)) := by
  obtain ⟨least, greatest, power⟩ :=
    FanOut.valid_iff.mp (FanOut.valid_forBudget limit estimated configured)
  refine ⟨power, least, greatest, fun params => validate_of_forBudget, fun limited known => ?_,
    FanOut.isLeast_forBudget_of_unknown configured⟩
  exact ⟨FanOut.isLeast_forBudget configured limited known,
    FanOut.forBudget_eq_max configured limited known⟩

/-- For a limit of 2 ^ 57 and the largest estimate of 64 bits the fan-out is 128, no fan-out gets the shares
of a mebibyte down to one byte, and a configured count of 12 is moved up to 16. -/
theorem sizes_samples :
    FanOut.forBudget (2 ^ 57) (2 ^ 64 - 1) 0 = 128 ∧
      IsLeast (FanOut.Fitting (2 ^ 57) (2 ^ 64 - 1)) 128 ∧
      (∃ valid, (forEstimate (2 ^ 64 - 1) (2 ^ 57) 0 8).validate = .ok valid) ∧
      FanOut.forBudget 1 (2 ^ 20) 16 = 256 ∧
      IsLeast (FanOut.Reaching 12) 16 := by
  have middle : FanOut.forBudget (2 ^ 57) (2 ^ 64 - 1) 0 = 128 := by decide +kernel
  have moved : FanOut.forBudget 100 0 12 = 16 := by decide +kernel
  obtain ⟨-, -, -, accepted, budget, -⟩ := sizes (2 ^ 57) (2 ^ 64 - 1) 0
  obtain ⟨-, -, -, -, large, -⟩ := sizes 1 (2 ^ 20) 16
  obtain ⟨-, -, -, -, -, unknown⟩ := sizes 100 0 12
  have fits : (FanOut.Fitting (2 ^ 57) (2 ^ 64 - 1)).Nonempty := by
    rw [FanOut.fitting_eq]
    exact ⟨256, by decide, by decide⟩
  have empty : FanOut.Fitting 1 (2 ^ 20) = ∅ := by
    rw [FanOut.fitting_eq]
    exact Set.eq_empty_iff_forall_notMem.mpr fun fanOut inside =>
      (by decide : ∀ fanOut ∈ FanOut.all, decide (1 < FanOut.share (2 ^ 20) fanOut) ≠ false)
        fanOut inside.1 inside.2
  refine ⟨middle, middle ▸ (budget (by decide) (by decide)).1 fits,
    accepted (forEstimate (2 ^ 64 - 1) (2 ^ 57) 0 8) rfl (by decide) (by decide),
    (large (by decide) (by decide)).2 empty, moved ▸ unknown (Or.inr rfl)⟩

end Params
end Spillway
