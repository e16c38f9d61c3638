import Mathlib.Data.List.Forall2
import Spillway.Status

/-!
# Steps that succeed

A step succeeds from a state when its outcome is a value. The lemmas here read off what every way
of building steps does when it succeeds, so that the effect of a composed step is found by taking
the steps that it is made of one after the other.
-/

namespace Spillway

/-! ## Results computed beforehand -/

section Results

variable {ε ε' α β : Type}

/-- Two results in a row are a value exactly when both are. -/
@[simp] theorem bind_eq_ok_iff
    {result : Except ε α}
    {next : α → Except ε β}
    {value : β} :
    result >>= next = .ok value ↔ ∃ middle, result = .ok middle ∧ next middle = .ok value := by
  cases result <;> simp [bind, Except.bind]

@[simp] theorem pure_eq_ok_iff
    {result value : α} :
    (pure result : Except ε α) = .ok value ↔ result = value := by
  simp [pure, Except.pure]

@[simp] theorem throw_ne_ok
    {fault : ε}
    {value : α} :
    ¬ (throw fault : Except ε α) = .ok value := by
  simp [throw, throwThe, MonadExceptOf.throw]

@[simp] theorem mapError_eq_ok_iff
    {change : ε → ε'}
    {result : Except ε α}
    {value : α} :
    result.mapError change = .ok value ↔ result = .ok value := by
  cases result <;> simp [Except.mapError]

theorem map_eq_ok_iff
    {function : α → β}
    {result : Except ε α}
    {value : β} :
    result.map function = .ok value ↔ ∃ middle, result = .ok middle ∧ function middle = value := by
  cases result <;> simp [Except.map]

/-- Results computed for the values of a list one after the other. -/
theorem forall₂_of_mapM
    {function : α → Except ε β}
    {values : List α}
    {results : List β}
    (computed : values.mapM function = .ok results) :
    List.Forall₂ (fun value result => function value = .ok result) values results := by
  induction values generalizing results with
  | nil =>
      rw [List.mapM_nil, pure_eq_ok_iff] at computed
      subst computed
      exact .nil
  | cons value values inductionHypothesis =>
      simp only [List.mapM_cons, bind_eq_ok_iff, pure_eq_ok_iff] at computed
      obtain ⟨first, head, others, tail, rfl⟩ := computed
      exact .cons head (inductionHypothesis tail)

/-- If every one of them can be computed, so can all. -/
theorem exists_mapM_eq_ok
    {function : α → Except ε β}
    {values : List α}
    (each : ∀ value ∈ values, ∃ result, function value = .ok result) :
    ∃ results, values.mapM function = .ok results := by
  induction values with
  | nil => exact ⟨[], rfl⟩
  | cons value values inductionHypothesis =>
      obtain ⟨⟨first, head⟩, tail⟩ := List.forall_mem_cons.mp each
      obtain ⟨others, computed⟩ := inductionHypothesis tail
      exact ⟨first :: others, by rw [List.mapM_cons, head, computed]; rfl⟩

/-- Checks are passed together exactly if each of them is. -/
theorem forM_eq_ok_iff
    {check : α → Except ε Unit}
    {values : List α} :
    values.forM check = .ok () ↔ ∀ value ∈ values, check value = .ok () := by
  induction values with
  | nil => exact iff_of_true rfl fun _ => (absurd · List.not_mem_nil)
  | cons value values inductionHypothesis =>
      rw [List.forM, bind_eq_ok_iff, List.forall_mem_cons, ← inductionHypothesis]
      exact ⟨fun ⟨_, head, tail⟩ => ⟨head, tail⟩, fun ⟨head, tail⟩ => ⟨_, head, tail⟩⟩

/-- What corresponds to something on the right corresponds to something on the left. -/
theorem exists_left_of_forall₂
    {related : α → β → Prop}
    {values : List α}
    {results : List β}
    (pairs : List.Forall₂ related values results)
    {result : β}
    (member : result ∈ results) :
    ∃ value ∈ values, related value result := by
  induction pairs with
  | nil => simp at member
  | cons head tail inductionHypothesis =>
      cases member with
      | head => exact ⟨_, List.mem_cons_self, head⟩
      | tail _ later =>
          obtain ⟨value, inside, holds⟩ := inductionHypothesis later
          exact ⟨value, List.mem_cons_of_mem _ inside, holds⟩

/-- The value of a result that is one. -/
def valueOf : (result : Except ε α) → result.isOk = true → α
  | .ok value, _ => value

theorem eq_ok_valueOf
    (result : Except ε α)
    (isOk : result.isOk = true) :
    result = .ok (valueOf result isOk) := by
  cases result with
  | ok value => rfl
  | error fault => cases isOk

end Results

/-! ## Steps -/

namespace Step

variable {σ τ α β : Type}

/-- The step yields the value from the state before and leaves the state after it behind. -/
def Succeeds
    (step : Step σ α)
    (before : σ)
    (value : α)
    (after : σ) : Prop :=
  step.outcome before = (.ok value, after)

/-- A step succeeds from a given state if it is found to have a value there. -/
theorem succeeds_of_isOk
    (step : Step σ α)
    (before : σ)
    (isOk : (step.outcome before).1.isOk = true) :
    step.Succeeds before (valueOf _ isOk) (step.outcome before).2 :=
  Prod.ext (eq_ok_valueOf _ isOk) rfl

@[simp] theorem succeeds_pure
    (result value : α)
    (before after : σ) :
    (pure result : Step σ α).Succeeds before value after ↔
      result = value ∧ before = after := by
  show (Except.ok result, before) = (Except.ok value, after) ↔ _
  simp

/-- The second of two steps starts where the first one ends, and a failure of the first is the
failure of both. -/
theorem outcome_bind
    (first : Step σ α)
    (second : α → Step σ β)
    (before : σ) :
    (first >>= second).outcome before =
      match first.outcome before with
      | (.ok middle, between) => (second middle).outcome between
      | (.error status, between) => (.error status, between) := by
  unfold outcome ExceptT.run StateT.run
  simp only [bind, ExceptT.bind, ExceptT.mk, StateT.bind, ExceptT.bindCont]
  cases first before with
  | mk result between => cases result <;> rfl

/-- A sequence of two steps succeeds exactly when both of them do, one after the other. -/
@[simp] theorem succeeds_bind
    (first : Step σ α)
    (second : α → Step σ β)
    (before after : σ)
    (value : β) :
    (first >>= second).Succeeds before value after ↔
      ∃ middle between, first.Succeeds before middle between ∧
        (second middle).Succeeds between value after := by
  unfold Succeeds
  rw [outcome_bind]
  cases first.outcome before with
  | mk result between =>
      cases result with
      | ok middle =>
          constructor
          · intro rest
            exact ⟨middle, between, rfl, rest⟩
          · rintro ⟨_, _, same, rest⟩
            cases same
            exact rest
      | error status => simp

@[simp] theorem succeeds_map
    (function : α → β)
    (step : Step σ α)
    (before after : σ)
    (value : β) :
    (function <$> step).Succeeds before value after ↔
      ∃ middle, step.Succeeds before middle after ∧ function middle = value := by
  rw [map_eq_pure_bind, succeeds_bind]
  simp

@[simp] theorem succeeds_get
    (value before after : σ) :
    (get : Step σ σ).Succeeds before value after ↔
      before = value ∧ before = after := by
  show (Except.ok before, before) = (Except.ok value, after) ↔ _
  simp

@[simp] theorem succeeds_modify
    (change : σ → σ)
    (value : PUnit)
    (before after : σ) :
    (modify change : Step σ PUnit).Succeeds before value after ↔
      change before = after := by
  show (Except.ok PUnit.unit, change before) = (Except.ok value, after) ↔ _
  simp

@[simp] theorem succeeds_fail
    (status : Status)
    (before after : σ)
    (value : α) :
    ¬ (fail status : Step σ α).Succeeds before value after := by
  simp [Succeeds, outcome_fail]

@[simp] theorem succeeds_ofExcept
    (result : Except Status α)
    (before after : σ)
    (value : α) :
    (ofExcept result).Succeeds before value after ↔
      result = .ok value ∧ before = after := by
  simp [Succeeds, outcome_ofExcept]

@[simp] theorem succeeds_focus
    (view : σ → τ)
    (update : σ → τ → σ)
    (step : Step τ α)
    (before after : σ)
    (value : α) :
    (focus view update step).Succeeds before value after ↔
      ∃ part, step.Succeeds (view before) value part ∧ update before part = after := by
  simp only [Succeeds, outcome_focus, Prod.ext_iff]
  constructor
  · rintro ⟨yields, leaves⟩
    exact ⟨_, ⟨yields, rfl⟩, leaves⟩
  · rintro ⟨part, ⟨yields, same⟩, leaves⟩
    exact ⟨yields, same ▸ leaves⟩

@[simp] theorem succeeds_attempt
    (step : Step σ α)
    (before after : σ)
    (result : Except Status α) :
    step.attempt.Succeeds before result after ↔ step.outcome before = (result, after) := by
  simp [Succeeds, outcome_attempt, Prod.ext_iff]

/-- Rewording failures does not change what succeeds. -/
@[simp] theorem succeeds_mapFailure
    (change : Status → Status)
    (step : Step σ α)
    (before after : σ)
    (value : α) :
    (step.mapFailure change).Succeeds before value after ↔
      step.Succeeds before value after := by
  show ((step.outcome before).1.mapError change, (step.outcome before).2) =
    (Except.ok value, after) ↔ _
  unfold Succeeds
  cases step.outcome before with
  | mk result next => cases result <;> simp [Except.mapError]

/-- A choice between steps by a condition. -/
theorem succeeds_ite
    (condition : Prop)
    [Decidable condition]
    (first second : Step σ α)
    (before after : σ)
    (value : α) :
    (if condition then first else second).Succeeds before value after ↔
      (condition ∧ first.Succeeds before value after) ∨
        (¬ condition ∧ second.Succeeds before value after) := by
  split <;> simp_all

/-- What is reached by every one of a list of steps is reached by all of them, for everything that they
take in one after the other. -/
theorem Succeeds.forM
    {γ : Type}
    {step : α → Step σ Unit}
    {takes : α → List γ}
    {items : List α}
    {done : List γ}
    {before after : σ}
    {value : Unit}
    (succeeds : (items.forM step).Succeeds before value after)
    (Reached : List γ → σ → Prop)
    (reached : Reached done before)
    (passes : ∀ item ∈ items, ∀ done before after,
      Reached done before → (step item).Succeeds before () after →
      Reached (done ++ takes item) after) :
    Reached (done ++ items.flatMap takes) after := by
  induction items generalizing before done with
  | nil =>
      rw [List.forM, succeeds_pure] at succeeds
      obtain ⟨_, rfl⟩ := succeeds
      rw [List.flatMap_nil, List.append_nil]
      exact reached
  | cons item items inductionHypothesis =>
      rw [List.forM, succeeds_bind] at succeeds
      obtain ⟨_, between, first, rest⟩ := succeeds
      have next := passes item List.mem_cons_self done before between reached first
      rw [List.flatMap_cons, ← List.append_assoc]
      exact inductionHypothesis rest next fun other member =>
        passes other (List.mem_cons_of_mem _ member)

end Step
end Spillway
