import Spillway.Proofs.Step

/-!
# How steps end

A step ends well if what it leaves behind is as it has to be, whether it succeeds or fails: one
condition is put on the value and the state of a success, another one on the status and the state of a
failure. The conditions are carried backwards through the ways of building steps.
-/

namespace Spillway
namespace Step

variable {σ τ α β : Type}

/-- From the state before, the step succeeds as the first condition says or fails as the second one
says. -/
def Ends
    (step : Step σ α)
    (before : σ)
    (ok : α → σ → Prop)
    (failed : Status → σ → Prop) : Prop :=
  match step.outcome before with
  | (.ok value, after) => ok value after
  | (.error status, after) => failed status after

variable {step : Step σ α} {before after : σ} {ok weaker : α → σ → Prop}
  {failed weakerFailed : Status → σ → Prop}

theorem Ends.mono
    (ends : step.Ends before ok failed)
    (onValue : ∀ value after, ok value after → weaker value after)
    (onFailure : ∀ status after, failed status after → weakerFailed status after) :
    step.Ends before weaker weakerFailed := by
  unfold Ends at ends ⊢
  split <;> simp_all

/-- Conditions that hold of whatever comes out say nothing about the step. -/
theorem Ends.of_forall
    (onValue : ∀ value after, ok value after)
    (onFailure : ∀ status after, failed status after) :
    step.Ends before ok failed := by
  unfold Ends
  split
  · exact onValue _ _
  · exact onFailure _ _

theorem Ends.of_ok
    {value : α}
    (outcome : step.outcome before = (.ok value, after))
    (holds : ok value after) :
    step.Ends before ok failed := by
  unfold Ends
  rwa [outcome]

theorem Ends.of_error
    {status : Status}
    (outcome : step.outcome before = (.error status, after))
    (holds : failed status after) :
    step.Ends before ok failed := by
  unfold Ends
  rwa [outcome]

/-- A step ends as its outcome says. -/
theorem ends_outcome
    (step : Step σ α)
    (before : σ) :
    step.Ends before (fun value after => step.Succeeds before value after)
      fun status after => step.outcome before = (.error status, after) := by
  unfold Ends Succeeds
  split <;> assumption

/-- A step has an outcome exactly if it ends with it. -/
theorem outcome_eq_iff_ends {outcome : Except Status α × σ} :
    step.outcome before = outcome ↔
      step.Ends before (fun value after => (.ok value, after) = outcome)
        fun status after => (.error status, after) = outcome := by
  unfold Ends
  split
  · next ended => rw [ended]
  · next ended => rw [ended]

theorem Ends.of_succeeds
    {value : α}
    (ends : step.Ends before ok failed)
    (succeeds : step.Succeeds before value after) :
    ok value after := by
  unfold Ends at ends
  rwa [succeeds] at ends

theorem Ends.of_fails
    {status : Status}
    (ends : step.Ends before ok failed)
    (fails : step.outcome before = (.error status, after)) :
    failed status after := by
  unfold Ends at ends
  rwa [fails] at ends

/-- A step that cannot succeed fails. -/
theorem Ends.exists_fails (ends : step.Ends before (fun _ _ => False) failed) :
    ∃ status after, step.outcome before = (.error status, after) ∧ failed status after := by
  unfold Ends at ends
  cases outcome : step.outcome before with
  | mk result after =>
      rw [outcome] at ends
      cases result with
      | ok value => exact ends.elim
      | error status => exact ⟨status, after, rfl, ends⟩

/-- Two things that are known of how a step ends hold together. -/
theorem Ends.and
    {more : α → σ → Prop}
    {moreFailed : Status → σ → Prop}
    (ends : step.Ends before ok failed)
    (another : step.Ends before more moreFailed) :
    step.Ends before (fun value after => ok value after ∧ more value after)
      fun status after => failed status after ∧ moreFailed status after := by
  unfold Ends at ends another ⊢
  split <;> simp_all

/-- What is known of successes holds of the value that the step yields. -/
theorem Ends.and_succeeds
    (ends : step.Ends before ok failed) :
    step.Ends before (fun value after => step.Succeeds before value after ∧ ok value after) failed := by
  unfold Ends at ends ⊢
  unfold Succeeds
  split <;> simp_all

/-- A condition that does not look at the value or the status holds of the state left behind. -/
theorem Ends.state
    {condition : σ → Prop}
    (ends : step.Ends before (fun _ => condition) (fun _ => condition)) :
    condition (step.outcome before).2 := by
  unfold Ends at ends
  split at ends <;> simp_all

theorem ends_pure (value : α) : (pure value : Step σ α).Ends before ok failed ↔ ok value before :=
  Iff.rfl

theorem ends_bind
    (first : Step σ β)
    (second : β → Step σ α) :
    (first >>= second).Ends before ok failed ↔
      first.Ends before (fun middle between => (second middle).Ends between ok failed) failed := by
  unfold Ends
  rw [outcome_bind]
  cases first.outcome before with
  | mk result between => cases result <;> rfl

theorem ends_get
    {ok : σ → σ → Prop} :
    (get : Step σ σ).Ends before ok failed ↔ ok before before :=
  Iff.rfl

theorem ends_set
    {ok : PUnit → σ → Prop}
    (next : σ) :
    (set next : Step σ PUnit).Ends before ok failed ↔ ok ⟨⟩ next :=
  Iff.rfl

theorem ends_modify
    {ok : PUnit → σ → Prop}
    (change : σ → σ) :
    (modify change : Step σ PUnit).Ends before ok failed ↔ ok ⟨⟩ (change before) :=
  Iff.rfl

theorem ends_fail (status : Status) :
    (fail status : Step σ α).Ends before ok failed ↔ failed status before :=
  Iff.rfl

theorem ends_ofExcept (result : Except Status α) :
    (ofExcept result).Ends before ok failed ↔
      (∀ value, result = .ok value → ok value before) ∧
        ∀ status, result = .error status → failed status before := by
  unfold Ends
  rw [outcome_ofExcept]
  cases result <;> simp

theorem ends_focus
    (view : σ → τ)
    (update : σ → τ → σ)
    (part : Step τ α) :
    (focus view update part).Ends before ok failed ↔
      part.Ends (view before) (fun value after => ok value (update before after))
        fun status after => failed status (update before after) := by
  unfold Ends
  rw [outcome_focus]
  cases part.outcome (view before) with
  | mk result after => cases result <;> rfl

theorem ends_attempt
    {ok : Except Status α → σ → Prop}
    (step : Step σ α) :
    step.attempt.Ends before ok failed ↔
      step.Ends before (fun value => ok (.ok value)) fun status => ok (.error status) := by
  unfold Ends
  rw [outcome_attempt]
  cases step.outcome before with
  | mk result after => cases result <;> rfl

theorem ends_mapFailure
    (change : Status → Status)
    (step : Step σ α) :
    (step.mapFailure change).Ends before ok failed ↔
      step.Ends before ok fun status => failed (change status) := by
  have outcome : (step.mapFailure change).outcome before =
      ((step.outcome before).1.mapError change, (step.outcome before).2) := rfl
  unfold Ends
  rw [outcome]
  cases step.outcome before with
  | mk result after => cases result <;> rfl

/-- A choice between steps by a condition. -/
theorem ends_ite
    (condition : Prop)
    [Decidable condition]
    (first second : Step σ α) :
    (if condition then first else second).Ends before ok failed ↔
      (condition → first.Ends before ok failed) ∧ (¬ condition → second.Ends before ok failed) := by
  split <;> simp_all

/-- What every one of a list of steps leaves in place is left in place by all of them. -/
theorem ends_forM
    {step : β → Step σ Unit}
    {items : List β}
    {Invariant : σ → Prop}
    (invariant : Invariant before)
    (keeps : ∀ item ∈ items, ∀ before, Invariant before →
      (step item).Ends before (fun _ => Invariant) fun _ => Invariant) :
    (items.forM step).Ends before (fun _ => Invariant) fun _ => Invariant := by
  induction items generalizing before with
  | nil => exact invariant
  | cons item items inductionHypothesis =>
      rw [List.forM, ends_bind]
      refine (keeps item List.mem_cons_self before invariant).mono (fun _ between kept => ?_)
        fun _ _ kept => kept
      exact inductionHypothesis kept fun other member =>
        keeps other (List.mem_cons_of_mem item member)

/-- What every one of a list of steps leaves in place is left in place by all of them, when their values
are collected. -/
theorem ends_mapM
    {step : β → Step σ α}
    {items : List β}
    {Invariant : σ → Prop}
    (invariant : Invariant before)
    (keeps : ∀ item ∈ items, ∀ before, Invariant before →
      (step item).Ends before (fun _ => Invariant) fun _ => Invariant) :
    (items.mapM step).Ends before (fun _ => Invariant) fun _ => Invariant := by
  induction items generalizing before with
  | nil => exact invariant
  | cons item items inductionHypothesis =>
      rw [List.mapM_cons, ends_bind]
      refine (keeps item List.mem_cons_self before invariant).mono (fun _ between kept => ?_)
        fun _ _ kept => kept
      rw [ends_bind]
      exact (inductionHypothesis kept fun other member =>
        keeps other (List.mem_cons_of_mem item member)).mono (fun _ _ kept => kept) fun _ _ kept => kept

/-! ## Steps that cannot fail -/

/-- The step succeeds from the state before. -/
def Serves (step : Step σ α) (before : σ) : Prop :=
  step.Ends before (fun _ _ => True) fun _ _ => False

theorem Serves.exists_succeeds (serves : step.Serves before) :
    ∃ value after, step.Succeeds before value after := by
  unfold Serves Ends at serves
  unfold Succeeds
  cases outcome : step.outcome before with
  | mk result after =>
      rw [outcome] at serves
      cases result with
      | ok value => exact ⟨value, after, rfl⟩
      | error status => exact serves.elim

theorem Succeeds.serves
    {value : α}
    (succeeds : step.Succeeds before value after) :
    step.Serves before :=
  .of_ok succeeds trivial

/-- What is known of the successes of a step that cannot fail is known of how it ends. -/
theorem Serves.ends
    (serves : step.Serves before)
    (ends : step.Ends before ok failed) :
    step.Ends before ok fun _ _ => False :=
  (serves.and ends).mono (fun _ _ both => both.2) fun _ _ both => both.1

theorem Ends.serves (ends : step.Ends before ok fun _ _ => False) : step.Serves before :=
  ends.mono (fun _ _ _ => trivial) fun _ _ => id

/-- A step that cannot fail is followed by one that cannot fail where it succeeds. -/
theorem Serves.bind
    {first : Step σ β}
    {second : β → Step σ α}
    (serves : first.Serves before)
    (next : ∀ value between, first.Succeeds before value between → (second value).Serves between) :
    (first >>= second).Serves before := by
  unfold Serves
  rw [ends_bind]
  exact serves.and_succeeds.mono (fun value between succeeds => next value between succeeds.1)
    fun _ _ => id

/-! ## What steps leave in place -/

/-- Whether it succeeds or fails, the step leaves in place what is in place before it. -/
def Keeps (step : Step σ α) (Invariant : σ → Prop) : Prop :=
  ∀ before, Invariant before → step.Ends before (fun _ => Invariant) fun _ => Invariant

variable {Invariant : σ → Prop}

theorem Keeps.outcome
    (keeps : step.Keeps Invariant)
    (invariant : Invariant before) :
    Invariant (step.outcome before).2 :=
  (keeps before invariant).state

theorem keeps_pure (value : α) : (pure value : Step σ α).Keeps Invariant :=
  fun _ invariant => invariant

theorem keeps_get : (get : Step σ σ).Keeps Invariant :=
  fun _ invariant => invariant

theorem keeps_fail (status : Status) : (fail status : Step σ α).Keeps Invariant :=
  fun _ invariant => invariant

/-- Nothing comes after a failure. -/
theorem keeps_fail_bind (status : Status) (next : β → Step σ α) :
    ((fail status : Step σ β) >>= next).Keeps Invariant :=
  fun _ invariant => invariant

theorem keeps_ofExcept (result : Except Status α) : (ofExcept result : Step σ α).Keeps Invariant :=
  fun _ invariant => (ends_ofExcept result).mpr ⟨fun _ _ => invariant, fun _ _ => invariant⟩

theorem keeps_modify
    {change : σ → σ}
    (kept : ∀ state, Invariant state → Invariant (change state)) :
    (modify change : Step σ PUnit).Keeps Invariant :=
  kept

theorem Keeps.bind
    {first : Step σ β}
    {second : β → Step σ α}
    (keeps : first.Keeps Invariant)
    (next : ∀ value, (second value).Keeps Invariant) :
    (first >>= second).Keeps Invariant := by
  intro before invariant
  rw [ends_bind]
  exact (keeps before invariant).mono (fun value between kept => next value between kept)
    fun _ _ kept => kept

theorem Keeps.focus
    {view : σ → τ}
    {update : σ → τ → σ}
    {part : Step τ α}
    {Part : τ → Prop}
    (keeps : part.Keeps Part)
    (viewed : ∀ whole after, view (update whole after) = after) :
    (focus view update part).Keeps fun whole => Part (view whole) := by
  intro before invariant
  rw [ends_focus]
  refine (keeps (view before) invariant).mono (fun _ _ kept => ?_) fun _ _ kept => ?_ <;>
    rwa [viewed]

theorem Keeps.forM
    {step : β → Step σ Unit}
    {items : List β}
    (keeps : ∀ item ∈ items, (step item).Keeps Invariant) :
    (items.forM step).Keeps Invariant :=
  fun _ invariant => ends_forM invariant keeps

theorem Keeps.mapM
    {step : β → Step σ α}
    {items : List β}
    (keeps : ∀ item ∈ items, (step item).Keeps Invariant) :
    (items.mapM step).Keeps Invariant :=
  fun _ invariant => ends_mapM invariant keeps

/-- The step cannot fail where something is in place, and leaves it in place. -/
def Upholds (step : Step σ α) (Invariant : σ → Prop) : Prop :=
  ∀ before, Invariant before → step.Ends before (fun _ => Invariant) fun _ _ => False

theorem upholds_pure (value : α) : (pure value : Step σ α).Upholds Invariant :=
  fun _ invariant => invariant

theorem Upholds.serves
    (upholds : step.Upholds Invariant)
    (invariant : Invariant before) :
    step.Serves before :=
  (upholds before invariant).serves

theorem Upholds.bind
    {first : Step σ β}
    {second : β → Step σ α}
    (upholds : first.Upholds Invariant)
    (next : ∀ value, (second value).Upholds Invariant) :
    (first >>= second).Upholds Invariant := by
  intro before invariant
  rw [ends_bind]
  exact (upholds before invariant).mono (fun value between kept => next value between kept)
    fun _ _ => id

theorem Upholds.forM
    {step : β → Step σ Unit}
    {items : List β}
    (upholds : ∀ item ∈ items, (step item).Upholds Invariant) :
    (items.forM step).Upholds Invariant := by
  induction items with
  | nil => exact upholds_pure _
  | cons item items inductionHypothesis =>
      exact (upholds item List.mem_cons_self).bind fun _ =>
        inductionHypothesis fun other member => upholds other (List.mem_cons_of_mem item member)

theorem Upholds.mapM
    {step : β → Step σ α}
    {items : List β}
    (upholds : ∀ item ∈ items, (step item).Upholds Invariant) :
    (items.mapM step).Upholds Invariant := by
  induction items with
  | nil => exact upholds_pure _
  | cons item items inductionHypothesis =>
      rw [List.mapM_cons]
      exact (upholds item List.mem_cons_self).bind fun _ => (inductionHypothesis fun other member =>
        upholds other (List.mem_cons_of_mem item member)).bind fun _ => upholds_pure _

/-! ## What steps do to the state -/

/-- Relations between the states before and after a step, one if it succeeds and one if it fails, where a
step that does nothing is both, and what a success is followed by is as if it came first. -/
class Composes (relation : Bool → σ → σ → Prop) : Prop where
  refl : ∀ (met : Bool) (state : σ), relation met state state
  trans : ∀ {met : Bool} {first second third : σ},
    relation true first second → relation met second third → relation met first third

/-- The state that the step leaves behind is related to the one before, in one way if it succeeds and in
another one if it fails. -/
def Follows (step : Step σ α) (relation : Bool → σ → σ → Prop) : Prop :=
  ∀ before, step.Ends before (fun _ => relation true before) fun _ => relation false before

/-- The relation between the views of two states. -/
def along (view : τ → σ) (relation : Bool → σ → σ → Prop) : Bool → τ → τ → Prop :=
  fun met before after => relation met (view before) (view after)

section Follows

variable {relation : Bool → σ → σ → Prop}

theorem Follows.mono
    {weaker : Bool → σ → σ → Prop}
    (follows : step.Follows relation)
    (weakens : ∀ met before after, relation met before after → weaker met before after) :
    step.Follows weaker :=
  fun before => (follows before).mono (fun _ after => weakens true before after)
    fun _ after => weakens false before after

/-- What is in place is left in place if the state changes only in ways that leave it there. -/
theorem Follows.keeps
    {Invariant : σ → Prop}
    (follows : step.Follows relation)
    (kept : ∀ met before after, relation met before after → Invariant before → Invariant after) :
    step.Keeps Invariant :=
  fun before invariant => (follows before).mono (fun _ after related => kept _ _ after related invariant)
    fun _ after related => kept _ _ after related invariant

/-- A step that cannot fail upholds what the changes that it makes leave in place. -/
theorem Follows.upholds
    (follows : step.Follows relation)
    (serves : ∀ before, Invariant before → step.Serves before)
    (kept : ∀ before after, relation true before after → Invariant before → Invariant after) :
    step.Upholds Invariant :=
  fun before invariant => ((serves before invariant).ends (follows before)).mono
    (fun _ after related => kept before after related invariant) fun _ _ => id

theorem follows_modify
    {change : σ → σ}
    (related : ∀ state, relation true state (change state)) :
    (modify change : Step σ PUnit).Follows relation :=
  related

/-- What follows from the state that one is in. -/
theorem follows_get_bind
    {next : σ → Step σ α}
    (follows : ∀ before, (next before).Ends before (fun _ => relation true before)
      fun _ => relation false before) :
    ((get : Step σ σ) >>= next).Follows relation :=
  fun before => (ends_bind _ _).mpr (ends_get.mpr (follows before))

theorem Follows.focus
    {view : τ → σ}
    {update : τ → σ → τ}
    {part : Step σ α}
    (follows : part.Follows relation)
    (viewed : ∀ whole after, view (update whole after) = after) :
    (Step.focus view update part).Follows (along view relation) := by
  intro before
  rw [ends_focus]
  refine (follows (view before)).mono (fun _ _ related => ?_) fun _ _ related => ?_ <;>
    rwa [along, viewed]

variable [Composes relation]

instance (view : τ → σ) : Composes (along view relation) where
  refl met state := Composes.refl met (view state)
  trans one another := by
    unfold along at one another ⊢
    exact Composes.trans one another

theorem follows_pure (value : α) : (pure value : Step σ α).Follows relation :=
  fun before => Composes.refl true before

theorem follows_get : (get : Step σ σ).Follows relation :=
  fun before => Composes.refl true before

theorem follows_fail (status : Status) : (fail status : Step σ α).Follows relation :=
  fun before => Composes.refl false before

theorem follows_fail_bind (status : Status) (next : β → Step σ α) :
    ((fail status : Step σ β) >>= next).Follows relation :=
  fun before => Composes.refl false before

theorem follows_ofExcept (result : Except Status α) : (ofExcept result : Step σ α).Follows relation :=
  fun before => (ends_ofExcept result).mpr
    ⟨fun _ _ => Composes.refl true before, fun _ _ => Composes.refl false before⟩

/-- A step goes on from where the one before it ended. -/
theorem Ends.follow
    {first : Step σ β}
    {second : β → Step σ α}
    (ends : first.Ends before
      (fun value between => (second value).Ends between (fun _ => relation true between)
        (fun _ => relation false between) ∧ relation true before between)
      fun _ => relation false before) :
    (first >>= second).Ends before (fun _ => relation true before) fun _ => relation false before := by
  rw [ends_bind]
  refine ends.mono (fun value between goesOn => ?_) fun _ _ related => related
  obtain ⟨goesOn, related⟩ := goesOn
  exact goesOn.mono (fun _ _ => Composes.trans related) fun _ _ => Composes.trans related

theorem Follows.bind
    {first : Step σ β}
    {second : β → Step σ α}
    (follows : first.Follows relation)
    (next : ∀ value, (second value).Follows relation) :
    (first >>= second).Follows relation :=
  fun before => ((follows before).mono (fun value between related => ⟨next value between, related⟩)
    fun _ _ related => related).follow

theorem Follows.forM
    {step : β → Step σ Unit}
    {items : List β}
    (follows : ∀ item ∈ items, (step item).Follows relation) :
    (items.forM step).Follows relation := by
  induction items with
  | nil => exact follows_pure _
  | cons item items inductionHypothesis =>
      exact (follows item List.mem_cons_self).bind fun _ =>
        inductionHypothesis fun other member => follows other (List.mem_cons_of_mem item member)

theorem Follows.mapM
    {step : β → Step σ α}
    {items : List β}
    (follows : ∀ item ∈ items, (step item).Follows relation) :
    (items.mapM step).Follows relation := by
  induction items with
  | nil => exact follows_pure _
  | cons item items inductionHypothesis =>
      rw [List.mapM_cons]
      exact (follows item List.mem_cons_self).bind fun _ => (inductionHypothesis fun other member =>
        follows other (List.mem_cons_of_mem item member)).bind fun _ => follows_pure _

end Follows

/-! ## What steps that are met leave in place -/

section Bears

/-- What is in place before a step that is met is in place after it. -/
def Bears (Invariant : σ → Prop) (met : Bool) (before after : σ) : Prop :=
  met = true → Invariant before → Invariant after

instance : Composes (Bears Invariant) where
  refl _ _ _ := id
  trans one another met := another met ∘ one rfl

theorem bears_of_ends
    (ends : ∀ before, Invariant before → step.Ends before (fun _ => Invariant) fun _ _ => True) :
    step.Follows (Bears Invariant) := by
  intro before
  by_cases invariant : Invariant before
  · exact (ends before invariant).mono (fun _ _ kept _ _ => kept) fun _ _ _ => nofun
  · exact .of_forall (fun _ _ _ => (absurd · invariant)) fun _ _ => nofun

theorem Follows.of_bears
    (follows : step.Follows (Bears Invariant))
    (invariant : Invariant before) :
    step.Ends before (fun _ => Invariant) fun _ _ => True :=
  (follows before).mono (fun _ _ bears => bears rfl invariant) fun _ _ _ => trivial

theorem Follows.of_along
    {view : τ → σ}
    {step : Step τ α}
    {whole : τ}
    (follows : step.Follows (along view (Bears Invariant)))
    (invariant : Invariant (view whole)) :
    step.Ends whole (fun _ after => Invariant (view after)) fun _ _ => True :=
  (follows whole).mono (fun _ _ bears => bears rfl invariant) fun _ _ _ => trivial

end Bears

end Step
end Spillway
