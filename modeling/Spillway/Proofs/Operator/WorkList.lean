import Mathlib.Data.List.Nodup
import Spillway.Operator.WorkList
import Spillway.Proofs.Outcome

/-!
# Work lists that pay what is due

Every partition has rows due, whatever they are computed from. A visit conserves them if it either
yields the rows that are due for its partition or passes them on to new partitions, so that nothing is
due for its partition any more, and leaves what is due for all others alone. Then the output of a whole
work list is what was due for its partitions when it began, in some order, however deep the splits go.
That a visit leaves the others alone is kept apart from what it pays: the latter may hold under a condition
only.
-/

namespace Spillway

/-- The partitions that a visit leaves to be visited. -/
def Visit.left {α : Type} : Visit α → List Nat
  | done _ => []
  | split partitions => partitions

section Conservation

variable {σ α ρ : Type} (precise : Prop) (size : σ → Nat) (owes : σ → (Nat → List ρ) → Prop)
  (rows : α → List ρ)

/-- A visit leaves nothing due for its partition, and leaves what is due for all others alone. Where this is
to be `precise`, it yields the rows that were due for its partition or passes them on to new partitions. -/
def Conserves (visit : Nat → Step σ (Visit α)) : Prop :=
  ∀ {partition : Nat} {before after : σ} {result : Visit α} {due : Nat → List ρ},
    (visit partition).Succeeds before result after →
    owes before due →
    partition < size before →
    ∃ left, owes after left ∧ size before ≤ size after ∧
      (∀ other < size before, other ≠ partition → left other = due other) ∧
      left partition = [] ∧
      match result with
      | .done output => precise → (output.flatMap rows).Perm (due partition)
      | .split partitions =>
        partitions.Nodup ∧
          (∀ child ∈ partitions, size before ≤ child ∧ child < size after) ∧
          (precise → (partitions.flatMap left).Perm (due partition))

variable {precise size owes rows}

/-- The step leaves nothing due for the partitions of a list, and leaves what is due for all others alone.
Where this is to be `precise`, it yields the rows that were due for these. -/
def Pays
    (precise : Prop)
    (size : σ → Nat)
    (owes : σ → (Nat → List ρ) → Prop)
    (rows : α → List ρ)
    (step : List Nat → Step σ (List α)) : Prop :=
  ∀ {work : List Nat} {before after : σ} {output : List α} {due : Nat → List ρ},
    (step work).Succeeds before output after →
    owes before due →
    work.Nodup →
    (∀ partition ∈ work, partition < size before) →
    ∃ left, owes after left ∧ size before ≤ size after ∧
      (∀ other < size before, other ∉ work → left other = due other) ∧
      (∀ partition ∈ work, left partition = []) ∧
      (precise → (output.flatMap rows).Perm (work.flatMap due))

/-- One visit, together with what is done with the partitions of a split, pays what is due for the
partition. -/
theorem succeeds_visit
    {visit : Nat → Step σ (Visit α)}
    {deeper : List Nat → Step σ (List α)}
    {partition : Nat}
    {before between after : σ}
    {result : Visit α}
    {output : List α}
    {due : Nat → List ρ}
    (visited : (visit partition).Succeeds before result between)
    (succeeds : (result.follow deeper).Succeeds between output after)
    (conserves : Conserves precise size owes rows visit)
    (pays : Pays precise size owes rows deeper)
    (owed : owes before due)
    (known : partition < size before) :
    ∃ left, owes after left ∧ size before ≤ size after ∧
      (∀ other < size before, other ≠ partition → left other = due other) ∧
      left partition = [] ∧
      (precise → (output.flatMap rows).Perm (due partition)) := by
  obtain ⟨left, stillOwed, grown, untouched, settled, paid⟩ := conserves visited owed known
  cases result with
  | done yields =>
      rw [Visit.follow, Step.succeeds_pure] at succeeds
      obtain ⟨rfl, rfl⟩ := succeeds
      exact ⟨left, stillOwed, grown, untouched, settled, paid⟩
  | split partitions =>
      obtain ⟨distinct, children, passed⟩ := paid
      obtain ⟨last, lastOwed, lastGrown, lastUntouched, -, lastPaid⟩ :=
        pays succeeds stillOwed distinct fun child member => (children child member).2
      have same : ∀ other < size before, last other = left other := by
        refine fun other bounded => lastUntouched other (Nat.lt_of_lt_of_le bounded grown) ?_
        exact fun member => Nat.not_lt_of_le (children other member).1 bounded
      refine ⟨last, lastOwed, Nat.le_trans grown lastGrown, ?_, ?_,
        fun is => (lastPaid is).trans (passed is)⟩
      · exact fun other bounded apart => (same other bounded).trans (untouched other bounded apart)
      · exact (same partition known).trans settled

/-- The visits of a list pay what is due for all of its partitions. -/
theorem pays_drainWith
    {visit : Nat → Step σ (Visit α)}
    {deeper : List Nat → Step σ (List α)}
    (conserves : Conserves precise size owes rows visit)
    (pays : Pays precise size owes rows deeper) :
    Pays precise size owes rows (drainWith visit deeper) := by
  intro work before after output due succeeds owed distinct known
  induction work generalizing before output due with
  | nil =>
      rw [drainWith, Step.succeeds_pure] at succeeds
      obtain ⟨rfl, rfl⟩ := succeeds
      exact ⟨due, owed, Nat.le_refl _, fun _ _ _ => rfl, fun _ => (absurd · List.not_mem_nil),
        fun _ => .refl _⟩
  | cons partition rest inductionHypothesis =>
      rw [List.nodup_cons] at distinct
      have restKnown := fun other member => known other (List.mem_cons_of_mem _ member)
      simp only [drainWith, Step.succeeds_bind, Step.succeeds_pure] at succeeds
      obtain ⟨_, _, visited, first, _, yields, others, _, drained, rfl, rfl⟩ := succeeds
      have present := known partition List.mem_cons_self
      obtain ⟨left, stillOwed, grown, untouched, settled, paid⟩ :=
        succeeds_visit visited yields conserves pays owed present
      obtain ⟨last, lastOwed, lastGrown, lastUntouched, lastSettled, lastPaid⟩ :=
        inductionHypothesis drained stillOwed distinct.2
          fun other member => Nat.lt_of_lt_of_le (restKnown other member) grown
      have same := lastUntouched partition (Nat.lt_of_lt_of_le present grown) distinct.1
      refine ⟨last, lastOwed, Nat.le_trans grown lastGrown, ?_, ?_, ?_⟩
      · intro other bounded outside
        rw [List.mem_cons, not_or] at outside
        rw [lastUntouched other (Nat.lt_of_lt_of_le bounded grown) outside.2,
          untouched other bounded outside.1]
      · exact List.forall_mem_cons.mpr ⟨same.trans settled, lastSettled⟩
      · intro is
        have same : rest.flatMap left = rest.flatMap due := by
          refine List.flatMap_congr fun other member => untouched other (restKnown other member) ?_
          rintro rfl
          exact distinct.1 member
        rw [List.flatMap_append, List.flatMap_cons, ← same]
        exact (paid is).append (lastPaid is)

/-- A work list yields the rows that are due for its partitions, however deep the splits go. -/
theorem pays_drain
    {visit : Nat → Step σ (Visit α)}
    (conserves : Conserves precise size owes rows visit)
    (depth : Nat) :
    Pays precise size owes rows (drain visit depth) := by
  induction depth with
  | zero =>
      refine pays_drainWith conserves ?_
      intro _ _ _ _ _ succeeds
      exact absurd succeeds (Step.succeeds_fail _ _ _ _)
  | succ depth inductionHypothesis => exact pays_drainWith conserves inductionHypothesis

end Conservation

/-! ## What visits leave in place -/

section Keeping

variable {σ α : Type} {visit : Nat → Step σ (Visit α)} {Invariant : σ → Prop}

theorem keeps_drainWith
    {deeper : List Nat → Step σ (List α)}
    (visits : ∀ partition, (visit partition).Keeps Invariant)
    (goesDeeper : ∀ partitions, (deeper partitions).Keeps Invariant)
    (work : List Nat) :
    (drainWith visit deeper work).Keeps Invariant := by
  induction work with
  | nil => exact Step.keeps_pure _
  | cons partition rest inductionHypothesis =>
      refine (visits partition).bind fun result => ?_
      have follows : (result.follow deeper).Keeps Invariant := by
        cases result with
        | done output => exact Step.keeps_pure output
        | split partitions => exact goesDeeper partitions
      exact follows.bind fun _ => inductionHypothesis.bind fun _ => Step.keeps_pure _

/-- What every visit leaves in place is left in place by a whole work list, wherever it ends. -/
theorem keeps_drain
    (visits : ∀ partition, (visit partition).Keeps Invariant)
    (depth : Nat)
    (work : List Nat) :
    (drain visit depth work).Keeps Invariant := by
  induction depth generalizing work with
  | zero => exact keeps_drainWith visits (fun _ => Step.keeps_fail _) work
  | succ depth inductionHypothesis => exact keeps_drainWith visits inductionHypothesis work

end Keeping

/-! ## What visits do to the state -/

section Following

variable {σ α : Type} {visit : Nat → Step σ (Visit α)} {relation : Bool → σ → σ → Prop}
  [Step.Composes relation]

theorem follows_drainWith
    {deeper : List Nat → Step σ (List α)}
    (visits : ∀ partition, (visit partition).Follows relation)
    (goesDeeper : ∀ partitions, (deeper partitions).Follows relation)
    (work : List Nat) :
    (drainWith visit deeper work).Follows relation := by
  induction work with
  | nil => exact Step.follows_pure _
  | cons partition rest inductionHypothesis =>
      refine (visits partition).bind fun result => ?_
      have follows : (result.follow deeper).Follows relation := by
        cases result with
        | done output => exact Step.follows_pure output
        | split partitions => exact goesDeeper partitions
      exact follows.bind fun _ => inductionHypothesis.bind fun _ => Step.follows_pure _

/-- What every visit does to the state is done by a whole work list, wherever it ends. -/
theorem follows_drain
    (visits : ∀ partition, (visit partition).Follows relation)
    (depth : Nat)
    (work : List Nat) :
    (drain visit depth work).Follows relation := by
  induction depth generalizing work with
  | zero => exact follows_drainWith visits (fun _ => Step.follows_fail _) work
  | succ depth inductionHypothesis => exact follows_drainWith visits inductionHypothesis work

end Following

end Spillway
