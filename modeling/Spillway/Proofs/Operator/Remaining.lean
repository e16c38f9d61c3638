import Spillway.Proofs.Operator.Closing
import Spillway.Proofs.Operator.WorkList

/-!
# Work that remains

Once no more rows are accepted, what remains to be done is on the work list: partitions that are not on it
have given up their rows and their blocks. A visit strikes its partition off the list and puts the
partitions on it that it leaves, so that nothing remains when the list is empty.
-/

namespace Spillway

namespace Partitioned

open Step

/-- Every partition is done with, or it accepts rows and is on the work list. No partition is loaded. -/
structure Remaining
    (work : List Nat)
    (input : Partitioned) : Prop where
  counts : input.Counts
  pinned : input.pinned = []
  records : ∀ (partition : Nat) (record : PartitionRecord),
    input.arena.records[partition]? = some record →
    record.Done ∨ partition ∈ work ∧ record.state = .opened

variable {before after : Partitioned} {partition : Nat} {left work rest : List Nat}

/-- Partitions may be on the list more often, and elsewhere. -/
theorem Remaining.mono
    (remaining : Remaining work before)
    (within : ∀ partition ∈ work, partition ∈ rest) :
    Remaining rest before :=
  { remaining with
    records := fun partition record found =>
      (remaining.records partition record found).imp_right fun opened => ⟨within _ opened.1, opened.2⟩ }

/-- A visit strikes its partition off the list and puts those on it that it leaves. -/
theorem Leaves.remaining
    (leaves : Leaves partition left before after)
    (remaining : Remaining work before)
    (others : ∀ other ∈ work, other ≠ partition → other ∈ rest)
    (children : ∀ child ∈ left, child ∈ rest) :
    Remaining rest after := by
  have counts := leaves.evolves.counts remaining.counts
  refine ⟨counts, ?_, fun other record found => ?_⟩
  · refine List.eq_nil_iff_forall_not_mem.mpr fun pin member => ?_
    have noted := leaves.pinned pin member
    simp [remaining.pinned] at noted
  by_cases here : other = partition
  · subst here
    obtain ⟨visited, there, done⟩ := leaves.visited
    rw [found, Option.some.injEq] at there
    subst there
    obtain done | ⟨was, closed⟩ := done
    · exact .inl done
    · exact (remaining.records other record was).imp_right fun opened => absurd opened.2 closed
  by_cases new : before.arena.size ≤ other
  · by_cases kept : other ∈ left
    · obtain ⟨_, child, there, opened⟩ := leaves.opened other kept
      rw [found, Option.some.injEq] at there
      subst there
      exact .inr ⟨children other kept, opened⟩
    · have known : other < after.arena.size := (Array.getElem?_eq_some_iff.mp found).1
      obtain ⟨child, there, closed, none, probe⟩ := leaves.closed other new known kept
      rw [found, Option.some.injEq] at there
      subst there
      exact .inl ⟨.inl closed, counts other record found none, probe⟩
  · -- Others stay where they are, and as they are once they are done with.
    rw [Nat.not_le] at new
    have was := Array.getElem?_eq_getElem new
    obtain ⟨same, there, _, apart⟩ := leaves.evolves.exists_record was
    rw [found, Option.some.injEq] at there
    subst there
    obtain ⟨place, steady⟩ := apart fun member =>
      member.elim here fun later => absurd new (Nat.not_lt_of_le later)
    obtain done | ⟨member, opened⟩ := remaining.records other _ was
    · rw [steady fun evictable => done.not_opened evictable.1]
      exact .inl done
    · exact .inr ⟨others other member here, (congrArg PartitionPlace.state place).trans opened⟩

/-- No partition was closed or loaded yet: all of them are roots that accept rows. -/
structure Collecting (input : Partitioned) : Prop where
  counts : input.Counts
  pinned : input.pinned = []
  roots : ∀ (partition : Nat) (record : PartitionRecord),
    input.arena.records[partition]? = some record →
    partition ∈ input.roots ∧ record.state = .opened

theorem Collecting.remaining (collecting : before.Collecting) : before.Remaining before.roots :=
  ⟨collecting.counts, collecting.pinned, fun partition record found =>
    .inr (collecting.roots partition record found)⟩

/-- Feeding partitions closes none of them. -/
theorem Feeds.collecting
    {targets : Nat → Prop}
    (feeds : Feeds targets true before after)
    (collecting : before.Collecting) :
    after.Collecting := by
  refine ⟨feeds.evolves.counts collecting.counts, feeds.pinned_eq.trans collecting.pinned,
    fun partition record found => ?_⟩
  have known : partition < after.arena.size := (Array.getElem?_eq_some_iff.mp found).1
  rw [feeds.size_eq] at known
  have was := Array.getElem?_eq_getElem known
  obtain ⟨same, there, place⟩ := feeds.exists_record was
  rw [found, Option.some.injEq] at there
  subst there
  obtain ⟨root, opened⟩ := collecting.roots partition _ was
  unfold roots at root ⊢
  rw [feeds.evolves.params_eq]
  exact ⟨root, (congrArg PartitionPlace.state place).trans opened⟩

/-! ## Work lists -/

section WorkLists

variable {σ α : Type}

/-- A visit that is met strikes its partition off the list, and one that fails stops in between. -/
def Retires (view : σ → Partitioned) (visit : Nat → Step σ (Visit α)) : Prop :=
  ∀ (partition : Nat) (before : σ),
    (visit partition).Ends before
      (fun result after => Leaves partition result.left (view before) (view after))
      fun _ after => (view before).Evolves (fun _ => True) false (view after)

/-- A step strikes all partitions that it is given off the list. -/
def Clears (view : σ → Partitioned) (step : List Nat → Step σ (List α)) : Prop :=
  ∀ (work : List Nat) (before : σ), (step work).Ends before
    (fun _ after => ∀ rest, Remaining (work ++ rest) (view before) → Remaining rest (view after))
    fun _ _ => True

variable {view : σ → Partitioned} {visit : Nat → Step σ (Visit α)}

theorem Retires.follows
    (retires : Retires view visit)
    (partition : Nat) :
    (visit partition).Follows (along view (Evolves fun _ => True)) :=
  fun before => (retires partition before).mono
    (fun _ _ leaves => leaves.evolves.mono fun _ _ => trivial) fun _ _ evolves => evolves

theorem clears_drainWith
    {deeper : List Nat → Step σ (List α)}
    (retires : Retires view visit)
    (clears : Clears view deeper) :
    Clears view (drainWith visit deeper) := by
  intro work before
  induction work generalizing before with
  | nil => exact fun _ => id
  | cons partition work inductionHypothesis =>
      rw [drainWith, ends_bind]
      refine (retires partition before).mono (fun result between leaves => ?_) fun _ _ _ => trivial
      have left : ∀ rest, Remaining (partition :: work ++ rest) (view before) →
          Remaining (result.left ++ (work ++ rest)) (view between) := fun rest remaining =>
        leaves.remaining remaining
          (fun other member different => List.mem_append_right _
            ((List.mem_cons.mp member).resolve_left different))
          fun child => List.mem_append_left _
      have follows : (result.follow deeper).Ends between
          (fun _ after => ∀ rest, Remaining (partition :: work ++ rest) (view before) →
            Remaining (work ++ rest) (view after)) fun _ _ => True := by
        cases result with
        | done output => exact left
        | split partitions =>
            exact (clears partitions between).mono
              (fun _ _ cleared rest remaining => cleared _ (left rest remaining)) fun _ _ => id
      rw [ends_bind]
      refine follows.mono (fun output after remaining => ?_) fun _ _ _ => trivial
      rw [ends_bind]
      exact (inductionHypothesis after).mono
        (fun _ _ cleared rest before => cleared rest (remaining rest before)) fun _ _ => id

/-- Nothing remains of a work list, however deep the splits go. -/
theorem clears_drain
    (retires : Retires view visit)
    (depth : Nat) :
    Clears view (drain visit depth) := by
  induction depth with
  | zero => exact clears_drainWith retires fun _ _ => trivial
  | succ depth inductionHypothesis => exact clears_drainWith retires inductionHypothesis

end WorkLists

end Partitioned
end Spillway
