import Spillway.Proofs.Operator.Remaining

/-!
# Partitions in memory lie on top

Of the partitions on a stack those in memory lie on top of all others, and no partition elsewhere has any
bytes in memory. So nothing is in memory once a spilled partition is on top. A visit that completes its
partition leaves all others as they are. A split, which only a spilled partition is subject to, puts its
children on top, those in memory first.
-/

namespace Spillway
namespace Partitioned

open Step

variable {before after input : Partitioned} {partition : Nat} {record : PartitionRecord}
  {rest : List Nat} {α : Type}

/-! ## Leaving all others as they are -/

/-- All partitions but one are as they were. -/
def Spares (partition : Nat) (_ : Bool) (before after : Partitioned) : Prop :=
  ∀ other, other ≠ partition → after.arena.records[other]? = before.arena.records[other]?

instance (partition : Nat) : Composes (Spares partition) where
  refl _ _ _ _ := rfl
  trans one another other different := (another other different).trans (one other different)

theorem getElem?_modify_of_ne
    {other : Nat}
    (arena : Arena)
    (different : other ≠ partition)
    (change : PartitionRecord → PartitionRecord) :
    (arena.modify partition change).records[other]? = arena.records[other]? := by
  rw [Arena.modify, Array.getElem?_modify, if_neg different.symm]

theorem spares_setState (state : PartitionState) : (setState partition state).Follows (Spares partition) :=
  follows_modify fun input _ different => getElem?_modify_of_ne input.arena different _

theorem spares_releaseBytes (bytes : Nat) : (releaseBytes bytes).Follows (Spares partition) :=
  follows_modify fun _ _ _ => rfl

theorem spares_onBuild (step : Step Holding α) : (onBuild partition step).Follows (Spares partition) := by
  refine fun input => ends_onBuild_of (fun _ _ => ?_) fun _ => Composes.refl false input
  exact .of_forall (fun _ _ _ different => getElem?_modify_of_ne input.arena different _)
    fun _ _ _ different => getElem?_modify_of_ne input.arena different _

theorem spares_onProbe
    {absent : Step Partitioned α}
    (otherwise : absent.Follows (Spares partition))
    (step : Step Holding α) :
    (onProbe partition absent step).Follows (Spares partition) := by
  refine fun input => ends_onProbe_of (otherwise input) (fun _ _ _ _ => ?_) fun _ => Composes.refl false input
  exact .of_forall (fun _ _ _ different => getElem?_modify_of_ne input.arena different _)
    fun _ _ _ different => getElem?_modify_of_ne input.arena different _

theorem spares_loadBuild : (loadBuild partition).Follows (Spares partition) := by
  refine (spares_setState _).bind fun _ => follows_record.bind fun loading => ?_
  split
  · exact follows_pure _
  refine (spares_onBuild _).bind fun chunks => ?_
  have charges : (chargeBytes loading.build.estimatedSize).Follows (Spares partition) :=
    follows_modify fun _ _ _ => rfl
  exact charges.bind fun _ => (follows_modify fun _ _ _ => rfl).bind fun _ => follows_pure _

theorem spares_complete : (complete partition).Follows (Spares partition) := by
  refine follows_record.bind fun record => (spares_onBuild _).bind fun _ =>
    (spares_onProbe (follows_pure _) _).bind fun _ => (spares_setState _).bind fun _ =>
    (spares_releaseBytes _).bind fun _ => follows_get.bind fun input => ?_
  split
  · exact follows_pure _
  · exact (follows_modify fun _ _ _ => rfl).bind fun _ => spares_releaseBytes _

/-! ## The order on the stack -/

/-- The partitions in memory lie on top, and there are no bytes in memory elsewhere. -/
def Layered (stack : List Nat) (input : Partitioned) : Prop :=
  ∃ top bottom, stack = top ++ bottom ∧ ∀ (partition : Nat) (record : PartitionRecord),
    input.arena.records[partition]? = some record →
    (partition ∈ top → record.build.spilled = false) ∧
      (partition ∉ top → record.build.memoryBytes = 0)

theorem layered_of_unloaded
    (unloaded : ∀ (partition : Nat) (record : PartitionRecord),
      input.arena.records[partition]? = some record → record.build.memoryBytes = 0)
    (stack : List Nat) :
    input.Layered stack :=
  ⟨[], stack, rfl, fun partition record found => ⟨by simp, fun _ => unloaded partition record found⟩⟩

/-- Below a spilled partition nothing is in memory. -/
theorem Layered.unloaded
    (layered : input.Layered (partition :: rest))
    (found : input.arena.records[partition]? = some record)
    (spilled : record.build.spilled = true) :
    ∀ (other : Nat) (another : PartitionRecord),
      input.arena.records[other]? = some another → another.build.memoryBytes = 0 := by
  obtain ⟨top, bottom, split, layers⟩ := layered
  cases top with
  | nil => exact fun other another there => (layers other another there).2 (by simp)
  | cons first top =>
      rw [List.cons_append, List.cons.injEq] at split
      have inMemory := (layers partition record found).1 (split.1 ▸ List.mem_cons_self)
      rw [spilled] at inMemory
      cases inMemory

/-- A partition that is done with is taken off. -/
theorem Layered.tail
    (layered : before.Layered (partition :: rest))
    (spares : Spares partition true before after)
    (done : ∀ record, after.arena.records[partition]? = some record → record.build.memoryBytes = 0)
    (apart : partition ∉ rest) :
    after.Layered rest := by
  obtain ⟨top, bottom, split, layers⟩ := layered
  have others : ∀ {other another}, other ≠ partition → after.arena.records[other]? = some another →
      (other ∈ top → another.build.spilled = false) ∧
        (other ∉ top → another.build.memoryBytes = 0) :=
    fun different there => layers _ _ ((spares _ different).symm.trans there)
  cases top with
  | nil =>
      refine layered_of_unloaded (fun other another there => ?_) rest
      by_cases here : other = partition
      · exact done another (here ▸ there)
      · exact (others here there).2 (by simp)
  | cons first top =>
      rw [List.cons_append, List.cons.injEq] at split
      obtain ⟨rfl, rfl⟩ := split
      refine ⟨top, bottom, rfl, fun other another there => ⟨fun inside => ?_, fun outside => ?_⟩⟩
      · have different : other ≠ partition := by
          rintro rfl
          exact apart (List.mem_append_left _ inside)
        exact (others different there).1 (List.mem_cons_of_mem _ inside)
      · by_cases here : other = partition
        · exact done another (here ▸ there)
        · exact (others here there).2 fun inside =>
            outside ((List.mem_cons.mp inside).resolve_left here)

/-- Children that are in memory are put before those that are spilled. -/
theorem ends_processingOrder_layers (children : List Nat) :
    (processingOrder children).Ends input
      (fun order after => after = input ∧ order.Perm children ∧ ∃ top bottom, order = top ++ bottom ∧
        ∀ (child : Nat) (record : PartitionRecord), input.arena.records[child]? = some record →
          (child ∈ top → record.build.spilled = false) ∧
            (child ∈ bottom → record.build.spilled = true))
      fun _ _ => False := by
  refine (ends_processingOrder children).and (ends_outcome _ input) |>.mono
    (fun order after ordered => ?_) fun _ _ never => never.1
  obtain ⟨⟨permuted, rfl⟩, succeeds⟩ := ordered
  cases succeeds
  refine ⟨rfl, permuted, _, _, rfl, fun child record found => ?_⟩
  simp [found]

/-- The children of a spilled partition are put in its place. -/
theorem Layered.split
    {kept order : List Nat}
    (layered : before.Layered (partition :: rest))
    (found : before.arena.records[partition]? = some record)
    (spilled : record.build.spilled = true)
    (splits : Splits partition kept before after)
    (counts : after.Counts)
    (unloaded : ∀ {child : Nat} {record : PartitionRecord},
      after.arena.records[child]? = some record → record.build.spilled → record.build.memoryBytes = 0)
    {top bottom : List Nat}
    (ordered : order = top ++ bottom)
    (permuted : order.Perm kept)
    (layers : ∀ (child : Nat) (record : PartitionRecord), after.arena.records[child]? = some record →
      (child ∈ top → record.build.spilled = false) ∧
        (child ∈ bottom → record.build.spilled = true)) :
    after.Layered (order ++ rest) := by
  refine ⟨top, bottom ++ rest, by rw [ordered, List.append_assoc], fun other another there => ?_⟩
  refine ⟨(layers other another there).1, fun outside => ?_⟩
  by_cases here : other = partition
  · obtain ⟨done, same, _, finished⟩ := splits.done
    rw [← here, there, Option.some.injEq] at same
    rw [same]
    exact finished.build.memoryBytes_eq
  by_cases new : before.arena.size ≤ other
  · by_cases inside : other ∈ kept
    · rw [← permuted.mem_iff, ordered, List.mem_append] at inside
      exact unloaded there ((layers other another there).2 (inside.resolve_left outside))
    · obtain ⟨closed, same, _, empty, _⟩ :=
        splits.closed other new (Array.getElem?_eq_some_iff.mp there).1 inside
      rw [there, Option.some.injEq] at same
      exact (counts other another there (same ▸ empty)).memoryBytes_eq
  · -- An old partition had nothing in memory, so it was not spilled to make room.
    obtain ⟨old, was⟩ := Arena.exists_record_of_lt (Nat.lt_of_not_le new)
    have nothing := layered.unloaded found spilled other old was
    obtain ⟨_, same, _, stays⟩ := splits.evolves.exists_record was
    have still := (stays fun family => family.elim here new).2 fun evictable =>
      Nat.ne_of_gt evictable.2.2 nothing
    rw [there, Option.some.injEq] at same
    rw [same, still]
    exact nothing

end Partitioned
end Spillway
