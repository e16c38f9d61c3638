import Spillway.Proofs.Operator.Repartition
import Spillway.Proofs.Operator.WorkList

/-!
# Processing partitions

The steps that an operator processes its partitions with. Loading yields the build rows of a partition
and changes none; completing gives them up; a split passes them on. So for any function of the rows of
a partition, what is due for an open partition is settled by completing it and conserved by splitting
it, if the function is that of the buckets put together.
-/

namespace Spillway

/-- Where this is to be `precise`, the build rows of every partition can be told apart by their numbers. -/
def Contents.Loadable
    (precise : Prop)
    (contents : Contents) : Prop :=
  precise → ∀ partition, (contents (.build, partition)).length ≤ UInt32.size

namespace Partitioned

variable {ρ : Type} {precise : Prop}

/-- What is due for a partition: a function of its rows as long as it is open, and nothing after
that. -/
def due
    (function : List Row → List Row → List ρ)
    (input : Partitioned)
    (contents : Contents)
    (partition : Nat) : List ρ :=
  if (input.arena.place? partition).any fun place => place.state = .opened then
    function (contents (.build, partition)) (contents (.probe, partition))
  else []

theorem due_of_opened
    {function : List Row → List Row → List ρ}
    {input : Partitioned}
    {contents : Contents}
    {partition : Nat}
    {place : PartitionPlace}
    (found : input.arena.place? partition = some place)
    (opened : place.state = .opened) :
    input.due function contents partition =
      function (contents (.build, partition)) (contents (.probe, partition)) := by
  rw [due, if_pos]
  rw [found, Option.any_some, opened, decide_eq_true rfl]

theorem due_of_not_opened
    {function : List Row → List Row → List ρ}
    {input : Partitioned}
    {contents : Contents}
    {partition : Nat}
    {place : PartitionPlace}
    (found : input.arena.place? partition = some place)
    (closed : place.state ≠ .opened) :
    input.due function contents partition = [] := by
  rw [due, if_neg]
  rw [found, Option.any_some, decide_eq_true_iff]
  exact closed

/-- The closed partitions have no build rows left, apart from given ones. -/
def Cleared
    (apart : List Nat)
    (input : Partitioned)
    (contents : Contents) : Prop :=
  ∀ partition ∉ apart, ∀ place, input.arena.place? partition = some place →
    place.state ≠ .opened → contents (.build, partition) = []

theorem Cleared.mono
    {apart more : List Nat}
    {input : Partitioned}
    {contents : Contents}
    (cleared : input.Cleared apart contents)
    (subset : apart ⊆ more) :
    input.Cleared more contents :=
  fun partition outside => cleared partition fun member => outside (subset member)

/-- A partition that is open needs no exception. -/
theorem Cleared.of_opened
    {apart : List Nat}
    {input : Partitioned}
    {contents : Contents}
    {partition : Nat}
    {record : PartitionRecord}
    (cleared : input.Cleared (partition :: apart) contents)
    (found : input.arena.records[partition]? = some record)
    (opened : record.state = .opened) :
    input.Cleared apart contents := by
  intro other outside place placed closed
  have different : other ≠ partition := by
    rintro rfl
    rw [Arena.place?_of_record found, Option.some.injEq] at placed
    exact closed (placed ▸ opened)
  exact cleared other (List.not_mem_cons_of_ne_of_not_mem different outside) place placed closed

theorem Quiet.cleared
    {apart : List Nat}
    {before after : Partitioned}
    {contents : Contents}
    (quiet : before.Quiet after)
    (cleared : before.Cleared apart contents) :
    after.Cleared apart contents := by
  rw [Cleared, place?_of_outline quiet.outline]
  exact cleared

/-- If the closed partitions have no build rows and nothing is due without build rows, it does not
matter for what is due which partitions are open. -/
theorem due_of_cleared
    {function : List Row → List Row → List ρ}
    {input : Partitioned}
    {contents : Contents}
    {apart : List Nat}
    {partition : Nat}
    (none : ∀ probe, function [] probe = [])
    (holds : input.Holds precise contents)
    (cleared : input.Cleared apart contents)
    (outside : partition ∉ apart) :
    input.due function contents partition =
      function (contents (.build, partition)) (contents (.probe, partition)) := by
  cases found : input.arena.records[partition]? with
  | none =>
      have missing : input.arena.part? (.build, partition) = Option.none := by
        simp [Arena.part?, found]
      rw [holds.absent _ missing, none]
      simp [due, Arena.place?, found]
  | some record =>
      have placed := Arena.place?_of_record found
      by_cases opened : record.state = .opened
      · exact due_of_opened placed opened
      · rw [due_of_not_opened placed opened, cleared partition outside _ placed opened, none]

/-- A partition is done with, and all others are as they were. -/
structure Settles
    (precise : Prop)
    (before after : Partitioned)
    (partition : Nat)
    (contents left : Contents) : Prop where
  params : after.params = before.params
  side? : after.side? = before.side?
  size : after.arena.size = before.arena.size
  holds : after.Holds precise left
  emptied : ∀ side, left (side, partition) = []
  others : ∀ side other, other ≠ partition → left (side, other) = contents (side, other)
  parts : ∀ slot, slot.2 ≠ partition → after.arena.part? slot = before.arena.part? slot
  places : ∀ other, other ≠ partition → after.arena.place? other = before.arena.place? other
  closed : ∀ place, after.arena.place? partition = some place → place.state ≠ .opened

theorem Settles.due_others
    {before after : Partitioned}
    {partition : Nat}
    {contents left : Contents}
    (settles : before.Settles precise after partition contents left)
    (function : List Row → List Row → List ρ)
    {other : Nat}
    (different : other ≠ partition) :
    after.due function left other = before.due function contents other := by
  simp only [due, settles.places other different, settles.others _ other different]

/-- A partition that is done with is cleared. -/
theorem Settles.cleared
    {before after : Partitioned}
    {partition : Nat}
    {contents left : Contents}
    {apart : List Nat}
    (settles : before.Settles precise after partition contents left)
    (cleared : before.Cleared (partition :: apart) contents) :
    after.Cleared apart left := by
  intro other outside place found closed
  by_cases here : other = partition
  · rw [here, settles.emptied]
  · rw [settles.places other here] at found
    rw [settles.others _ other here]
    exact cleared other (by simp [here, outside]) place found closed

theorem Settles.loadable
    {before after : Partitioned}
    {partition : Nat}
    {contents left : Contents}
    (settles : before.Settles precise after partition contents left)
    (loadable : contents.Loadable precise) :
    left.Loadable precise := by
  intro is other
  by_cases here : other = partition
  · simp [here, settles.emptied]
  · rw [settles.others _ other here]
    exact loadable is other

/-- Those of given partitions whose build rows are in the store are open. -/
def Awaits
    (work : List Nat)
    (input : Partitioned) : Prop :=
  ∀ partition ∈ work, ∀ record, input.arena.records[partition]? = some record →
    record.build.spilled = true → record.build.isEmpty = false → record.state = .opened

theorem Settles.awaits
    {before after : Partitioned}
    {partition : Nat}
    {contents left : Contents}
    {work : List Nat}
    (settles : before.Settles precise after partition contents left)
    (outside : partition ∉ work)
    (awaits : before.Awaits work) :
    after.Awaits work := by
  intro other member record found spilled some
  have different : other ≠ partition := fun same => outside (same ▸ member)
  have part := settles.parts (.build, other) different
  have place := settles.places other different
  rw [Arena.part?_build found] at part
  rw [Arena.place?_of_record found] at place
  obtain ⟨old, there, same⟩ := Arena.exists_record_of_part?_build part.symm
  rw [Arena.place?_of_record there, Option.some.injEq] at place
  rw [← same] at spilled some
  exact (congrArg PartitionPlace.state place).trans (awaits other member old there spilled some)

theorem Settles.due_self
    {before after : Partitioned}
    {partition : Nat}
    {contents left : Contents}
    (settles : before.Settles precise after partition contents left)
    (function : List Row → List Row → List ρ) :
    after.due function left partition = [] := by
  cases found : after.arena.place? partition with
  | none => simp [due, found]
  | some place => exact due_of_not_opened found (settles.closed place found)

/-- Moving the partition to another state first makes no difference. -/
theorem Settles.of_mark
    {before between after : Partitioned}
    {partition : Nat}
    {state : PartitionState}
    {contents left : Contents}
    (settles : between.Settles precise after partition contents left)
    (outline : between.outline = before.outline.mark partition state)
    (part? : between.arena.part? = before.arena.part?) :
    before.Settles precise after partition contents left where
  params := settles.params.trans (congrArg Outline.params outline)
  side? := settles.side?.trans (congrArg Outline.side? outline)
  size := settles.size.trans (congrArg Outline.size outline)
  holds := settles.holds
  emptied := settles.emptied
  others := settles.others
  parts := part? ▸ settles.parts
  places := by
    intro other different
    have same : between.arena.place? other = _ := congrFun (congrArg Outline.place? outline) other
    rw [settles.places other different, same]
    simp only [Outline.mark, if_neg different]
    rfl
  closed := settles.closed

/-- Neither does a step that changes no partition. -/
theorem Settles.of_quiet
    {before between after : Partitioned}
    {partition : Nat}
    {contents left : Contents}
    (settles : between.Settles precise after partition contents left)
    (quiet : before.Quiet between) :
    before.Settles precise after partition contents left where
  params := settles.params.trans (params_of_outline quiet.outline)
  side? := settles.side?.trans (side?_of_outline quiet.outline)
  size := settles.size.trans (size_of_outline quiet.outline)
  holds := settles.holds
  emptied := settles.emptied
  others := settles.others
  parts := quiet.part? ▸ settles.parts
  places := fun other different =>
    (settles.places other different).trans (congrFun (place?_of_outline quiet.outline) other)
  closed := settles.closed

/-- What is due depends on the contents and on the places alone. -/
theorem due_of_outline
    {before after : Partitioned}
    (outline : after.outline = before.outline)
    (function : List Row → List Row → List ρ)
    (contents : Contents) :
    after.due function contents = before.due function contents := by
  funext partition
  simp only [due, place?_of_outline outline]

/-- Completing a partition settles it. -/
theorem succeeds_complete
    {partition : Nat}
    {before after : Partitioned}
    {contents : Contents}
    {value : Unit}
    (succeeds : (complete partition).Succeeds before value after)
    (holds : before.Holds precise contents) :
    ∃ left, before.Settles precise after partition contents left := by
  simp only [complete, releaseBytes, Step.succeeds_bind, succeeds_record_iff, Step.succeeds_modify,
    Step.succeeds_get] at succeeds
  obtain ⟨_, _, ⟨_, rfl⟩, _, first, releaseBuild, _, second, releaseProbe, _, third, set, _, _, rfl,
    _, _, ⟨rfl, rfl⟩, rest⟩ := succeeds
  obtain ⟨firstHolds, firstSame, firstParts⟩ := succeeds_releaseBuild releaseBuild holds
  obtain ⟨secondHolds, secondSame, secondParts⟩ := succeeds_releaseProbe releaseProbe firstHolds
  obtain ⟨thirdHolds, thirdSame, thirdParts⟩ := succeeds_setState set secondHolds
  have whole : after.outline = before.outline.mark partition .completed ∧
      after.arena.part? = third.arena.part? ∧
      after.Holds precise (Function.update (Function.update contents (.build, partition) [])
        (.probe, partition) []) := by
    rw [← firstSame, ← secondSame, ← thirdSame]
    split at rest
    · rw [Step.succeeds_pure] at rest
      obtain ⟨_, rfl⟩ := rest
      exact ⟨rfl, rfl, thirdHolds⟩
    · simp only [Step.succeeds_bind, Step.succeeds_modify] at rest
      obtain ⟨_, _, rfl, rfl⟩ := rest
      exact ⟨rfl, rfl, thirdHolds⟩
  obtain ⟨outline, parts, left⟩ := whole
  have places : ∀ other, after.arena.place? other = _ :=
    fun other => congrFun (congrArg Outline.place? outline) other
  refine ⟨_, congrArg Outline.params outline, congrArg Outline.side? outline,
    congrArg Outline.size outline, left, ?_, ?_, ?_, ?_, ?_⟩
  · intro side
    cases side <;> simp [Function.update]
  · intro side other different
    rw [Function.update_of_ne (by simp [different]), Function.update_of_ne (by simp [different])]
  · intro slot different
    rw [parts, thirdParts, secondParts slot different, firstParts slot different]
  · intro other different
    rw [places]
    simp only [Outline.mark, if_neg different]
    rfl
  · intro place found
    rw [places] at found
    simp only [Outline.mark, if_true, Option.map_eq_some_iff] at found
    obtain ⟨_, _, rfl⟩ := found
    simp

/-- Loading a partition yields its build rows, as chunks of the build schema. -/
theorem succeeds_loadBuild
    {partition : Nat}
    {chunks : List Chunk}
    {before after : Partitioned}
    {contents : Contents}
    (succeeds : (loadBuild partition).Succeeds before chunks after)
    (holds : before.Holds precise contents) :
    chunks.flatMap Chunk.rows = contents (.build, partition) ∧
      (∀ chunk ∈ chunks, chunk.Suits precise before.buildSchema) ∧
      after.Holds precise contents ∧ after.outline = before.outline.mark partition .pinned ∧
      after.arena.part? = before.arena.part? := by
  simp only [loadBuild, Step.succeeds_bind, succeeds_record_iff] at succeeds
  obtain ⟨_, pinned, pin, record, _, ⟨found, rfl⟩, succeeds⟩ := succeeds
  obtain ⟨pinnedHolds, outline, parts⟩ := succeeds_setState pin holds
  have declares : pinned.side? .build = before.side? .build :=
    congrFun (congrArg Outline.side? outline) .build
  split at succeeds
  · next inMemory =>
    rw [Step.succeeds_pure] at succeeds
    obtain ⟨rfl, rfl⟩ := succeeds
    obtain ⟨declared, same, held⟩ := pinnedHolds.holds _ _ (Arena.part?_build found)
    have schema : declared.schema = before.buildSchema := by
      rw [show pinned.side? .build = some declared from same] at declares
      exact congrArg ProbeSide.schema (Option.some.inj declares)
    obtain ⟨rows, fits⟩ := held.toStores.chunks_of_inMemory (Bool.eq_false_iff.mpr inMemory)
    exact ⟨rows, schema ▸ fits, pinnedHolds, outline, parts⟩
  · simp only [chargeBytes, Step.succeeds_bind, Step.succeeds_modify, Step.succeeds_pure] at succeeds
    obtain ⟨_, reloaded, reload, _, _, rfl, _, _, rfl, rfl, rfl⟩ := succeeds
    obtain ⟨old, new, acts⟩ := acts_of_onBuild reload
    obtain ⟨rows, fits, quiet⟩ := acts.reload pinnedHolds (declares.trans rfl)
    exact ⟨rows, fits, quiet.holds pinnedHolds, quiet.outline.trans outline,
      quiet.part?.trans parts⟩

theorem succeeds_processingOrder
    {children order : List Nat}
    {before after : Partitioned}
    (succeeds : (processingOrder children).Succeeds before order after) :
    order.Perm children ∧ before = after := by
  simp only [processingOrder, Step.succeeds_bind, Step.succeeds_get, Step.succeeds_pure] at succeeds
  obtain ⟨_, _, ⟨rfl, rfl⟩, rfl, rfl⟩ := succeeds
  refine ⟨?_, rfl⟩
  exact ((List.reverse_perm _).append (List.reverse_perm _)).trans (List.filter_append_perm _ _)

/-! ## What a split conserves -/

/-- What is due for other partitions is not changed by a split. -/
theorem Divides.due_others
    {before after : Partitioned}
    {partition : Nat}
    {place : PartitionPlace}
    {contents divided : Contents}
    (divides : before.Divides precise after partition place contents divided)
    (function : List Row → List Row → List ρ)
    {other : Nat}
    (old : other < before.arena.size)
    (different : other ≠ partition) :
    after.due function divided other = before.due function contents other := by
  simp only [due, divides.places other old different, divides.others _ other old different]

/-- Nothing is due for a partition that was split. -/
theorem Divides.due_self
    {before after : Partitioned}
    {partition : Nat}
    {place : PartitionPlace}
    {contents divided : Contents}
    (divides : before.Divides precise after partition place contents divided)
    (function : List Row → List Row → List ρ) :
    after.due function divided partition = [] :=
  due_of_not_opened divides.split (by simp)

/-- A split closes its partition and children without build rows only. -/
theorem Divides.cleared
    {before after : Partitioned}
    {partition : Nat}
    {place : PartitionPlace}
    {contents divided : Contents}
    (divides : before.Divides precise after partition place contents divided)
    (cleared : before.Cleared [] contents) :
    after.Cleared [] divided := by
  intro other outside otherPlace found closed
  by_cases here : other = partition
  · rw [here, divides.emptied]
  by_cases old : other < before.arena.size
  · rw [divides.places other old here] at found
    rw [divides.others .build other old here]
    exact cleared other outside otherPlace found closed
  · have known := Arena.lt_size_of_place? found
    rw [divides.size] at known
    obtain ⟨bucket, rfl⟩ := Nat.exists_eq_add_of_le (Nat.le_of_not_lt old)
    rw [divides.child bucket (Nat.lt_of_add_lt_add_left known), Option.some.injEq] at found
    subst found
    by_contra some
    exact closed (if_neg some)

/-- A child has no more build rows than its partition had. -/
theorem Divides.loadable
    {before after : Partitioned}
    {partition : Nat}
    {place : PartitionPlace}
    {contents divided : Contents}
    (divides : before.Divides precise after partition place contents divided)
    (loadable : contents.Loadable precise) :
    divided.Loadable precise := by
  intro is other
  by_cases here : other = partition
  · simp [here, divides.emptied]
  by_cases old : other < before.arena.size
  · rw [divides.others .build other old here]
    exact loadable is other
  obtain ⟨bucket, rfl⟩ := Nat.exists_eq_add_of_le (Nat.le_of_not_lt old)
  by_cases bounded : bucket < before.params.partitionCount
  · rw [divides.build is bucket bounded]
    exact Nat.le_trans (List.length_filter_le ..) (loadable is partition)
  · rw [divides.holds.absent _ (part?_of_size_le (by simp [divides.size]; omega))]
    exact Nat.zero_le _

/-- What is due for the children with build rows is what is due for the buckets, if nothing is due
without build rows. -/
theorem Divides.due_children
    {before after : Partitioned}
    {partition : Nat}
    {place : PartitionPlace}
    {contents divided : Contents}
    (divides : before.Divides precise after partition place contents divided)
    (is : precise)
    {function : List Row → List Row → List ρ}
    (none : ∀ probe, function [] probe = []) :
    ((before.nextChildren.filter fun child => !(divided (.build, child)).isEmpty).flatMap
        (after.due function divided)) =
      (List.range before.params.partitionCount).flatMap fun bucket =>
        function
          ((contents (.build, partition)).filter fun row =>
            before.bucketOf .build (place.level + 1) row = bucket)
          ((contents (.probe, partition)).filter fun row =>
            before.bucketOf .probe (place.level + 1) row = bucket) := by
  have child : ∀ bucket < before.params.partitionCount,
      after.due function divided (before.arena.size + bucket) =
        function
          ((contents (.build, partition)).filter fun row =>
            before.bucketOf .build (place.level + 1) row = bucket)
          ((contents (.probe, partition)).filter fun row =>
            before.bucketOf .probe (place.level + 1) row = bucket) := by
    intro bucket bounded
    have placed := divides.child bucket bounded
    by_cases empty : divided (.build, before.arena.size + bucket) = []
    · rw [if_pos empty] at placed
      rw [due_of_not_opened placed (by simp), ← divides.build is bucket bounded, empty, none]
    · rw [if_neg empty] at placed
      rw [due_of_opened placed rfl, divides.build is bucket bounded,
        divides.probe is bucket bounded empty]
  rw [flatMap_filter, nextChildren, List.flatMap_map]
  · exact List.flatMap_congr fun bucket member => child bucket (List.mem_range.mp member)
  · intro number member empty
    obtain ⟨bucket, bounded, rfl⟩ := mem_nextChildren.mp member
    have empty : divided (.build, before.arena.size + bucket) = [] := by simpa using empty
    rw [child bucket bounded, ← divides.build is bucket bounded, empty, none]

/-- A split changes what is due for its partition and the children only. Where this is to be `precise`, it
passes what is due for an open partition on to the children, if it is what is due for the buckets put
together. -/
theorem succeeds_splitVisit
    {partition : Nat}
    {children order : List Nat}
    {before between after : Partitioned}
    {contents : Contents}
    {record : PartitionRecord}
    {function : List Row → List Row → List ρ}
    (repartitioned : (repartition partition).Succeeds before children between)
    (ordered : (processingOrder children).Succeeds between order after)
    (holds : before.Holds precise contents)
    (found : before.arena.records[partition]? = some record)
    (opened : record.state = .opened)
    (spilled : record.build.spilled = true)
    (none : ∀ probe, function [] probe = [])
    (whole : ∀ build probe,
      ((List.range before.params.partitionCount).flatMap fun bucket =>
        function (build.filter fun row => before.bucketOf .build (record.level + 1) row = bucket)
          (probe.filter fun row => before.bucketOf .probe (record.level + 1) row = bucket)).Perm
        (function build probe)) :
    ∃ divided, after.Holds precise divided ∧ after.params = before.params ∧ after.side? = before.side? ∧
      before.arena.size ≤ after.arena.size ∧
      (∀ other < before.arena.size, other ≠ partition →
        after.due function divided other = before.due function contents other) ∧
      after.due function divided partition = [] ∧
      (before.Cleared [] contents → after.Cleared [] divided) ∧
      (contents.Loadable precise → divided.Loadable precise) ∧
      order.Nodup ∧
      (∀ child ∈ order, before.arena.size ≤ child ∧ child < after.arena.size) ∧
      (precise → (order.flatMap (after.due function divided)).Perm
        (before.due function contents partition)) := by
  obtain ⟨divided, divides, rfl⟩ := succeeds_repartition repartitioned holds found spilled
  obtain ⟨permuted, rfl⟩ := succeeds_processingOrder ordered
  refine ⟨divided, divides.holds, divides.params, divides.side?, ?_,
    fun other old different => divides.due_others function old different, divides.due_self function,
    divides.cleared, divides.loadable, ?_, ?_, ?_⟩
  · rw [divides.size]
    exact Nat.le_add_right _ _
  · exact permuted.nodup_iff.mpr ((nodup_nextChildren before).filter _)
  · intro child member
    obtain ⟨bucket, bounded, rfl⟩ :=
      mem_nextChildren.mp (List.mem_filter.mp (permuted.mem_iff.mp member)).1
    rw [divides.size]
    exact ⟨Nat.le_add_right _ _, Nat.add_lt_add_left bounded _⟩
  · intro is
    rw [due_of_opened (Arena.place?_of_record found) opened]
    refine (permuted.flatMap_right _).trans ?_
    rw [divides.due_children is none]
    exact whole _ _

end Partitioned

end Spillway
