import Spillway.Proofs.Operator.Budget
import Spillway.Proofs.Operator.Remaining

/-!
# What requests do to partitions

Joins and aggregations change their partitioned input step by step, and a request that fails leaves
what its steps did until then. Chunks that are accepted are fed to partitions; only visits close any, and
each visit closes the partition that it is about.
-/

namespace Spillway

open Step Relation

variable {relation : Bool → Partitioned → Partitioned → Prop} {partition : Nat} {α : Type}

/-! ## Joins -/

namespace Join

/-- Something is done to the partitioned input, while the tables, the phase and the probe side stay. -/
def Within
    (relation : Bool → Partitioned → Partitioned → Prop)
    (met : Bool)
    (before after : Join) : Prop :=
  relation met before.input after.input ∧ after.tables = before.tables ∧ after.phase = before.phase ∧
    after.probe = before.probe

/-- Partitions are fed, while the phase stays. -/
def Takes (met : Bool) (before after : Join) : Prop :=
  before.input.Feeds (fun _ => True) met after.input ∧ after.phase = before.phase

instance [Composes relation] : Composes (Within relation) where
  refl met join := ⟨Composes.refl met join.input, rfl, rfl, rfl⟩
  trans := by
    rintro _ _ _ _ ⟨one, tables, phase, probe⟩ ⟨another, stillTables, stillPhase, stillProbe⟩
    exact ⟨Composes.trans one another, stillTables.trans tables, stillPhase.trans phase,
      stillProbe.trans probe⟩

instance : Composes Takes where
  refl met join := ⟨Composes.refl met join.input, rfl⟩
  trans one another := ⟨Composes.trans one.1 another.1, another.2.trans one.2⟩

theorem takes_of_within
    {step : Step Join α}
    (within : step.Follows (Within (Partitioned.Feeds fun _ => True))) :
    step.Follows Takes :=
  within.mono fun _ _ _ within => ⟨within.1, within.2.2.1⟩

theorem within_onInput
    {step : Step Partitioned α}
    (follows : step.Follows relation) :
    (onInput step).Follows (Within relation) :=
  fun join => (ends_onInput step).mpr ((follows join.input).mono
    (fun _ _ related => ⟨related, rfl, rfl, rfl⟩) fun _ _ related => ⟨related, rfl, rfl, rfl⟩)

theorem within_joinWith
    [Composes relation]
    (table : JoinTable)
    (chunk : Chunk) :
    (joinWith table chunk).Follows (Within relation) :=
  follows_get.bind fun _ => (follows_ofExcept _).bind fun _ => follows_pure _

/-! ### Accepting chunks -/

theorem takes_insertKeys
    (cells : List Cell)
    (done filters : List KeyFilter) :
    (insertKeys cells done filters).Follows Takes := by
  induction filters generalizing done with
  | nil => exact follows_modify fun _ => ⟨.refl, rfl⟩
  | cons filter rest inductionHypothesis =>
      rw [insertKeys]
      split
      · exact inductionHypothesis _
      · refine (follows_modify fun _ => ?_).bind fun _ => follows_fail _
        exact ⟨.refl, rfl⟩

theorem takes_addBuildChunk (chunk : Chunk) : (addBuildChunk chunk).Follows Takes := by
  refine follows_get.bind fun join => ?_
  dsimp only
  split
  · exact follows_fail_bind _ _
  refine (follows_ofExcept _).bind fun chunk => ?_
  have accepts : (onInput (Partitioned.addBuildChunk chunk)).Follows Takes :=
    takes_of_within (within_onInput (Partitioned.follows_addBuildChunk chunk))
  split
  · exact follows_pure _
  split
  · exact accepts
  · exact (follows_ofExcept _).bind fun cells => (takes_insertKeys cells [] _).bind fun _ => accepts

theorem takes_makeTables (partitions : List Nat) : (makeTables partitions).Follows Takes := by
  induction partitions with
  | nil => exact follows_pure _
  | cons partition rest inductionHypothesis =>
      refine (takes_of_within (within_onInput Partitioned.follows_record)).bind fun record => ?_
      dsimp only
      split
      · exact inductionHypothesis
      refine follows_get.bind fun join => (follows_ofExcept _).bind fun table => ?_
      refine (follows_modify fun _ => ?_).bind fun _ => inductionHypothesis
      exact ⟨.refl, rfl⟩

/-- The build side is ended in the build phase only, and that feeds nothing to partitions. -/
theorem ends_finishBuild (join : Join) :
    finishBuild.Ends join
      (fun _ after => join.input.Feeds (fun _ => True) true after.input ∧ join.phase = .build ∧
        after.phase = .probe)
      fun _ after => Takes false join after := by
  unfold finishBuild
  rw [ends_bind, ends_get]
  dsimp only
  rw [ends_ite]
  refine ⟨fun _ => ⟨.refl, rfl⟩, fun building => ?_⟩
  rw [ne_eq, not_not] at building
  rw [ends_bind]
  refine Ends.mono (takes_of_within (within_onInput Partitioned.follows_checkCancelled) join)
    (fun _ checked takes => ?_) fun _ _ takes => takes
  rw [ends_bind]
  refine (takes_makeTables _ checked).mono (fun _ made more => ?_)
    fun _ _ more => Composes.trans takes more
  exact ⟨takes.1.trans more.1, building, rfl⟩

/-- Accepting a chunk of the probe side changes no tables, and partitions only where rows are put into
them. -/
theorem within_probeParts
    [Composes relation]
    (stores : ∀ partition part, (Partitioned.appendProbe partition part).Follows relation)
    (parts : List (Nat × Option Chunk)) :
    (probeParts parts).Follows (Within relation) := by
  induction parts with
  | nil => exact follows_pure _
  | cons first rest inductionHypothesis =>
      obtain ⟨partition, _ | part⟩ := first
      · exact inductionHypothesis
      have probes : (probePart partition part).Follows (Within relation) := by
        refine follows_get.bind fun join => ?_
        split
        · exact within_joinWith _ _
        · refine (within_onInput Partitioned.follows_record).bind fun record => ?_
          dsimp only
          split
          · exact follows_pure _
          · exact (within_onInput (stores partition part)).bind fun _ => follows_pure _
      exact probes.bind fun _ => inductionHypothesis.bind fun _ => follows_pure _

theorem within_probeChunk
    [Composes relation]
    (stores : ∀ partition part, (Partitioned.appendProbe partition part).Follows relation)
    (chunk : Chunk) :
    (probeChunk chunk).Follows (Within relation) := by
  refine follows_get.bind fun join => ?_
  dsimp only
  split
  · exact follows_fail_bind _ _
  refine (within_onInput Partitioned.follows_checkCancelled).bind fun _ => ?_
  refine (follows_ofExcept _).bind fun chunk => ?_
  split
  · exact follows_pure _
  refine (follows_ofExcept _).bind fun parts => (within_probeParts stores _).bind fun output => ?_
  have counts : (countOutput output).Follows (Within relation) :=
    follows_modify fun join => ⟨Composes.refl true join.input, rfl, rfl, rfl⟩
  exact counts.bind fun _ => follows_pure _

theorem takes_probeChunk (chunk : Chunk) : (probeChunk chunk).Follows Takes :=
  takes_of_within (within_probeChunk (fun _ part => Partitioned.follows_appendProbe trivial part) chunk)

/-! ### Joining what was stored -/

/-- Joining blocks of the probe side reads them and does nothing else. -/
theorem within_joinBlocks
    [Composes relation]
    (reads : ∀ block, (Partitioned.restoreProbeBlock partition block).Follows relation)
    (table : JoinTable)
    (blocks : List Nat) :
    (joinBlocks partition table blocks).Follows (Within relation) := by
  induction blocks with
  | nil => exact follows_pure _
  | cons block rest inductionHypothesis =>
      refine (within_onInput Partitioned.follows_checkCancelled).bind fun _ => ?_
      refine (within_onInput (reads block)).bind fun chunks => ?_
      refine (Follows.mapM fun chunk _ => within_joinWith table chunk).bind fun _ => ?_
      exact inductionHypothesis.bind fun _ => follows_pure _

/-- Joining a partition loads it, reads its blocks and completes it. -/
theorem within_joinPartition
    [Composes relation]
    (loads : (Partitioned.loadBuild partition).Follows relation)
    (reads : ∀ block, (Partitioned.restoreProbeBlock partition block).Follows relation)
    (completes : (Partitioned.complete partition).Follows relation) :
    (joinPartition partition).Follows (Within relation) := by
  refine (within_onInput loads).bind fun chunks => follows_get.bind fun join =>
    (follows_ofExcept _).bind fun table => (within_onInput Partitioned.follows_probeBlocks).bind
    fun blocks => (within_joinBlocks reads table _).bind fun output => ?_
  exact (within_onInput completes).bind fun _ => follows_pure _

/-- A partition that is joined is completed. -/
theorem ends_joinPartition_completes (join : Join) :
    (joinPartition partition).Ends join
      (fun _ after => Partitioned.Completes partition join.input after.input ∧
        after.tables = join.tables)
      fun _ after => join.input.Evolves (Partitioned.Only partition) false after.input := by
  unfold joinPartition
  rw [ends_bind, ends_onInput]
  refine (Partitioned.ends_loadBuild_evolves join.input).mono (fun chunks loaded loads => ?_)
    fun _ _ evolves => evolves
  obtain ⟨loads, size, pinned⟩ := loads
  rw [ends_bind, ends_get, ends_bind, ends_ofExcept]
  refine ⟨fun table _ => ?_, fun _ _ => loads.weaken⟩
  rw [ends_bind, ends_onInput]
  have counts : (Partitioned.probeBlocks partition).Follows
      (Partitioned.Feeds (Partitioned.Only partition)) := Partitioned.follows_probeBlocks
  refine (counts loaded).mono (fun blocks counted counts => ?_)
    fun _ _ counts => Composes.trans loads counts.evolves
  rw [ends_bind]
  have reads := fun block =>
    Partitioned.follows_restoreProbeBlock (Partitioned.Only.self partition) block
  refine (within_joinBlocks reads table _ _).mono (fun output joined uses => ?_)
    fun _ _ uses => Composes.trans (loads.trans counts.evolves) uses.1.evolves
  rw [ends_bind, ends_onInput]
  refine (Partitioned.ends_complete _).mono (fun _ after completed => ?_) fun _ _ stuck => ?_
  · exact ⟨completed.of_load loads size pinned (counts.trans uses.1), uses.2.1⟩
  · rw [stuck.1]
    exact (loads.weaken.trans counts.evolves.weaken).trans uses.1.evolves.weaken

/-- A partition that is visited is completed, or split, unless it was closed before. -/
theorem ends_visit_leaves (join : Join) :
    (visit partition).Ends join
      (fun result after => Partitioned.Leaves partition result.left join.input after.input ∧
        after.tables = join.tables)
      fun _ after => join.input.Evolves (fun _ => True) false after.input := by
  have anywhere : ∀ {targets : Nat → Prop} {met : Bool} {after : Partitioned},
      join.input.Evolves targets met after → join.input.Evolves (fun _ => True) met after :=
    fun evolves => evolves.mono fun _ _ => trivial
  exact ends_visit_of (fun _ => .refl) fun record found =>
    { cancelled := .of_forall (fun _ _ => trivial) fun _ _ => .refl
      closed := fun closed => ⟨.of_closed found closed, rfl⟩
      completed := fun _ _ => (Partitioned.ends_complete join.input).mono
        (fun _ _ completed => ⟨completed.leaves, rfl⟩) fun _ _ stuck => stuck.1 ▸ .refl
      split := fun _ _ _ _ _ => (Partitioned.ends_repartition_splits join.input).mono
        (fun _ _ splits _ ordered =>
          ⟨splits.leaves (Partitioned.succeeds_processingOrder ordered).1, rfl⟩)
        fun _ _ evolves => anywhere evolves
      joined := fun _ _ _ => (ends_joinPartition_completes join).mono
        (fun _ _ completed => ⟨completed.1.leaves, completed.2⟩) fun _ _ evolves => anywhere evolves }

theorem retires_visit : Partitioned.Retires Join.input visit :=
  fun _ join => (ends_visit_leaves join).mono (fun _ _ left => left.1) fun _ _ evolves => evolves

/-- The partitioned input changes, and unless that fails the tables stay. -/
def Evolves (met : Bool) (before after : Join) : Prop :=
  before.input.Evolves (fun _ => True) met after.input ∧ (met = true → after.tables = before.tables)

instance : Composes Evolves where
  refl _ _ := ⟨.refl, fun _ => rfl⟩
  trans one another :=
    ⟨Composes.trans one.1 another.1, fun met => (another.2 met).trans (one.2 rfl)⟩

theorem evolves_visit (partition : Nat) : (visit partition).Follows Evolves :=
  fun join => (ends_visit_leaves join).mono
    (fun _ _ left => ⟨left.1.evolves.mono fun _ _ => trivial, fun _ => left.2⟩)
    fun _ _ evolves => ⟨evolves, fun met => absurd met (by decide)⟩

/-! ### Ending the probe side -/

theorem ends_completeTables
    (partitions : List Nat)
    (join : Join) :
    (completeTables partitions).Ends join
      (fun _ after => join.input.Evolves (fun _ => True) true after.input ∧
        after.tables = join.tables.filter (fun table => table.1 ∉ partitions) ∧
        ∀ work, join.input.Remaining work → after.input.Remaining work)
      fun _ after => join.input.Evolves (fun _ => True) false after.input := by
  induction partitions generalizing join with
  | nil => exact ⟨.refl, by simp, fun _ => id⟩
  | cons partition rest inductionHypothesis =>
      unfold completeTables
      rw [ends_bind, ends_modify, ends_bind, ends_onInput]
      refine (Partitioned.ends_complete join.input).mono (fun _ between completed => ?_)
        fun _ _ stuck => stuck.1 ▸ .refl
      have evolves := completed.evolves.mono fun other (_ : other = partition) => trivial
      refine (inductionHypothesis _).mono (fun _ after completes => ?_)
        fun _ _ more => Composes.trans evolves more
      obtain ⟨more, tables, keeps⟩ := completes
      refine ⟨evolves.trans more, ?_, fun work remaining => keeps work ?_⟩
      · rw [tables, List.filter_filter]
        refine List.filter_congr fun table _ => ?_
        rw [Bool.eq_iff_iff]
        simp [and_comm]
      · exact completed.leaves.remaining remaining (fun _ member _ => member) (by simp)

/-- The end of the probe side closes all partitions, and is reached in the probe phase only. -/
theorem ends_finishProbe (join : Join) :
    finishProbe.Ends join
      (fun _ after => join.input.Evolves (fun _ => True) true after.input ∧
        join.phase = .probe ∧ after.phase = .finished ∧ after.tables = [] ∧
        (join.input.Remaining join.input.roots → after.input.Remaining []))
      fun _ after => join.input.Evolves (fun _ => True) false after.input := by
  unfold finishProbe
  rw [ends_bind, ends_get]
  dsimp only
  rw [ends_ite]
  refine ⟨fun _ => .refl, fun probing => ?_⟩
  rw [ne_eq, not_not] at probing
  rw [ends_bind]
  refine (ends_completeTables _ join).mono (fun _ between completed => ?_) fun _ _ evolves => evolves
  obtain ⟨evolves, tables, keeps⟩ := completed
  have empty : between.tables = [] := by
    rw [tables, List.filter_eq_nil_iff]
    intro table member
    simpa using ⟨_, member⟩
  rw [ends_bind]
  refine ((follows_drain evolves_visit _ _ between).and
    (Partitioned.clears_drain retires_visit _ _ between)).mono (fun output drained done => ?_)
    fun _ _ more => Composes.trans evolves more.1.1
  obtain ⟨⟨more, same⟩, cleared⟩ := done
  refine ⟨evolves.trans more, probing, rfl, (same rfl).trans empty, fun remaining => ?_⟩
  refine cleared [] (keeps _ ?_)
  rwa [List.append_nil]

end Join

/-! ## Aggregations -/

namespace Aggregation

theorem follows_onInput
    {step : Step Partitioned α}
    (follows : step.Follows relation) :
    (onInput step).Follows (along Aggregation.input relation) :=
  follows.focus fun _ _ => rfl

theorem follows_addChunk (chunk : Chunk) :
    (addChunk chunk).Follows (along Aggregation.input (Partitioned.Feeds fun _ => True)) :=
  follows_onInput (Partitioned.follows_addBuildChunk chunk)

theorem follows_emit
    [Composes relation]
    (table : GroupTable) :
    (emit table).Follows (along Aggregation.input relation) := by
  unfold emit
  split
  · exact follows_pure _
  · exact follows_get.bind fun _ => (follows_ofExcept _).bind fun _ => follows_pure _

theorem follows_addChunks
    [Composes relation]
    (table : GroupTable)
    (chunks : List Chunk) :
    (addChunks table chunks).Follows (along Aggregation.input relation) :=
  follows_get.bind fun _ => follows_ofExcept _

/-- Taking in blocks reads them and does nothing else. -/
theorem follows_addBlocks_of_reads
    [Composes relation]
    (reads : ∀ block, (Partitioned.restoreBuildBlock partition block).Follows relation)
    (table : GroupTable)
    (blocks : List Nat) :
    (addBlocks partition table blocks).Follows (along Aggregation.input relation) := by
  induction blocks generalizing table with
  | nil => exact follows_pure _
  | cons block rest inductionHypothesis =>
      refine (follows_onInput Partitioned.follows_checkCancelled).bind fun _ => ?_
      refine (follows_onInput (reads block)).bind fun chunks => ?_
      refine (follows_addChunks table chunks).bind fun table => follows_get.bind fun aggregation => ?_
      dsimp only
      split
      · exact follows_pure _
      · exact inductionHypothesis table

theorem follows_addBlocks
    (table : GroupTable)
    (blocks : List Nat) :
    (addBlocks partition table blocks).Follows
      (along Aggregation.input (Partitioned.Feeds (Partitioned.Only partition))) :=
  follows_addBlocks_of_reads (Partitioned.follows_restoreBuildBlock (.self partition)) table blocks

/-- A partition that is aggregated is completed. -/
theorem ends_aggregateInMemory_completes (aggregation : Aggregation) :
    (aggregateInMemory partition).Ends aggregation
      (fun _ after => Partitioned.Completes partition aggregation.input after.input)
      fun _ after =>
        aggregation.input.Evolves (Partitioned.Only partition) false after.input := by
  have reads : ∀ chunks, (do emit (← addChunks {} chunks) : Step Aggregation (List Chunk)).Follows
      (along Aggregation.input (Partitioned.Feeds (Partitioned.Only partition))) :=
    fun chunks => (follows_addChunks {} chunks).bind fun table => follows_emit table
  unfold aggregateInMemory
  rw [ends_bind, ends_onInput]
  refine (Partitioned.ends_loadBuild_evolves aggregation.input).mono (fun chunks loaded loads => ?_)
    fun _ _ evolves => evolves
  obtain ⟨loads, size, pinned⟩ := loads
  rw [← bind_assoc, ends_bind]
  refine (reads chunks _).mono (fun output between uses => ?_)
    fun _ _ uses => Composes.trans loads uses.evolves
  rw [ends_bind, ends_onInput]
  refine (Partitioned.ends_complete _).mono (fun _ after completed => ?_) fun _ _ stuck => ?_
  · exact completed.of_load loads size pinned uses
  · rw [stuck.1]
    exact loads.weaken.trans uses.evolves.weaken

/-- A partition that is visited is completed, or split, unless it was closed before. -/
theorem retires_visit : Partitioned.Retires Aggregation.input visit := by
  intro partition aggregation
  have anywhere : ∀ {targets : Nat → Prop} {met : Bool} {after : Partitioned},
      aggregation.input.Evolves targets met after →
      aggregation.input.Evolves (fun _ => True) met after :=
    fun evolves => evolves.mono fun _ _ => trivial
  refine ends_visit_of (fun _ => .refl) fun record found =>
    { cancelled := .of_forall (fun _ _ => trivial) fun _ _ => .refl
      closed := fun closed => .of_closed found closed
      inMemory := fun _ _ => (ends_aggregateInMemory_completes aggregation).mono
        (fun _ _ completed => completed.leaves) fun _ _ evolves => anywhere evolves
      spilled := fun _ _ => ?_ }
  refine (follows_addBlocks {} _ aggregation).mono
    (fun taken between reads => ⟨fun table _ => ?_, fun _ => ?_⟩) fun _ _ reads => anywhere reads.evolves
  · have emits : (emit table).Follows
        (along Aggregation.input (Partitioned.Feeds (Partitioned.Only partition))) :=
      follows_emit table
    refine (emits between).mono (fun output emitted more => ?_)
      fun _ _ more => anywhere (Composes.trans reads more : Partitioned.Feeds _ false _ _).evolves
    have feeds : aggregation.input.Feeds (Partitioned.Only partition) true emitted.input :=
      reads.trans more
    refine (Partitioned.ends_complete _).mono (fun _ after completed => ?_) fun _ _ stuck => ?_
    · exact (completed.of_load .refl rfl (fun _ => .inr) feeds).leaves
    · rw [stuck.1]
      exact anywhere feeds.evolves.weaken
  · exact (Partitioned.ends_repartition_splits between.input).mono (fun _ _ splits _ ordered =>
      (splits.of_feeds reads).leaves (Partitioned.succeeds_processingOrder ordered).1)
      fun _ _ more => Composes.trans (anywhere reads.evolves)
        (more.mono fun other (_ : Partitioned.Family _ _ other) => trivial)

/-- Partitions are aggregated or put on the list of those that are left. -/
theorem ends_finishInMemory
    (spilled partitions : List Nat)
    (aggregation : Aggregation) :
    (finishInMemory spilled partitions).Ends aggregation
      (fun result after => aggregation.input.Evolves (fun _ => True) true after.input ∧
        (aggregation.input.Remaining (spilled ++ partitions) → after.input.Remaining result.2))
      fun _ after => aggregation.input.Evolves (fun _ => True) false after.input := by
  induction partitions generalizing spilled aggregation with
  | nil => exact ⟨.refl, (List.append_nil spilled).symm ▸ id⟩
  | cons partition rest inductionHypothesis =>
      have completes : ∀ {between : Partitioned},
          Partitioned.Completes partition aggregation.input between →
          aggregation.input.Evolves (fun _ => True) true between ∧
            (aggregation.input.Remaining (spilled ++ partition :: rest) →
              between.Remaining (spilled ++ rest)) := by
        refine fun completed => ⟨completed.evolves.mono fun _ _ => trivial, fun remaining => ?_⟩
        refine completed.leaves.remaining remaining (fun other member different => ?_) (by simp)
        simpa [different] using member
      unfold finishInMemory
      rw [ends_bind, ends_onInput]
      refine Partitioned.ends_record (fun record found => ?_) fun _ => .refl
      rw [ends_ite]
      refine ⟨fun _ => ?_, fun _ => ?_⟩
      · rw [ends_bind, ends_onInput]
        refine (Partitioned.ends_complete _).mono (fun _ between completed => ?_)
          fun _ _ stuck => stuck.1 ▸ .refl
        obtain ⟨evolves, left⟩ := completes completed
        exact (inductionHypothesis spilled _).mono
          (fun _ _ done => ⟨evolves.trans done.1, done.2 ∘ left⟩)
          fun _ _ more => Composes.trans evolves more
      rw [ends_ite]
      refine ⟨fun _ => ?_, fun _ => ?_⟩
      · refine (inductionHypothesis (partition :: spilled) aggregation).mono
          (fun _ _ done => ⟨done.1, fun remaining => done.2 (remaining.mono ?_)⟩) fun _ _ more => more
        simp [or_left_comm]
      · rw [ends_bind]
        refine (ends_aggregateInMemory_completes aggregation).mono (fun output between completed => ?_)
          fun _ _ evolves => evolves.mono fun _ _ => trivial
        obtain ⟨evolves, left⟩ := completes completed
        rw [ends_bind]
        exact (inductionHypothesis spilled between).mono
          (fun _ _ done => ⟨evolves.trans done.1, done.2 ∘ left⟩)
          fun _ _ more => Composes.trans evolves more

/-- The end of an aggregation closes all partitions. -/
theorem ends_finish (aggregation : Aggregation) :
    finish.Ends aggregation
      (fun _ after => aggregation.input.Evolves (fun _ => True) true after.input ∧
        (aggregation.input.Remaining aggregation.input.roots → after.input.Remaining []))
      fun _ after => aggregation.input.Evolves (fun _ => True) false after.input := by
  unfold finish
  rw [ends_bind, ends_get, ends_bind]
  refine (ends_finishInMemory [] _ aggregation).mono (fun result between done => ?_) fun _ _ => id
  obtain ⟨evolves, listed⟩ := done
  rw [ends_bind]
  refine ((follows_drain retires_visit.follows _ _ between).and
    (Partitioned.clears_drain retires_visit _ _ between)).mono (fun output drained done => ?_)
    fun _ _ more => Composes.trans evolves (more.1 : between.input.Evolves _ false _)
  obtain ⟨more, cleared⟩ := done
  refine ⟨evolves.trans more, fun remaining => cleared [] ?_⟩
  rw [List.append_nil]
  exact listed remaining

end Aggregation
end Spillway
