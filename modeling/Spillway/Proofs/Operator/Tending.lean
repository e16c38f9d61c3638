import Spillway.Proofs.Operator.Closing
import Spillway.Proofs.Operator.Tended

/-!
# Tending a forest

Every step of partitioned input that is met leaves its forest tended: whatever is put into partitions, read or
spilled, only the side of a partition changes, and a side that is spilled is counted. A partition without
children can be loaded and completed. Splitting one adds a child for each bucket, marks it, and counts it.
-/

namespace Spillway

open Step

/-! ## Sides -/

namespace Partition

variable {α : Type}

/-- Where it succeeds, the step leaves a spilled partition spilled, and one in memory in memory. -/
def Abides (step : Step Holding α) : Prop :=
  ∀ holding, step.Ends holding
    (fun _ after => after.partition.spilled = holding.partition.spilled) fun _ _ => True

theorem abides_of_keeps
    {step : Step Holding α}
    (keeps : ∀ before : Partition, step.Keeps fun holding => before.Rests holding.partition) :
    Abides step :=
  fun holding => (keeps holding.partition holding (Rests.refl _)).mono (fun _ _ rests => rests.spilled)
    fun _ _ _ => trivial

theorem abides_append (chunk : Chunk) : Abides (append chunk) := by
  intro holding
  cases rows : chunk.isEmpty with
  | true =>
      unfold append
      rw [rows]
      exact rfl
  | false =>
      cases place : holding.partition.spilled with
      | true =>
          exact (ends_append_of_spilled place chunk).mono (fun _ _ rests => rests.spilled.trans place)
            fun _ _ _ => trivial
      | false =>
          exact (ends_append_in_memory place rows).mono (fun _ _ appended => appended.1)
            fun _ _ _ => trivial

theorem abides_release : Abides release :=
  fun _ => ends_release.mono (fun _ _ released => released.1) fun _ _ _ => trivial

end Partition

namespace Partitioned

variable {fanOut : Nat} {again : Prop} {busy : Option (Nat × Nat)} {free : Nat → Prop} {partition : Nat}
  {input : Partitioned} {record : PartitionRecord} {α : Type}

/-- The forest of the input is tended, and its splits and its spilled partitions are counted. -/
structure Tended
    (fanOut : Nat)
    (again : Prop)
    (busy : Option (Nat × Nat))
    (free : Nat → Prop)
    (input : Partitioned) : Prop where
  params : input.params.partitionCount = fanOut
  arena : input.arena.Tended fanOut input.partitionsSpilled input.repartitions again busy free

/-- A step that leaves the forest tended, where it is met. -/
abbrev Tends
    (fanOut : Nat)
    (again : Prop)
    (busy : Option (Nat × Nat))
    (free : Nat → Prop)
    (step : Step Partitioned α) : Prop :=
  step.Follows (Bears (Tended fanOut again busy free))

/-! ## Feeding partitions -/

theorem tends_onBuild
    {step : Step Holding α}
    (abides : Partition.Abides step) :
    Tends fanOut again busy free (onBuild partition step) := by
  refine bears_of_ends fun input tended => ends_onBuild_of (fun record found => ?_) fun _ => trivial
  refine (abides _).mono (fun _ holding same => ?_) fun _ _ _ => trivial
  refine ⟨tended.params, tended.arena.modify found (fun _ => ⟨rfl, rfl, rfl, rfl⟩) (.inl rfl) ?_⟩
  rw [same]
  rfl

theorem tends_onProbe
    {absent : Step Partitioned α}
    (otherwise : Tends fanOut again busy free absent)
    (step : Step Holding α) :
    Tends fanOut again busy free (onProbe partition absent step) := by
  refine bears_of_ends fun input tended => ends_onProbe_of (otherwise.of_bears tended)
    (fun record probe found _ => ?_) fun _ => trivial
  refine .of_forall (fun _ _ => ?_) fun _ _ => trivial
  exact ⟨tended.params, tended.arena.modify found (fun _ => ⟨rfl, rfl, rfl, rfl⟩) (.inl rfl) rfl⟩

theorem tends_releaseBytes (bytes : Nat) : Tends fanOut again busy free (releaseBytes bytes) :=
  follows_modify fun _ _ tended => ⟨tended.params, tended.arena⟩

theorem tends_tryCharge (bytes : Nat) : Tends fanOut again busy free (tryCharge bytes) :=
  fun _ => ends_tryCharge_of (fun _ _ _ tended => ⟨tended.params, tended.arena⟩)
    fun _ _ tended => ⟨tended.params, tended.arena⟩

/-- A side that is spilled is counted. -/
theorem tends_spillPartition : Tends fanOut again busy free (spillPartition partition) := by
  refine bears_of_ends fun input tended => (ends_bind _ _).mpr (ends_record (fun record found => ?_)
    fun _ => trivial)
  rw [ends_ite]
  refine ⟨fun _ => tended, fun inMemory => ?_⟩
  have inMemory : record.build.spilled = false := Bool.eq_false_iff.mpr inMemory
  rw [ends_bind, ends_onBuild found]
  refine (Partition.ends_spill inMemory).mono (fun freed holding spilled => ?_) fun _ _ _ => trivial
  refine ⟨tended.params, tended.arena.modify found (fun _ => ⟨rfl, rfl, rfl, rfl⟩) (.inl rfl) ?_⟩
  rw [inMemory, spilled.1]
  rfl

theorem tends_spillLargest : Tends fanOut again busy free spillLargest := by
  refine follows_get.bind fun input => ?_
  split
  · exact tends_spillPartition.bind fun _ => follows_pure _
  · exact follows_pure _

theorem tends_append (chunk : Chunk) :
    Tends fanOut again busy free (onBuild partition (Partition.append chunk)) :=
  tends_onBuild (Partition.abides_append chunk)

theorem tends_appendCharged
    (bytes : Nat)
    (chunk : Chunk) :
    Tends fanOut again busy free (appendCharged partition bytes chunk) := by
  refine bears_of_ends fun input tended => ?_
  unfold appendCharged
  rw [ends_bind, ends_attempt]
  exact ((tends_append chunk).of_bears tended).mono (fun _ _ tended => tended) fun _ _ _ => trivial

theorem tends_appendBuild (chunk : Chunk) : Tends fanOut again busy free (appendBuild partition chunk) := by
  refine follows_record.bind fun target => ?_
  split
  · exact tends_append chunk
  refine (tends_tryCharge _).bind fun fits => ?_
  split
  · exact tends_appendCharged _ chunk
  refine tends_spillLargest.bind fun _ => follows_record.bind fun target => ?_
  split
  · exact tends_append chunk
  refine (tends_tryCharge _).bind fun fits => ?_
  split
  · exact tends_appendCharged _ chunk
  · exact tends_spillPartition.bind fun _ => tends_append chunk

theorem tends_appendProbe (chunk : Chunk) : Tends fanOut again busy free (appendProbe partition chunk) :=
  follows_get.bind fun _ => tends_onProbe (follows_fail _) _

theorem tends_addBuildChunk (chunk : Chunk) : Tends fanOut again busy free (addBuildChunk chunk) :=
  follows_checkCancelled.bind fun _ => follows_get.bind fun _ =>
    follows_route (fun _ _ => tends_appendBuild) _ _ chunk

theorem tends_restoreBuildBlock (block : Nat) :
    Tends fanOut again busy free (restoreBuildBlock partition block) :=
  tends_onBuild (Partition.abides_of_keeps fun before => Partition.keeps_restoreBlock before block)

theorem tends_restoreProbeBlock (block : Nat) :
    Tends fanOut again busy free (restoreProbeBlock partition block) :=
  tends_onProbe (follows_pure _) _

theorem tends_releaseProbe : Tends fanOut again busy free (releaseProbe partition) :=
  tends_onProbe (follows_pure _) _

/-! ## Closing partitions -/

/-- A partition that can be closed, or is being split, is moved to another state. -/
theorem tends_setState
    {state : PartitionState}
    (moves : (∃ count, busy = some (partition, count)) ∨
      free partition ∧ state ≠ .opened ∧ state ≠ .repartitioned) :
    Tends fanOut again busy free (setState partition state) := by
  refine follows_modify fun input _ tended => ?_
  refine ⟨tended.params, ?_⟩
  cases found : input.arena.records[partition]? with
  | none =>
      rw [Arena.modify_of_none found]
      exact tended.arena
  | some record =>
      exact tended.arena.modify found (fun _ => ⟨rfl, rfl, rfl, rfl⟩) (.inr moves) rfl

theorem tends_loadBuild (closable : free partition) : Tends fanOut again busy free (loadBuild partition) := by
  refine (tends_setState (.inr ⟨closable, by decide, by decide⟩)).bind fun _ =>
    follows_record.bind fun loading => ?_
  split
  · exact follows_pure _
  refine (tends_onBuild (Partition.abides_of_keeps Partition.keeps_reload)).bind fun chunks => ?_
  have charges : Tends fanOut again busy free (chargeBytes loading.build.estimatedSize) :=
    follows_modify fun _ _ tended => ⟨tended.params, tended.arena⟩
  refine charges.bind fun _ => (follows_modify fun _ _ tended => ?_).bind fun _ => follows_pure _
  exact ⟨tended.params, tended.arena⟩

theorem tends_complete (closable : free partition) : Tends fanOut again busy free (complete partition) := by
  refine follows_record.bind fun record => (tends_onBuild Partition.abides_release).bind fun _ =>
    tends_releaseProbe.bind fun _ =>
    (tends_setState (.inr ⟨closable, by decide, by decide⟩)).bind fun _ =>
    (tends_releaseBytes _).bind fun _ => follows_get.bind fun input => ?_
  split
  · exact follows_pure _
  · exact (follows_modify fun _ _ tended => ⟨tended.params, tended.arena⟩).bind fun _ =>
      tends_releaseBytes _

theorem tends_keepNonEmpty
    {children : List Nat}
    (closable : ∀ child ∈ children, free child) :
    Tends fanOut again busy free (keepNonEmpty children) := by
  induction children with
  | nil => exact follows_pure _
  | cons child rest inductionHypothesis =>
      rw [List.forall_mem_cons] at closable
      have later := inductionHypothesis closable.2
      refine follows_record.bind fun record => ?_
      split
      · exact (tends_setState (.inr ⟨closable.1, by decide, by decide⟩)).bind fun _ =>
          tends_releaseProbe.bind fun _ => later
      · exact later.bind fun _ => follows_pure _

/-! ## Splitting partitions -/

/-- A partition that is being split gets one child for each of the next buckets, and they can be closed. -/
theorem ends_addChildren_tended
    {first : Nat}
    (tended : input.Tended fanOut again (some (partition, first)) free)
    (growing : ¬ free partition)
    (level count : Nat) :
    (addChildren partition level (List.range' first count)).Ends input
      (fun children after => after.Tended fanOut again (some (partition, first + count)) fun other =>
        free other ∨ other ∈ children)
      fun _ _ => True := by
  induction count generalizing input first free with
  | zero => exact ⟨tended.params, tended.arena.mono fun other is => is.resolve_right List.not_mem_nil⟩
  | succ count inductionHypothesis =>
      rw [List.range'_succ, addChildren, ends_bind, ends_get, ends_bind]
      refine ends_onArena (fun child arena added => ?_) fun _ => trivial
      have next := tended.arena.add added rfl rfl rfl rfl rfl growing
      have apart : partition ≠ child := by
        obtain ⟨rfl, -, -, admits, -⟩ := Arena.of_add_eq_ok added
        obtain ⟨above, there, -⟩ := admits partition rfl
        exact Nat.ne_of_lt (Array.getElem?_eq_some_iff.mp there).1
      have grown : ({ input with arena } : Partitioned).Tended fanOut again
          (some (partition, first + 1)) fun other => free other ∨ other = child :=
        ⟨tended.params, next⟩
      rw [ends_bind]
      refine (inductionHypothesis grown fun is => is.elim growing apart).mono
        (fun others after tended => ⟨tended.params, ?_⟩) fun _ _ _ => trivial
      rw [Nat.add_comm count 1, ← Nat.add_assoc]
      refine tended.arena.mono fun other is => ?_
      simpa [or_assoc] using is

/-- After all its children were added, a partition is given up, marked, and counted as split. -/
theorem ends_giveUp_tended
    {children : List Nat}
    (tended : input.Tended fanOut again (some (partition, fanOut)) free)
    (closable : ∀ child ∈ children, free child)
    (positive : 0 < fanOut) :
    (do
      onBuild partition Partition.release
      releaseProbe partition
      setState partition .repartitioned
      modify fun input => { input with repartitions := input.repartitions + 1 }
      keepNonEmpty children : Step Partitioned (List Nat)).Ends input
      (fun _ after => after.Tended fanOut again none free) fun _ _ => True := by
  rw [ends_bind]
  refine ((tends_onBuild Partition.abides_release).of_bears tended).mono (fun _ first tended => ?_)
    fun _ _ => id
  rw [ends_bind]
  refine (tends_releaseProbe.of_bears tended).mono (fun _ second tended => ?_) fun _ _ => id
  obtain ⟨record, found, -⟩ := tended.arena.growing rfl
  have marked : Tended fanOut again (some (partition, fanOut)) free { second with
      arena := second.arena.modify partition fun record => { record with state := .repartitioned } } :=
    (tends_setState (.inl ⟨fanOut, rfl⟩)).of_bears tended
  rw [ends_bind, setState, changeRecord, ends_modify, ends_bind, ends_modify]
  refine (tends_keepNonEmpty closable).of_bears ⟨marked.params, ?_⟩
  exact marked.arena.finish (getElem?_modify_state found .repartitioned) rfl positive

/-- A partition without children that is split gets a child for each bucket. -/
theorem ends_repartition_tended
    (tended : input.Tended fanOut again none free)
    (found : input.arena.records[partition]? = some record)
    (bare : record.children = []) :
    (repartition partition).Ends input
      (fun _ after => after.Tended fanOut again none fun _ => False) fun _ _ => True := by
  have positive : 0 < fanOut := tended.params ▸ FanOut.pos_of_valid input.valid.partitionCount
  have begun : input.Tended fanOut again (some (partition, 0)) fun _ => False :=
    ⟨tended.params, tended.arena.begin found bare⟩
  unfold repartition
  rw [ends_bind, ends_record_of found, ends_bind, ends_get]
  dsimp only
  rw [ends_ite]
  refine ⟨fun _ => trivial, fun _ => ?_⟩
  rw [ends_bind]
  refine ((tends_setState (.inl ⟨0, rfl⟩)).of_bears begun).mono (fun _ opened begun => ?_) fun _ _ => id
  rw [ends_bind, tended.params, List.range_eq_range']
  refine (ends_addChildren_tended begun id _ _).mono (fun children grown growing => ?_) fun _ _ => id
  rw [Nat.zero_add] at growing
  -- From here on rows are dealt out, which changes sides only, until the partition is given up.
  have given : ∀ {dealt : Partitioned}, dealt.Tended fanOut again (some (partition, fanOut))
      (fun other => False ∨ other ∈ children) → (do
        onBuild partition Partition.release
        releaseProbe partition
        setState partition .repartitioned
        modify fun input => { input with repartitions := input.repartitions + 1 }
        keepNonEmpty children : Step Partitioned (List Nat)).Ends dealt
          (fun _ after => after.Tended fanOut again none fun _ => False) fun _ _ => True :=
    fun dealt => (ends_giveUp_tended dealt (fun _ => .inr) positive).mono
      (fun _ _ tended => ⟨tended.params, tended.arena.mono fun _ => False.elim⟩) fun _ _ => id
  refine (ends_bind _ _).mpr (ends_record (fun source _ => ?_) fun _ => trivial)
  rw [ends_bind]
  refine ((follows_streamBlocks tends_restoreBuildBlock
    (follows_route (fun _ _ => tends_appendBuild) _ _) _).of_bears growing).mono
      (fun _ dealt growing => ?_) fun _ _ => id
  split
  · exact given growing
  · rw [ends_bind]
    refine (follows_probeBlocks.of_bears growing).mono (fun blocks counted growing => ?_) fun _ _ => id
    rw [ends_bind]
    exact ((follows_streamBlocks tends_restoreProbeBlock
      (follows_route (fun _ _ => tends_appendProbe) _ _) _).of_bears growing).mono
        (fun _ _ => given) fun _ _ => id

end Partitioned
end Spillway
