import Spillway.Proofs.Operator.Join
import Spillway.Proofs.Operator.Poised

/-!
# Visits at the end of a join

While the store serves every call and nobody cancels the query, a visit at the end of a join fails only
where it would have to split a partition below the depth limit. It splits a spilled partition with probe
rows and more than one build row that is larger than the memory limit, and nothing else: whenever a spilled
partition is visited nothing is in memory, so the whole of the limit is available.
-/

namespace Spillway

/-- The partition has probe rows, and more than one build row, which are in the store and have more than
so many bytes. -/
structure PartitionRecord.Oversized
    (limit : Nat)
    (record : PartitionRecord) : Prop where
  spilled : record.build.spilled = true
  probed : record.probe.all Partition.isEmpty = false
  divisible : 1 < record.build.rowCount
  large : limit < record.build.estimatedSize

namespace Join

open Step Relation

variable {build probe : ProbeSide} {partition : Nat} {join before after : Join}
  {record : PartitionRecord} {contents : Contents} {precise : Prop}

/-! ## Joining a partition -/

/-- The stored probe rows of a partition are read while it is joined. -/
structure Reading
    (build probe : ProbeSide)
    (setting : Partitioned)
    (partition : Nat)
    (source : Partition)
    (join : Join) : Prop where
  sides : join.Between build probe
  dealing : Partitioned.Dealing setting (.probe, partition) source [] join.input

section Reading

variable {setting : Partitioned} {source : Partition} {table : JoinTable}
  (keyed : probe.Keyed) (schema : table.build.schema = build.schema)
include keyed schema

/-- A chunk of the probe side can be joined with a table of build rows. -/
theorem ends_joinWith
    {chunk : Chunk}
    (sides : join.Between build probe)
    (fits : chunk.schema = probe.schema) :
    (joinWith table chunk).Ends join (fun _ after => after = join) fun _ _ => False := by
  obtain ⟨joined, found⟩ := JoinTable.exists_joinChunk keyed schema fits
  rw [joinWith, ends_bind, ends_get, ends_bind, outputSchema, sides.own, sides.buildSchema, found]
  exact rfl

theorem upholds_joinWith
    {chunk : Chunk}
    (fits : chunk.schema = probe.schema) :
    (joinWith table chunk).Upholds (Reading build probe setting partition source) :=
  fun _ reading => (ends_joinWith keyed schema reading.sides fits).mono
    (fun _ _ same => same ▸ reading) fun _ _ => id

theorem upholds_joinBlocks
    {blocks : List Nat}
    (spilled : source.spilled = true)
    (inside : ∀ block ∈ blocks, block < source.blockCount) :
    (joinBlocks partition table blocks).Upholds (Reading build probe setting partition source) := by
  induction blocks with
  | nil => exact upholds_pure _
  | cons block blocks inductionHypothesis =>
      obtain ⟨first, later⟩ := List.forall_mem_cons.mp inside
      intro join reading
      have declares : setting.side? (Side.probe, partition).1 = some probe :=
        (congrFun reading.dealing.side? .probe).symm.trans reading.sides.probeSide
      rw [joinBlocks, ends_bind, ends_onInput]
      refine (reading.dealing.ready.serves_checkCancelled.and_succeeds).mono
        (fun _ between checked => ?_) fun _ _ => id
      obtain ⟨-, rfl⟩ := Partitioned.succeeds_checkCancelled.mp checked.1
      rw [ends_bind, ends_onInput]
      refine (reading.dealing.ends_restore declares spilled first
        (Partitioned.restores_restoreProbeBlock partition)
        (Partitioned.follows_restoreProbeBlock trivial block) fun stores inside => ?_).mono
        (fun chunks read restored => ?_) fun _ _ => id
      · exact Partitioned.serves_restoreProbeBlock reading.dealing.ready.reliable reading.dealing.source
          stores inside
      obtain ⟨dealing, fits⟩ := restored
      have sides : Between { join with input := read } build probe :=
        reading.sides.transfer (dealing.side?.trans reading.dealing.side?.symm) rfl
      have joins : (chunks.mapM (joinWith table)).Upholds
          (Reading build probe setting partition source) :=
        .mapM fun chunk member => upholds_joinWith keyed schema (fits chunk member)
      exact (joins.bind fun _ => (inductionHypothesis later).bind fun _ => upholds_pure _) _
        ⟨sides, dealing⟩

end Reading

/-- Whatever its size, a partition can be joined. -/
theorem serves_joinPartition
    (sides : join.Between build probe)
    (buildKeyed : build.Keyed)
    (probeKeyed : probe.Keyed)
    (undisturbed : join.input.Undisturbed)
    (probed : join.input.Probed)
    (holds : join.input.Holds precise contents)
    (found : join.input.arena.records[partition]? = some record) :
    (joinPartition partition).Serves join := by
  rw [joinPartition, Serves, ends_bind, ends_onInput]
  refine ((Partitioned.serves_loadBuild undisturbed.reliable holds found).ends
    ((Partitioned.ends_loadBuild_evolves join.input).and (ends_outcome _ _))).mono
    (fun chunks loaded loads => ?_) fun _ _ => id
  obtain ⟨⟨evolves, -, -⟩, succeeds⟩ := loads
  obtain ⟨-, suits, loadedHolds, outline, -⟩ := Partitioned.succeeds_loadBuild succeeds holds
  have loadedSides : Between { join with input := loaded } build probe :=
    sides.transfer (congrArg Outline.side? outline) rfl
  have fits : ∀ chunk ∈ chunks, chunk.schema = build.schema :=
    fun chunk member => (suits chunk member).schema_eq.trans sides.buildSchema
  obtain ⟨table, made, schema⟩ := JoinTable.exists_ofChunks buildKeyed fits
  rw [ends_bind, ends_get, ends_bind]
  dsimp only
  rw [loadedSides.buildSchema, loadedSides.buildKey, made]
  obtain ⟨now, here, -⟩ := evolves.exists_record found
  have declared : loaded.probeSide = some probe := loadedSides.probeSide
  have has := evolves.probed probed _ _ here
  rw [declared, Option.isSome_some, Option.isSome_iff_exists] at has
  obtain ⟨side, has⟩ := has
  have source := (Arena.part?_probe here).trans has
  refine .of_ok rfl ?_
  rw [ends_bind, ends_onInput]
  refine .of_ok (Partitioned.succeeds_probeBlocks here has) ?_
  have reading : Reading build probe loaded partition side { join with input := loaded } :=
    ⟨loadedSides, ⟨evolves.undisturbed undisturbed, evolves.probed probed, by simp⟩,
      ⟨_, loadedHolds.relax⟩, rfl, source⟩
  rw [ends_bind]
  refine (upholds_joinBlocks probeKeyed schema
    (loadedHolds.spilled _ _ source) (fun _ => List.mem_range.mp) _ reading).mono
    (fun output read reading => ?_) fun _ _ => id
  obtain ⟨last, there, -⟩ := Option.bind_eq_some_iff.mp reading.dealing.source
  rw [ends_bind, ends_onInput]
  exact (Partitioned.serves_complete there).mono (fun _ _ _ => trivial) fun _ _ => id

/-! ## The state between visits -/

/-- Nothing can be joined: every partition lacks build rows or probe rows. -/
def Idle (input : Partitioned) : Prop :=
  ∀ (partition : Nat) (record : PartitionRecord), input.arena.records[partition]? = some record →
    (record.build.isEmpty || record.probe.all Partition.isEmpty) = true

/-- A join between two visits, with the partitions that are still to be visited on a stack. -/
structure Steady
    (build probe : ProbeSide)
    (others : Nat → Nat)
    (stack : List Nat)
    (join : Join) : Prop where
  sound : join.input.Sound
  accounted : join.input.Accounted others [] 0
  owes : ∃ due, Owes False build probe join due
  keyed : build.Keyed ∧ probe.Keyed ∨ Idle join.input
  remaining : join.input.Remaining stack
  layered : join.input.Layered stack
  distinct : stack.Nodup
  known : ∀ partition ∈ stack, partition < join.input.arena.size

theorem Steady.poised
    {others : Nat → Nat}
    {stack : List Nat}
    (steady : Steady build probe others stack join) :
    Poised others stack join :=
  ⟨steady.accounted, steady.remaining, steady.layered, steady.distinct, steady.known⟩

section Steady

variable {others : Nat → Nat} {rest : List Nat}
  (steady : Steady build probe others (partition :: rest) join)
include steady

/-- Whenever a spilled partition is visited, the whole of the memory limit is available. -/
theorem Steady.available_eq
    (found : join.input.arena.records[partition]? = some record)
    (spilled : record.build.spilled = true) :
    join.input.ledger.available join.input.account = join.input.params.memLimit := by
  have unused : (join.input.ledger.account join.input.account).used = 0 :=
    steady.poised.used_eq found spilled
  rw [Ledger.available, Account.available, steady.sound.limit, unused, Nat.sub_zero]

omit steady in
/-- A partition in which nothing can be joined is not oversized. -/
theorem not_oversized_of_empty
    {limit : Nat}
    (empty : (record.build.isEmpty || record.probe.all Partition.isEmpty) = true) :
    ¬ record.Oversized limit := by
  intro oversized
  have divisible := oversized.divisible
  rw [oversized.probed, Bool.or_false, Partition.isEmpty, decide_eq_true_eq] at empty
  rw [empty] at divisible
  cases divisible

/-- After a partition was completed nothing more can be joined. -/
theorem Steady.keyed_of_completes
    {after : Partitioned}
    (completes : Partitioned.Completes partition join.input after)
    (spares : Partitioned.Spares partition true join.input after) :
    build.Keyed ∧ probe.Keyed ∨ Idle after := by
  obtain ⟨closed, there, done⟩ := completes.done
  refine steady.keyed.imp_right fun idle other another found => ?_
  by_cases same : other = partition
  · rw [same, there, Option.some.injEq] at found
    rw [Bool.or_eq_true, ← found, done.build]
    exact .inl rfl
  · exact idle other another ((spares other same).symm.trans found)

/-- A spilled partition is split above the depth limit, if the arena has room. -/
theorem Steady.ends_repartition
    (keyed : build.Keyed ∧ probe.Keyed)
    (found : join.input.arena.records[partition]? = some record)
    (spilled : record.build.spilled = true) :
    (Partitioned.repartition partition).Ends join.input
      (fun _ _ => record.level + 1 < join.input.params.maxDepth)
      fun status after =>
        record.level + 1 = join.input.params.maxDepth ∧ status.code = .resourceLimitExceeded ∧
          after = join.input ∨
        record.level + 1 < join.input.params.maxDepth ∧ Partitioned.Overflows join.input after := by
  obtain ⟨_, contents, sides, holds, -, -⟩ := steady.owes
  have sideKeyed : ∀ side declared, join.input.side? side = some declared → declared.Keyed := by
    intro side declared declares
    cases side with
    | build =>
        rw [sides.buildSide, Option.some.injEq] at declares
        exact declares ▸ keyed.1
    | probe =>
        rw [sides.probeSide, Option.some.injEq] at declares
        exact declares ▸ keyed.2
  refine (Partitioned.ends_repartition_served steady.sound.toUndisturbed steady.sound.probed holds
    sideKeyed found spilled).mono (fun _ _ => id) fun status after failed => ?_
  obtain ⟨deep, rfl, rfl⟩ | ⟨above, -, overflows⟩ := failed
  · exact .inl ⟨Nat.le_antisymm (steady.sound.shallow _ _ found) deep, rfl, rfl⟩
  · exact .inr ⟨above, overflows⟩

/-- A visit splits its partition if that is oversized, and cannot do so below the depth limit or in a full
arena. Otherwise it completes the partition. -/
theorem Steady.ends_visit
    (found : join.input.arena.records[partition]? = some record) :
    (visit partition).Ends join
      (fun result after => after.input.Layered (result.left ++ rest) ∧
        (build.Keyed ∧ probe.Keyed ∨ Idle after.input) ∧
        match result with
        | .done _ => ¬ record.Oversized join.input.params.memLimit
        | .split _ => record.Oversized join.input.params.memLimit ∧
            record.level + 1 < join.input.params.maxDepth)
      fun status after => record.Oversized join.input.params.memLimit ∧
        (record.level + 1 = join.input.params.maxDepth ∧ status.code = .resourceLimitExceeded ∧
          after = join ∨
          record.level + 1 < join.input.params.maxDepth ∧
            Partitioned.Overflows join.input after.input) := by
  refine ((steady.poised.ends_visit_layered found).and ?_).mono (fun _ _ => id) fun _ _ => And.right
  obtain ⟨_, contents, sides, holds, -, -⟩ := steady.owes
  have keyed : ¬ (record.build.isEmpty || record.probe.all Partition.isEmpty) = true →
      build.Keyed ∧ probe.Keyed :=
    fun some => steady.keyed.resolve_right fun idle => some (idle partition record found)
  refine VisitEnds.ends ⟨?cancelled, ?closed, ?completed, ?divided, ?joined⟩ found
  case cancelled =>
    exact steady.sound.serves_checkCancelled.mono (fun _ _ _ => trivial) fun _ _ => False.elim
  case closed =>
    intro closed
    have done := (steady.remaining.records _ _ found).resolve_right fun left => closed left.2
    exact ⟨steady.keyed, not_oversized_of_empty (by rw [done.build]; rfl)⟩
  case completed =>
    intro _ empty
    exact ((Partitioned.serves_complete found).ends ((Partitioned.ends_complete _).and
      (Partitioned.spares_complete _))).mono (fun _ _ completed =>
        ⟨steady.keyed_of_completes completed.1 completed.2, not_oversized_of_empty empty⟩)
        fun _ _ => False.elim
  case divided =>
    intro _ some spilled divisible large
    rw [steady.available_eq found spilled] at large
    have probed := (Bool.or_eq_false_iff.mp (Bool.eq_false_iff.mpr some)).2
    have oversized : record.Oversized join.input.params.memLimit := ⟨spilled, probed, divisible, large⟩
    refine (steady.ends_repartition (keyed some) found spilled).mono
      (fun _ _ shallow _ _ => ⟨.inl (keyed some), oversized, shallow⟩)
      fun _ _ failed => ⟨oversized, failed.imp_left ?_⟩
    rintro ⟨deep, code, rfl⟩
    exact ⟨deep, code, rfl⟩
  case joined =>
    intro _ some small
    have notOversized : ¬ record.Oversized join.input.params.memLimit := by
      rintro ⟨spilled, -, divisible, large⟩
      exact small ⟨spilled, divisible, steady.available_eq found spilled ▸ large⟩
    exact ((serves_joinPartition sides (keyed some).1 (keyed some).2 steady.sound.toUndisturbed
      steady.sound.probed holds found).ends
        ((ends_joinPartition_completes join).and (spares_joinPartition join))).mono
      (fun _ _ joined => ⟨steady.keyed_of_completes joined.1.1 joined.2.1, notOversized⟩)
      fun _ _ => False.elim

/-- A visit that is met leaves the join as it found it, with what the partition was split into on top of
the stack. -/
theorem Steady.next
    {result : Visit Chunk}
    (succeeds : (visit partition).Succeeds join result after) :
    Steady build probe others (result.left ++ rest) after := by
  have known := steady.known partition List.mem_cons_self
  obtain ⟨record, found⟩ := Arena.exists_record_of_lt known
  obtain ⟨-, keyed, -⟩ := (steady.ends_visit found).of_succeeds succeeds
  have evolves := ((ends_visit_leaves join).of_succeeds succeeds).1.evolves
  obtain ⟨due, owes⟩ := steady.owes
  obtain ⟨left, stillOwes, -⟩ := conserves_visit succeeds owes known
  have next := steady.poised.next succeeds
  exact
    { sound := evolves.sound steady.sound
      accounted := next.accounted
      owes := ⟨left, stillOwes⟩
      keyed
      remaining := next.remaining
      layered := next.layered
      distinct := next.distinct
      known := next.known }

end Steady

end Join
end Spillway
