import Spillway.Proofs.Operator.Aggregation
import Spillway.Proofs.Operator.Collisions
import Spillway.Proofs.Operator.Splitting
import Spillway.Proofs.Operator.Tallying

/-!
# Visits at the end of an aggregation

While the store serves every call and nobody cancels the query, there are three reasons for which the end
of an aggregation can fail: a sum leaves the range of 64-bit integers, a partition with several keys would
have to be split below the depth limit, or the arena is full. What the partitions hold on the way, and
where a sum is that is going to leave the range, is kept up from one visit to the next.
-/

namespace Spillway

open Step

variable {side : ProbeSide} {aggregates : List Aggregate} {rows : List Row}

namespace Partitioned

variable {input before after : Partitioned} {contents : Contents} {partition : Nat}
  {place : PartitionPlace} {key : Option Key}

/-- The build side is served by the store for as long as there is work, and there is no probe side. -/
structure Served (input : Partitioned) : Prop extends Undisturbed input where
  probed : input.Probed
  shallow : input.Shallow
  alone : input.probeSide = none

theorem Evolves.served
    {targets : Nat → Prop}
    {met : Bool}
    (evolves : Evolves targets met before after)
    (served : before.Served) :
    after.Served where
  toUndisturbed := evolves.undisturbed served.toUndisturbed
  probed := evolves.probed served.probed
  shallow := evolves.shallow served.shallow
  alone := (congrArg Setting.probeSide evolves.setting_eq).trans served.alone

/-- A sum that leaves the range within a partition leaves it among all rows. -/
theorem Routes.exceeds
    (routes : input.Routes side rows contents)
    (found : input.arena.place? partition = some place)
    (exceeds : side.Exceeds aggregates (contents (.build, partition)) key) :
    side.Exceeds aggregates rows key := by
  obtain ⟨keys, own, -⟩ := routes partition place found
  rw [own] at exceeds
  exact (ProbeSide.exceeds_filter_iff.mp exceeds).2

end Partitioned

/-- Rows of the side can be grouped: what is aggregated are integers, and without a key there are no
rows. -/
structure ProbeSide.Groups
    (side : ProbeSide)
    (aggregates : List Aggregate)
    (rows : List Row) : Prop where
  checked : ∀ aggregate ∈ aggregates, Aggregation.checkAggregate side.schema aggregate = .ok ()
  keyed : rows ≠ [] → side.Keyed

namespace Aggregation

variable {aggregation after : Aggregation} {partition : Nat} {status : Status}
  {contents left : Contents} {work rest : List Nat} {place : PartitionPlace} {record : PartitionRecord}

/-! ## Steps that are served -/

/-- Chunks are taken into a table, unless a sum leaves the range. -/
theorem ends_addChunks
    {table : GroupTable}
    {taken : List Row}
    {chunks : List Chunk}
    (asks : aggregation.Asks side aggregates)
    (sums : table.Sums side aggregates taken)
    (groups : side.Groups aggregates (chunks.flatMap Chunk.rows))
    (fits : ∀ chunk ∈ chunks, chunk.schema = side.schema) :
    (addChunks table chunks).Ends aggregation
      (fun next after => after = aggregation ∧
        next.Sums side aggregates (taken ++ chunks.flatMap Chunk.rows))
      fun status _ => status = AggregationFault.sumRange.status ∧
        ∃ key, side.Exceeds aggregates (taken ++ chunks.flatMap Chunk.rows) key := by
  have takes := sums.addChunks fits groups.checked groups.keyed
  rw [addChunks, ends_bind, ends_get, asks.aggregates, asks.buildKey]
  generalize chunks.foldlM (GroupTable.addChunk aggregates side.key) table = result at takes ⊢
  cases takes with
  | taken sums => exact ⟨rfl, sums⟩
  | exceeded exceeds => exact ⟨rfl, _, exceeds⟩

/-- The groups of a table can be put together. -/
theorem serves_emit
    {table : GroupTable}
    {taken : List Row}
    (asks : aggregation.Asks side aggregates)
    (tallies : table.Tallies side aggregates taken) :
    (emit table).Serves aggregation := by
  rw [emit, Serves, ends_ite]
  refine ⟨fun _ => trivial, fun _ => ?_⟩
  rw [ends_bind, ends_get, ends_bind,
    Chunk.assemble_of_fits (tallies.admits_groups asks.aggregates)]
  trivial

/-- Blocks are taken into a table, unless a sum leaves the range. A table is thrown away only if there are
rows of different keys. -/
theorem ends_addBlocks
    {table : GroupTable}
    {taken whole : List Row}
    {part : Partition}
    {stored : List (List Chunk)}
    {positions : List Nat}
    (undisturbed : aggregation.input.Undisturbed)
    (asks : aggregation.Asks side aggregates)
    (sums : table.Sums side aggregates taken)
    (found : aggregation.input.arena.part? (.build, partition) = some part)
    (held : part.Stored aggregation.input.area.store stored)
    (groups : ∀ segment ∈ part.segments stored, side.Groups aggregates (segment.flatMap Chunk.rows))
    (fits : ∀ segment ∈ part.segments stored, ∀ chunk ∈ segment, chunk.schema = side.schema)
    (inside : ∀ position ∈ positions, position < (part.segments stored).length)
    (reads : (taken ++ positions.flatMap fun position =>
      ((part.segments stored)[position]?.getD []).flatMap Chunk.rows) = whole) :
    (addBlocks partition table positions).Ends aggregation
      (fun result _ =>
        match result with
        | some next => next.Sums side aggregates whole
        | none => side.Varies whole)
      fun status _ => status = AggregationFault.sumRange.status ∧
        ∃ key, side.Exceeds aggregates whole key := by
  induction positions generalizing aggregation table taken with
  | nil =>
      rw [List.flatMap_nil, List.append_nil] at reads
      exact reads ▸ sums
  | cons position positions inductionHypothesis =>
      obtain ⟨first, later⟩ := List.forall_mem_cons.mp inside
      rw [addBlocks, ends_bind, ends_onInput]
      refine (undisturbed.serves_checkCancelled.and_succeeds).mono (fun _ between checked => ?_)
        fun _ _ => False.elim
      obtain ⟨-, rfl⟩ := Partitioned.succeeds_checkCancelled.mp checked.1
      rw [ends_bind, ends_onInput]
      refine ((Partitioned.serves_restoreBuildBlock undisturbed.reliable found held first).ends
        ((Partitioned.follows_restoreBuildBlock (Partitioned.Only.self partition) position _).and
          (ends_outcome _ _))).mono (fun chunks input restored => ?_) fun _ _ => False.elim
      obtain ⟨feeds, succeeds⟩ := restored
      obtain ⟨read, quiet⟩ := Partitioned.restores_restoreBuildBlock partition succeeds found held
      have member := List.mem_of_getElem? read
      have stillAsks : Asks { aggregation with input } side aggregates :=
        asks.transfer (Partitioned.side?_of_outline quiet.outline)
      rw [List.flatMap_cons, read, Option.getD_some, ← List.append_assoc] at reads
      have start : taken ++ chunks.flatMap Chunk.rows <+: whole := reads ▸ List.prefix_append _ _
      rw [ends_bind]
      refine (ends_addChunks stillAsks sums (groups chunks member) (fits chunks member)).mono
        (fun next _ added => ?_) fun _ _ exceeded => ⟨exceeded.1, ?_⟩
      · obtain ⟨rfl, sums⟩ := added
        rw [ends_bind, ends_get, ends_ite]
        -- Besides the size of the table, it must have several groups for it to be given up.
        refine ⟨fun given => (sums.varies given.1).mono start.subset, fun _ => ?_⟩
        exact inductionHypothesis (feeds.evolves.undisturbed undisturbed) stillAsks sums
          (quiet.part? ▸ found) (held.keeps quiet.keeps fun _ _ => List.not_mem_nil) later reads
      · obtain ⟨key, exceeds⟩ := exceeded.2
        obtain ⟨more, rfl⟩ := start
        exact ⟨key, exceeds.append more⟩

section Partition

variable (undisturbed : aggregation.input.Undisturbed) (asks : aggregation.Asks side aggregates)
  (holds : aggregation.input.Holds True contents)
  (groups : side.Groups aggregates (contents (.build, partition)))
  (found : aggregation.input.arena.records[partition]? = some record)
include undisturbed asks holds groups found

/-- All blocks of a spilled partition are taken into a table, unless a sum over its rows leaves the
range. -/
theorem ends_addAllBlocks (spilled : record.build.spilled = true) :
    (addBlocks partition {} (List.range record.build.blockCount)).Ends aggregation
      (fun result after => aggregation.input.Quiet after.input ∧ after.Asks side aggregates ∧
        match result with
        | some next => next.Sums side aggregates (contents (.build, partition))
        | none => side.Varies (contents (.build, partition)))
      fun status _ => status = AggregationFault.sumRange.status ∧
        ∃ key, side.Exceeds aggregates (contents (.build, partition)) key := by
  have there := Arena.part?_build found
  obtain ⟨declared, same, sideHolds⟩ := holds.holds _ _ there
  rw [asks.side?, Option.some.injEq] at same
  subst same
  obtain ⟨segments, held, content, suits⟩ := sideHolds.toStores.exists_segments spilled
  have reads : ([] ++ (List.range record.build.blockCount).flatMap fun position =>
      ((record.build.segments segments)[position]?.getD []).flatMap Chunk.rows) =
        contents (.build, partition) := by
    rw [List.nil_append, ← Partition.length_segments held, ← List.flatMap_assoc,
      Partitioned.flatMap_range_getElem?, content]
  have some : ∀ segment ∈ record.build.segments segments,
      side.Groups aggregates (segment.flatMap Chunk.rows) := by
    refine fun segment member => ⟨groups.checked, fun given => groups.keyed fun none => given ?_⟩
    rw [← content, List.flatMap_eq_nil_iff] at none
    rw [List.flatMap_eq_nil_iff]
    exact fun chunk inside => none chunk (List.mem_flatten_of_mem member inside)
  have fits : ∀ segment ∈ record.build.segments segments, ∀ chunk ∈ segment,
      chunk.schema = side.schema :=
    fun segment inside chunk member => (suits segment inside chunk member).schema_eq
  refine ((ends_addBlocks undisturbed asks GroupTable.sums_empty there held some fits
    (fun position member => ?_) reads).and_succeeds).mono (fun result _ ended => ?_) fun _ _ => id
  · rw [Partition.length_segments held]
    exact List.mem_range.mp member
  · obtain ⟨succeeds, kept⟩ := ended
    obtain ⟨quiet, stillAsks, -⟩ := succeeds_addAllBlocks succeeds asks holds found spilled
    exact ⟨quiet, stillAsks, kept⟩

/-- A partition in memory is aggregated, unless a sum over its rows leaves the range. -/
theorem ends_aggregateInMemory_served :
    (aggregateInMemory partition).Ends aggregation
      (fun _ _ => ∀ key, ¬ side.Exceeds aggregates (contents (.build, partition)) key)
      fun status _ => status = AggregationFault.sumRange.status ∧
        ∃ key, side.Exceeds aggregates (contents (.build, partition)) key := by
  rw [aggregateInMemory, ends_bind, ends_onInput]
  refine ((Partitioned.serves_loadBuild undisturbed.reliable holds found).ends
    ((Partitioned.ends_loadBuild_evolves aggregation.input).and (ends_outcome _ _))).mono
    (fun chunks loaded loads => ?_) fun _ _ => False.elim
  obtain ⟨⟨evolves, -, -⟩, succeeds⟩ := loads
  obtain ⟨read, suits, -, outline, -⟩ := Partitioned.succeeds_loadBuild succeeds holds
  have stillAsks : Asks { aggregation with input := loaded } side aggregates :=
    asks.transfer (congrArg Outline.side? outline)
  rw [ends_bind]
  refine (ends_addChunks stillAsks GroupTable.sums_empty (read ▸ groups) fun chunk member =>
    (suits chunk member).schema_eq.trans asks.buildSchema).mono (fun table _ added => ?_)
    fun _ _ exceeded => ?_
  · obtain ⟨rfl, sums⟩ := added
    rw [List.nil_append, read] at sums
    rw [ends_bind]
    refine ((serves_emit stillAsks sums.toTallies).and_succeeds).mono (fun output emitted emits => ?_)
      fun _ _ => False.elim
    obtain ⟨rfl, -⟩ := succeeds_emit emits.1 stillAsks sums.toTallies
    obtain ⟨record, there, -⟩ := evolves.exists_record found
    rw [ends_bind, ends_onInput]
    exact (Partitioned.serves_complete there).mono (fun _ _ _ => sums.within) fun _ _ => False.elim
  · rwa [List.nil_append, read] at exceeded

end Partition

/-! ## The state between visits -/

/-- An aggregation between two visits, with the partitions that are still to be visited: wherever a sum is
going to leave the range, this will be found in one of them. A split was counted only if there are keys
that collide on the first level. -/
structure Arranged
    (side : ProbeSide)
    (aggregates : List Aggregate)
    (rows : List Row)
    (work : List Nat)
    (contents : Contents)
    (aggregation : Aggregation) : Prop where
  asks : aggregation.Asks side aggregates
  holds : aggregation.input.Holds True contents
  routes : aggregation.input.Routes side rows contents
  known : ∀ partition ∈ work, partition < aggregation.input.arena.size
  due : ∀ key, side.Exceeds aggregates rows key → ∃ partition ∈ work, ∃ place,
    aggregation.input.arena.place? partition = some place ∧ place.state = .opened ∧
      side.Exceeds aggregates (contents (.build, partition)) key
  counted : aggregation.input.repartitions ≠ 0 → aggregation.input.Collides side rows 1

/-- Why the end of an aggregation fails. -/
inductive Refuses
    (side : ProbeSide)
    (aggregates : List Aggregate)
    (rows : List Row)
    (status : Status)
    (input : Partitioned) : Prop
  | exceeded
      {key : Option Key}
      (code : status.code = .arithmeticOverflow)
      (exceeds : side.Exceeds aggregates rows key)
      (counted : input.repartitions ≠ 0 → input.Collides side rows 1)
  | tooDeep
      (code : status.code = .resourceLimitExceeded)
      (collides : input.Collides side rows input.params.maxDepth)
      (counted : input.repartitions ≠ 0 → input.Collides side rows 1)
  | full
      (code : status.code = .resourceLimitExceeded)
      (full : Arena.capacity ≤ input.arena.size)
      (collides : input.Collides side rows 1)

section Arranged

variable (arranged : Arranged side aggregates rows work contents aggregation)
include arranged

/-- Partitions that are closed need not be visited. -/
theorem Arranged.shrink
    (subset : rest ⊆ work)
    (others : ∀ partition ∈ work, ∀ place, aggregation.input.arena.place? partition = some place →
      place.state = .opened → partition ∈ rest) :
    Arranged side aggregates rows rest contents aggregation :=
  { arranged with
    known := fun partition member => arranged.known partition (subset member)
    due := fun key exceeds =>
      let ⟨partition, member, place, found, opened, here⟩ := arranged.due key exceeds
      ⟨partition, others partition member place found opened, place, found, opened, here⟩ }

theorem Arranged.of_quiet
    (quiet : aggregation.input.Quiet after.input)
    (asks : after.Asks side aggregates)
    (unsplit : after.input.repartitions = aggregation.input.repartitions) :
    Arranged side aggregates rows work contents after where
  asks := asks
  holds := quiet.holds arranged.holds
  routes := arranged.routes.of_quiet quiet
  known := by
    rw [Partitioned.size_of_outline quiet.outline]
    exact arranged.known
  due := by
    rw [Partitioned.place?_of_outline quiet.outline]
    exact arranged.due
  counted := by
    rw [unsplit, Partitioned.collides_of_params (Partitioned.params_of_outline quiet.outline)]
    exact arranged.counted

/-- A partition none of whose sums leaves the range may be settled. -/
theorem Arranged.settled
    (settles : aggregation.input.Settles True after.input partition contents left)
    (asks : after.Asks side aggregates)
    (unsplit : after.input.repartitions = aggregation.input.repartitions)
    (within : ∀ key, ¬ side.Exceeds aggregates (contents (.build, partition)) key)
    (subset : rest ⊆ work)
    (others : ∀ other ∈ work, other ≠ partition → other ∈ rest) :
    Arranged side aggregates rows rest left after where
  asks := asks
  holds := settles.holds
  routes := arranged.routes.of_settles settles
  known := by
    rw [settles.size]
    exact fun other member => arranged.known other (subset member)
  due := by
    intro key exceeds
    obtain ⟨other, member, place, found, opened, here⟩ := arranged.due key exceeds
    have different : other ≠ partition := by
      rintro rfl
      exact within key here
    refine ⟨other, others other member different, place, ?_, opened, ?_⟩
    · rw [settles.places other different, found]
    · rwa [settles.others .build other different]
  counted := by
    rw [unsplit, Partitioned.collides_of_params settles.params]
    exact arranged.counted

end Arranged

/-- A partition with rows of different keys may be split: a sum that leaves the range within it does so
within the child to which the key belongs. -/
theorem Arranged.divided
    {divided : Contents}
    {order : List Nat}
    (arranged : Arranged side aggregates rows (partition :: rest) contents aggregation)
    (divides : aggregation.input.Divides True after.input partition place contents divided)
    (asks : after.Asks side aggregates)
    (found : aggregation.input.arena.place? partition = some place)
    (varies : side.Varies (contents (.build, partition)))
    (permuted : order.Perm (aggregation.input.nextChildren.filter fun child =>
      !(divided (.build, child)).isEmpty)) :
    Arranged side aggregates rows (order ++ rest) divided after where
  asks := asks
  holds := divides.holds
  routes := arranged.routes.of_divides divides found arranged.asks.side?
  known := by
    intro other member
    rw [divides.size]
    obtain child | old := List.mem_append.mp member
    · obtain ⟨bucket, bounded, rfl⟩ :=
        Partitioned.mem_nextChildren.mp (List.mem_of_mem_filter (permuted.mem_iff.mp child))
      exact Nat.add_lt_add_left bounded _
    · exact Nat.lt_of_lt_of_le (arranged.known other (List.mem_cons_of_mem _ old))
        (Nat.le_add_right _ _)
  due := by
    intro key exceeds
    obtain ⟨other, member, placed, there, opened, here⟩ := arranged.due key exceeds
    by_cases same : other = partition
    -- The sum goes to the child of its key's bucket, which is visited since it has rows.
    · subst same
      let directory := aggregation.input.directory (place.level + 1)
      let child := aggregation.input.arena.size + directory.bucketOfKey key
      have bounded : directory.bucketOfKey key < aggregation.input.params.partitionCount :=
        Directory.bucketOfKey_lt _ _
      have passed : side.Exceeds aggregates (divided (.build, child)) key := by
        rw [divides.build trivial _ bounded]
        simp only [Partitioned.bucketOf_of_side? arranged.asks.side?]
        exact (@ProbeSide.exceeds_filter_iff side aggregates _ key fun other =>
          directory.bucketOfKey other = directory.bucketOfKey key).mpr ⟨decide_eq_true rfl, here⟩
      have some : divided (.build, child) ≠ [] := by
        intro none
        rw [none] at passed
        exact ProbeSide.not_exceeds_nil passed
      refine ⟨child, List.mem_append_left _ (permuted.mem_iff.mpr (List.mem_filter.mpr ⟨?_, ?_⟩)), _,
        divides.child _ bounded, if_neg some, passed⟩
      · exact Partitioned.mem_nextChildren.mpr ⟨_, bounded, rfl⟩
      · rw [List.isEmpty_eq_false_iff.mpr some]
        rfl
    · have old := Arena.lt_size_of_place? there
      refine ⟨other, List.mem_append_right _ ((List.mem_cons.mp member).resolve_left same), placed, ?_,
        opened, ?_⟩
      · rw [divides.places other old same, there]
      · rwa [divides.others .build other old same]
  counted := by
    intro _
    rw [Partitioned.collides_of_params divides.params]
    exact (arranged.routes.collides found varies).mono (Nat.le_add_left _ _)

/-! ## Visits -/

theorem splitsNone_aggregateInMemory :
    (aggregateInMemory partition).Follows (along Aggregation.input Partitioned.SplitsNone) :=
  (follows_onInput Partitioned.splitsNone_loadBuild).bind fun _ => (follows_addChunks _ _).bind fun table =>
    (follows_emit table).bind fun _ => (follows_onInput Partitioned.splitsNone_complete).bind fun _ =>
    follows_pure _

section Visit

variable (groups : side.Groups aggregates rows) (served : aggregation.input.Served)

section Arranged

variable (arranged : Arranged side aggregates rows work contents aggregation)
include arranged

/-- A partition none of whose sums leaves the range may be completed. -/
theorem Arranged.ends_complete
    (found : aggregation.input.arena.records[partition]? = some record)
    (within : ∀ key, ¬ side.Exceeds aggregates (contents (.build, partition)) key)
    (subset : rest ⊆ work)
    (others : ∀ other ∈ work, other ≠ partition → other ∈ rest) :
    (onInput (Partitioned.complete partition)).Ends aggregation
      (fun _ after => Partitioned.Completes partition aggregation.input after.input ∧
        ∃ left, Arranged side aggregates rows rest left after)
      fun _ _ => False := by
  rw [ends_onInput]
  refine (((Partitioned.serves_complete found).ends ((Partitioned.splitsNone_complete _).and
    (ends_outcome _ _))).and (Partitioned.ends_complete _)).mono (fun _ _ completed => ?_)
    fun _ _ failed => failed.1
  obtain ⟨⟨unsplit, succeeds⟩, completes⟩ := completed
  obtain ⟨left, settles⟩ := Partitioned.succeeds_complete succeeds arranged.holds
  exact ⟨completes, left, arranged.settled settles (arranged.asks.transfer settles.side?) unsplit within
    subset others⟩

/-- The rows of each partition can be grouped. -/
theorem Arranged.groups_contents
    (groups : side.Groups aggregates rows)
    (found : aggregation.input.arena.records[partition]? = some record) :
    side.Groups aggregates (contents (.build, partition)) := by
  obtain ⟨keys, own, -⟩ := arranged.routes _ _ (Arena.place?_of_record found)
  refine ⟨groups.checked, fun given => groups.keyed fun none => given ?_⟩
  rw [own, none, List.filter_nil]

/-- A sum over the rows of a partition that leaves the range is a reason to fail. -/
theorem Arranged.refuses
    {input : Partitioned}
    (found : aggregation.input.arena.records[partition]? = some record)
    (exceeded : status = AggregationFault.sumRange.status ∧
      ∃ key, side.Exceeds aggregates (contents (.build, partition)) key)
    (params : input.params = aggregation.input.params)
    (unsplit : input.repartitions = aggregation.input.repartitions) :
    Refuses side aggregates rows status input := by
  obtain ⟨rfl, key, exceeds⟩ := exceeded
  refine .exceeded rfl (arranged.routes.exceeds (Arena.place?_of_record found) exceeds) ?_
  rw [unsplit, Partitioned.collides_of_params params]
  exact arranged.counted

include groups served

theorem Arranged.ends_aggregateInMemory
    (found : aggregation.input.arena.records[partition]? = some record)
    (subset : rest ⊆ work)
    (others : ∀ other ∈ work, other ≠ partition → other ∈ rest) :
    (aggregateInMemory partition).Ends aggregation
      (fun _ after => ∃ left, Arranged side aggregates rows rest left after)
      fun status after => Refuses side aggregates rows status after.input := by
  refine (((ends_aggregateInMemory_served served.toUndisturbed arranged.asks arranged.holds
    (arranged.groups_contents groups found) found).and_succeeds.and
      (ends_aggregateInMemory_completes aggregation)).and
        (splitsNone_aggregateInMemory aggregation)).mono (fun _ after ended => ?_)
    fun _ _ failed => ?_
  · obtain ⟨⟨⟨succeeds, within⟩, -⟩, unsplit⟩ := ended
    obtain ⟨-, ⟨left, settles⟩, frame⟩ :=
      succeeds_aggregateInMemory succeeds arranged.asks arranged.holds
    have asks : after.Asks side aggregates := by
      rw [← frame]
      exact arranged.asks.transfer settles.side?
    exact ⟨left, arranged.settled settles asks unsplit within subset others⟩
  · obtain ⟨⟨exceeded, evolves⟩, unsplit⟩ := failed
    exact arranged.refuses found exceeded evolves.params_eq unsplit

end Arranged

variable (arranged : Arranged side aggregates rows (partition :: rest) contents aggregation)
include groups served arranged

/-- A partition with rows of different keys is split, unless it lies on the last level or the arena
becomes full. -/
theorem Arranged.ends_repartition
    (found : aggregation.input.arena.records[partition]? = some record)
    (spilled : record.build.spilled = true)
    (varies : side.Varies (contents (.build, partition))) :
    (Partitioned.repartition partition).Ends aggregation.input
      (fun kept input => ∀ order, (Partitioned.processingOrder kept).Succeeds input order input →
        ∃ left, Arranged side aggregates rows (order ++ rest) left { aggregation with input })
      fun status input => Refuses side aggregates rows status input := by
  have place := Arena.place?_of_record found
  have collides := arranged.routes.collides place varies
  have keyed : ∀ other declared, aggregation.input.side? other = some declared → declared.Keyed := by
    intro other declared declares
    cases other with
    | build =>
        rw [arranged.asks.side?, Option.some.injEq] at declares
        obtain ⟨one, inside, -⟩ := collides
        exact declares ▸ groups.keyed (List.ne_nil_of_mem inside)
    | probe =>
        have none : aggregation.input.side? .probe = none := served.alone
        rw [none] at declares
        cases declares
  refine (((Partitioned.ends_repartition_served served.toUndisturbed served.probed arranged.holds keyed
    found spilled).and (Partitioned.ends_repartition_splits _)).and (ends_outcome _ _)).mono
    (fun kept split repartitioned order ordered => ?_) fun status _ failed => ?_
  · obtain ⟨divided, divides, same⟩ :=
      Partitioned.succeeds_repartition repartitioned.2 arranged.holds found spilled
    obtain ⟨permuted, -⟩ := Partitioned.succeeds_processingOrder ordered
    exact ⟨divided, arranged.divided divides (arranged.asks.transfer divides.side?) place varies
      (same ▸ permuted)⟩
  · obtain ⟨⟨⟨deep, rfl, rfl⟩ | ⟨-, rfl, overflows⟩, evolves⟩, -⟩ := failed
    · exact .tooDeep rfl (collides.mono deep) arranged.counted
    · exact .full rfl overflows.full
        ((Partitioned.collides_of_params evolves.params_eq).mpr (collides.mono (Nat.le_add_left 1 _)))

/-- Whatever is left of the work, a visit leaves all sums that are going to leave the range in it. -/
theorem Arranged.ends_visit
    (found : aggregation.input.arena.records[partition]? = some record) :
    (visit partition).Ends aggregation
      (fun result after => ∃ left, Arranged side aggregates rows (result.left ++ rest) left after)
      fun status after => Refuses side aggregates rows status after.input := by
  have subset : rest ⊆ partition :: rest := List.subset_cons_self _ _
  have others : ∀ other ∈ partition :: rest, other ≠ partition → other ∈ rest :=
    fun other member different => (List.mem_cons.mp member).resolve_left different
  refine VisitEnds.ends ⟨?cancelled, ?closed, ?inMemory, ?spilled⟩ found
  case cancelled => exact served.serves_checkCancelled.mono (fun _ _ _ => trivial) fun _ _ => False.elim
  case closed =>
    refine fun closed => ⟨contents, arranged.shrink subset fun other member place there opened => ?_⟩
    refine others other member ?_
    rintro rfl
    rw [Arena.place?_of_record found, Option.some.injEq] at there
    subst there
    exact closed opened
  case inMemory =>
    exact fun _ _ => arranged.ends_aggregateInMemory groups served found subset others
  case spilled =>
    intro _ spilled
    refine ((ends_addAllBlocks served.toUndisturbed arranged.asks arranged.holds
      (arranged.groups_contents groups found) found spilled).and
        (follows_addBlocks {} (List.range record.build.blockCount) aggregation)).mono
      (fun taken between ended => ?_) fun _ _ failed => ?_
    · obtain ⟨⟨quiet, asks, taken⟩, feeds⟩ := ended
      have feeds : aggregation.input.Feeds (Partitioned.Only partition) true between.input := feeds
      obtain ⟨again, there, build, -⟩ := quiet.exists_record found
      have still := arranged.of_quiet quiet asks feeds.repartitions_eq
      refine ⟨?_, ?_⟩
      · rintro table rfl
        refine ((serves_emit asks taken.toTallies).and_succeeds).mono (fun output emitted emits => ?_)
          fun _ _ => False.elim
        obtain ⟨rfl, -⟩ := succeeds_emit emits.1 asks taken.toTallies
        have completes := still.ends_complete there taken.within subset others
        exact ((ends_onInput _).mp completes).mono (fun _ _ completed => completed.2)
          fun _ _ => False.elim
      · rintro rfl
        exact still.ends_repartition groups (feeds.evolves.served served) there (build ▸ spilled) taken
    · have feeds : aggregation.input.Feeds (Partitioned.Only partition) false _ := failed.2
      exact arranged.refuses found failed.1 feeds.evolves.params_eq feeds.repartitions_eq

end Visit

/-- Nothing is in the way of the visits that are to come. -/
structure Steady
    (side : ProbeSide)
    (aggregates : List Aggregate)
    (rows : List Row)
    (work : List Nat)
    (aggregation : Aggregation) : Prop where
  served : aggregation.input.Served
  arranged : ∃ contents, Arranged side aggregates rows work contents aggregation

section Steady

variable (groups : side.Groups aggregates rows)
include groups

/-- A visit leaves the aggregation as it found it, with what the partition was split into to be visited
next, or there is a reason for it to fail. -/
theorem Steady.ends_visit
    (steady : Steady side aggregates rows (partition :: rest) aggregation) :
    (visit partition).Ends aggregation
      (fun result after => Steady side aggregates rows (result.left ++ rest) after)
      fun status after => Refuses side aggregates rows status after.input := by
  obtain ⟨served, contents, arranged⟩ := steady
  obtain ⟨record, found⟩ := Arena.exists_record_of_lt (arranged.known partition List.mem_cons_self)
  exact ((arranged.ends_visit groups served found).and (retires_visit partition aggregation)).mono
    (fun _ _ ended => ⟨ended.2.evolves.served served, ended.1⟩) fun _ _ failed => failed.1

/-- The partitions that are in memory are aggregated, and the others are left for visits. -/
theorem Steady.ends_finishInMemory
    {spilled : List Nat}
    (steady : Steady side aggregates rows (spilled ++ work) aggregation) :
    (finishInMemory spilled work).Ends aggregation
      (fun result after => Steady side aggregates rows result.2 after)
      fun status after => Refuses side aggregates rows status after.input := by
  induction work generalizing spilled aggregation with
  | nil =>
      rw [List.append_nil] at steady
      exact steady
  | cons partition rest inductionHypothesis =>
      obtain ⟨served, contents, arranged⟩ := steady
      obtain ⟨record, found⟩ := Arena.exists_record_of_lt (arranged.known partition (by simp))
      have subset : spilled ++ rest ⊆ spilled ++ partition :: rest := by simp
      have others : ∀ other ∈ spilled ++ partition :: rest, other ≠ partition →
          other ∈ spilled ++ rest := by
        intro other member different
        simpa [different] using member
      rw [finishInMemory, ends_bind, ends_onInput, Partitioned.ends_record_of found, ends_ite]
      refine ⟨fun empty => ?_, fun _ => ?_⟩
      · have within : ∀ key, ¬ side.Exceeds aggregates (contents (.build, partition)) key := by
          rw [(Partitioned.isEmpty_build_iff arranged.holds found).mp empty]
          exact fun _ => ProbeSide.not_exceeds_nil
        rw [ends_bind]
        refine (arranged.ends_complete found within subset others).mono (fun _ _ completed => ?_)
          fun _ _ => False.elim
        exact inductionHypothesis ⟨completed.1.evolves.served served, completed.2⟩
      · rw [ends_ite]
        refine ⟨fun _ => ?_, fun _ => ?_⟩
        · have middle : (spilled ++ partition :: rest).Perm (partition :: spilled ++ rest) :=
            List.perm_middle
          exact inductionHypothesis ⟨served, contents, arranged.shrink middle.symm.subset
            fun _ member _ _ _ => middle.subset member⟩
        · rw [ends_bind]
          refine ((arranged.ends_aggregateInMemory groups served found subset others).and
            (ends_aggregateInMemory_completes aggregation)).mono (fun output between aggregated => ?_)
            fun _ _ failed => failed.1
          rw [ends_bind]
          exact (inductionHypothesis ⟨aggregated.2.evolves.served served, aggregated.1⟩).mono
            (fun _ _ => id) fun _ _ => id

/-! ## Turns -/

theorem Steady.turns
    {config next : WorkStack Aggregation}
    (steady : Steady side aggregates rows config.stack config.state)
    (turns : Turns visit config next) :
    Steady side aggregates rows next.stack next.state := by
  induction turns with
  | refl => exact steady
  | tail _ turn inductionHypothesis =>
      cases turn with
      | visit succeeds => exact (inductionHypothesis.ends_visit groups).of_succeeds succeeds

end Steady
end Aggregation
end Spillway
