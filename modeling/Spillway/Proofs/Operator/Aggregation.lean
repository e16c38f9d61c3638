import Spillway.Proofs.Operator.Grouping
import Spillway.Proofs.Operator.Processing
import Spillway.Proofs.Operator.Roots
import Spillway.Proofs.Operator.Visiting

/-!
# What an aggregation yields

A partition in memory is aggregated as it is, a spilled one block by block, and a table that outgrows
the account is thrown away before its partition is split. Each partition that is completed yields the
groups of its own rows, and no key is in two of them. What is due for the partitions that are left,
together with what was yielded before, is therefore at any time the groups of all rows.
-/

namespace Spillway

namespace Aggregation

@[simp] theorem succeeds_onInput_iff
    {α : Type}
    {step : Step Partitioned α}
    {before after : Aggregation}
    {value : α} :
    (onInput step).Succeeds before value after ↔
      ∃ input, step.Succeeds before.input value input ∧ { before with input } = after := by
  simp [onInput]

/-- The aggregation groups rows of a side by its key. -/
structure Asks
    (aggregation : Aggregation)
    (side : ProbeSide)
    (aggregates : List Aggregate) : Prop where
  side? : aggregation.input.side? .build = some side
  aggregates : aggregation.aggregates = aggregates
  shown : ∀ row, side.schema.admits row = true →
    (keyCell aggregation.textKey (side.keyOf row)).value = Value.ofKey (side.keyOf row)

theorem Asks.transfer
    {aggregation : Aggregation}
    {side : ProbeSide}
    {aggregates : List Aggregate}
    {input : Partitioned}
    (asks : aggregation.Asks side aggregates)
    (side? : input.side? = aggregation.input.side?) :
    Asks { aggregation with input } side aggregates :=
  ⟨side? ▸ asks.side?, asks.aggregates, asks.shown⟩

theorem Asks.buildKey
    {aggregation : Aggregation}
    {side : ProbeSide}
    {aggregates : List Aggregate}
    (asks : aggregation.Asks side aggregates) :
    aggregation.input.buildKey = side.key :=
  congrArg ProbeSide.key (Option.some.inj asks.side?)

theorem Asks.buildSchema
    {aggregation : Aggregation}
    {side : ProbeSide}
    {aggregates : List Aggregate}
    (asks : aggregation.Asks side aggregates) :
    aggregation.input.buildSchema = side.schema :=
  congrArg ProbeSide.schema (Option.some.inj asks.side?)

variable {precise : Prop} {side : ProbeSide} {aggregates : List Aggregate}

/-! ## Aggregating a partition -/

theorem succeeds_addChunks
    {table next : GroupTable}
    {chunks : List Chunk}
    {rows : List Row}
    {before after : Aggregation}
    (succeeds : (addChunks table chunks).Succeeds before next after)
    (asks : before.Asks side aggregates)
    (tallies : table.Tallies side aggregates rows)
    (fits : ∀ chunk ∈ chunks, chunk.schema = side.schema) :
    before = after ∧ next.Tallies side aggregates (rows ++ chunks.flatMap Chunk.rows) := by
  simp only [addChunks, Step.succeeds_bind, Step.succeeds_get, Step.succeeds_ofExcept] at succeeds
  obtain ⟨_, _, ⟨rfl, rfl⟩, added, rfl⟩ := succeeds
  rw [asks.aggregates, asks.buildKey] at added
  exact ⟨rfl, tallies.addChunks added fits⟩

/-- A table yields the groups of its rows. -/
theorem succeeds_emit
    {table : GroupTable}
    {output : List Chunk}
    {rows : List Row}
    {before after : Aggregation}
    (succeeds : (emit table).Succeeds before output after)
    (asks : before.Asks side aggregates)
    (tallies : table.Tallies side aggregates rows) :
    before = after ∧ (output.flatMap Chunk.values).Perm (grouped side aggregates rows) := by
  unfold emit at succeeds
  split at succeeds
  · next empty =>
    rw [Step.succeeds_pure] at succeeds
    obtain ⟨rfl, rfl⟩ := succeeds
    have none : rows = [] := by
      refine List.eq_nil_iff_forall_not_mem.mpr fun row member => ?_
      have present := (tallies.keys _).mpr (List.mem_map_of_mem member)
      rw [List.isEmpty_iff.mp empty] at present
      exact List.not_mem_nil present
    rw [none]
    exact ⟨rfl, .refl _⟩
  · simp only [Step.succeeds_bind, Step.succeeds_get, Step.succeeds_ofExcept, mapError_eq_ok_iff,
      Step.succeeds_pure] at succeeds
    obtain ⟨_, _, ⟨rfl, rfl⟩, chunk, _, ⟨assembled, rfl⟩, rfl, rfl⟩ := succeeds
    refine ⟨rfl, ?_⟩
    rw [List.flatMap_singleton, Chunk.values, (Chunk.eq_of_assemble assembled).2]
    exact tallies.perm_grouped asks.shown

/-- Aggregating a partition in memory yields its groups and settles it. -/
theorem succeeds_aggregateInMemory
    {partition : Nat}
    {output : List Chunk}
    {before after : Aggregation}
    {contents : Contents}
    (succeeds : (aggregateInMemory partition).Succeeds before output after)
    (asks : before.Asks side aggregates)
    (holds : before.input.Holds precise contents) :
    (output.flatMap Chunk.values).Perm (grouped side aggregates (contents (.build, partition))) ∧
      (∃ left, before.input.Settles precise after.input partition contents left) ∧
      { before with input := after.input } = after := by
  simp only [aggregateInMemory, Step.succeeds_bind, Step.succeeds_pure] at succeeds
  obtain ⟨chunks, _, load, table, _, added, output, _, emitted, _, _, complete, rfl, rfl⟩ := succeeds
  obtain ⟨loaded, loading, rfl⟩ := succeeds_onInput_iff.mp load
  obtain ⟨rows, suits, loadedHolds, outline, parts⟩ := Partitioned.succeeds_loadBuild loading holds
  have loadedAsks := asks.transfer (congrArg Outline.side? outline)
  obtain ⟨rfl, tallies⟩ := succeeds_addChunks added loadedAsks GroupTable.tallies_empty
    fun chunk member => (suits chunk member).schema_eq.trans asks.buildSchema
  rw [List.nil_append, rows] at tallies
  obtain ⟨rfl, yields⟩ := succeeds_emit emitted loadedAsks tallies
  obtain ⟨last, completing, rfl⟩ := succeeds_onInput_iff.mp complete
  obtain ⟨left, settles⟩ := Partitioned.succeeds_complete completing loadedHolds
  exact ⟨yields, ⟨left, settles.of_mark outline parts⟩, rfl⟩

/-- Reading blocks into a table changes no partition, whether the table is kept or not. -/
theorem succeeds_addBlocks
    {partition : Nat}
    {table : GroupTable}
    {rows : List Row}
    {positions : List Nat}
    {before after : Aggregation}
    {result : Option GroupTable}
    {stored : List (List Chunk)}
    {part : Partition}
    (succeeds : (addBlocks partition table positions).Succeeds before result after)
    (asks : before.Asks side aggregates)
    (tallies : table.Tallies side aggregates rows)
    (found : before.input.arena.part? (.build, partition) = some part)
    (held : part.Stored before.input.area.store stored)
    (fits : ∀ segment ∈ part.segments stored, ∀ chunk ∈ segment, chunk.schema = side.schema) :
    before.input.Quiet after.input ∧ { before with input := after.input } = after ∧
      ∀ next, result = some next →
        next.Tallies side aggregates (rows ++ positions.flatMap fun position =>
          ((part.segments stored)[position]?.getD []).flatMap Chunk.rows) := by
  induction positions generalizing before table rows with
  | nil =>
      rw [addBlocks, Step.succeeds_pure] at succeeds
      obtain ⟨rfl, rfl⟩ := succeeds
      refine ⟨.refl _, rfl, fun next kept => ?_⟩
      cases kept
      rw [List.flatMap_nil, List.append_nil]
      exact tallies
  | cons position positions inductionHypothesis =>
      simp only [addBlocks, Step.succeeds_bind, succeeds_onInput_iff,
        Partitioned.succeeds_checkCancelled, Step.succeeds_get] at succeeds
      obtain ⟨_, _, ⟨_, ⟨_, rfl⟩, rfl⟩, chunks, _, ⟨input, restored, rfl⟩, more, _, added, _, _,
        ⟨rfl, rfl⟩, succeeds⟩ := succeeds
      obtain ⟨read, quiet⟩ := Partitioned.restores_restoreBuildBlock partition restored found held
      have stillAsks := asks.transfer (Partitioned.side?_of_outline quiet.outline)
      obtain ⟨rfl, taken⟩ := succeeds_addChunks added stillAsks tallies
        (fits chunks (List.mem_of_getElem? read))
      split at succeeds
      · rw [Step.succeeds_pure] at succeeds
        obtain ⟨rfl, rfl⟩ := succeeds
        exact ⟨quiet, rfl, fun _ kept => absurd kept (Option.some_ne_none _).symm⟩
      · obtain ⟨rest, same, whole⟩ := inductionHypothesis succeeds stillAsks taken
          (quiet.part? ▸ found) (held.keeps quiet.keeps fun _ _ => List.not_mem_nil)
        refine ⟨quiet.trans rest, same, fun next kept => ?_⟩
        rw [List.flatMap_cons, read, Option.getD_some, ← List.append_assoc]
        exact whole next kept

/-- Reading all blocks of a spilled partition into a table takes in all its rows, unless the table is
given up. -/
theorem succeeds_addAllBlocks
    {partition : Nat}
    {before after : Aggregation}
    {result : Option GroupTable}
    {record : PartitionRecord}
    {contents : Contents}
    (succeeds :
      (addBlocks partition {} (List.range record.build.blockCount)).Succeeds before result after)
    (asks : before.Asks side aggregates)
    (holds : before.input.Holds precise contents)
    (found : before.input.arena.records[partition]? = some record)
    (spilled : record.build.spilled = true) :
    before.input.Quiet after.input ∧ after.Asks side aggregates ∧
      ∀ table, result = some table → table.Tallies side aggregates (contents (.build, partition)) := by
  have there := Arena.part?_build found
  obtain ⟨declared, same, sideHolds⟩ := holds.holds _ _ there
  rw [asks.side?, Option.some.injEq] at same
  subst same
  obtain ⟨segments, held, content, suits⟩ := sideHolds.toStores.exists_segments spilled
  obtain ⟨quiet, frame, whole⟩ :=
    succeeds_addBlocks succeeds asks GroupTable.tallies_empty there held
      fun segment inside chunk member => (suits segment inside chunk member).schema_eq
  refine ⟨quiet, ?_, fun table taken => ?_⟩
  · rw [← frame]
    exact asks.transfer (Partitioned.side?_of_outline quiet.outline)
  · have tallies := whole table taken
    rw [List.nil_append, ← Partition.length_segments held, ← List.flatMap_assoc,
      Partitioned.flatMap_range_getElem?, content] at tallies
    exact tallies

/-! ## Visiting partitions -/

/-- The groups of the build rows. -/
def groupedBuild
    (side : ProbeSide)
    (aggregates : List Aggregate)
    (build _probe : List Row) : List (List Value) :=
  grouped side aggregates build

theorem groupedBuild_nil (probe : List Row) : groupedBuild side aggregates [] probe = [] :=
  grouped_nil

/-- The groups of the buckets of a level together are the groups of all rows. -/
theorem Asks.perm_buckets
    {aggregation : Aggregation}
    (asks : aggregation.Asks side aggregates)
    (level : Nat)
    (build probe : List Row) :
    ((List.range aggregation.input.params.partitionCount).flatMap fun bucket =>
      groupedBuild side aggregates
        (build.filter fun row => aggregation.input.bucketOf .build level row = bucket)
        (probe.filter fun row => aggregation.input.bucketOf .probe level row = bucket)).Perm
      (groupedBuild side aggregates build probe) := by
  simp only [groupedBuild, Partitioned.bucketOf_of_side? asks.side?]
  exact perm_grouped_buckets (Directory.bucketOfKey_lt _) build

/-- What an aggregation owes for each partition: the groups of its rows, as long as it is open. The
partitions that are closed have none left. -/
def Owes
    (precise : Prop)
    (side : ProbeSide)
    (aggregates : List Aggregate)
    (aggregation : Aggregation)
    (due : Nat → List (List Value)) : Prop :=
  ∃ contents, aggregation.Asks side aggregates ∧ aggregation.input.Holds precise contents ∧
    aggregation.input.Cleared [] contents ∧
    due = aggregation.input.due (groupedBuild side aggregates) contents

/-- Settling a partition leaves what is due for the others. -/
theorem owes_of_settles
    {partition : Nat}
    {before after : Aggregation}
    {contents left : Contents}
    (settles : before.input.Settles precise after.input partition contents left)
    (cleared : before.input.Cleared [] contents)
    (asks : after.Asks side aggregates) :
    ∃ due, Owes precise side aggregates after due ∧
      before.input.arena.size ≤ after.input.arena.size ∧
      (∀ other < before.input.arena.size, other ≠ partition →
        due other = before.input.due (groupedBuild side aggregates) contents other) ∧
      due partition = [] :=
  ⟨_, ⟨left, asks, settles.holds, settles.cleared (cleared.mono (List.nil_subset _)), rfl⟩,
    Nat.le_of_eq settles.size.symm, fun _ _ different => settles.due_others _ different,
    settles.due_self _⟩

/-- What a visit that is met does. It leaves a partition that is closed alone, and aggregates one that is in
memory. One that is spilled is aggregated from its blocks, or split when the table for these was given
up. -/
inductive Visited
    (partition : Nat)
    (record : PartitionRecord)
    (before : Aggregation) : Visit Chunk → Aggregation → Prop where
  | closed
      (closed : record.state ≠ .opened) :
      Visited partition record before (.done []) before
  | inMemory
      {output : List Chunk}
      {after : Aggregation}
      (opened : record.state = .opened)
      (aggregates : (aggregateInMemory partition).Succeeds before output after) :
      Visited partition record before (.done output) after
  | fromBlocks
      {table : GroupTable}
      {output : List Chunk}
      {between emitted : Aggregation}
      {input : Partitioned}
      (opened : record.state = .opened)
      (spilled : record.build.spilled = true)
      (reads : (addBlocks partition {} (List.range record.build.blockCount)).Succeeds before (some table)
        between)
      (emits : (emit table).Succeeds between output emitted)
      (completes : (Partitioned.complete partition).Succeeds emitted.input () input) :
      Visited partition record before (.done output) { emitted with input }
  | split
      {kept order : List Nat}
      {between : Aggregation}
      {input : Partitioned}
      (opened : record.state = .opened)
      (spilled : record.build.spilled = true)
      (reads : (addBlocks partition {} (List.range record.build.blockCount)).Succeeds before none between)
      (splits : (Partitioned.repartition partition).Succeeds between.input kept input)
      (ordered : (Partitioned.processingOrder kept).Succeeds input order input) :
      Visited partition record before (.split order) { between with input }

theorem visited_of_succeeds
    {partition : Nat}
    {record : PartitionRecord}
    {before after : Aggregation}
    {result : Visit Chunk}
    (succeeds : (visit partition).Succeeds before result after)
    (found : before.input.arena.records[partition]? = some record) :
    Visited partition record before result after := by
  have visits : VisitEnds partition record before (Visited partition record before) fun _ _ => True :=
    { cancelled := .of_forall (fun _ _ => trivial) fun _ _ => trivial
      closed := .closed
      inMemory := fun opened _ => (Step.ends_outcome _ _).mono
        (fun _ _ aggregates => .inMemory opened aggregates) fun _ _ _ => trivial
      spilled := fun opened spilled => (Step.ends_outcome _ _).mono (fun taken between reads =>
        ⟨fun table taken => (Step.ends_outcome _ _).mono (fun _ _ emits =>
          (Step.ends_outcome _ _).mono
            (fun _ _ completes => .fromBlocks opened spilled (taken ▸ reads) emits completes)
            fun _ _ _ => trivial) fun _ _ _ => trivial,
        fun taken => (Step.ends_outcome _ _).mono
          (fun _ _ splits _ ordered => .split opened spilled (taken ▸ reads) splits ordered)
          fun _ _ _ => trivial⟩) fun _ _ _ => trivial }
  exact (visits.ends found).of_succeeds succeeds

/-- A visit leaves nothing due for its partition. It yields the groups of it, or passes them on to the
children. -/
theorem conserves_visit :
    Conserves precise (fun aggregation : Aggregation => aggregation.input.arena.size)
      (Owes precise side aggregates) Chunk.values visit := by
  rintro partition before after result _ succeeds ⟨contents, asks, holds, cleared, rfl⟩ known
  obtain ⟨record, found⟩ := Arena.exists_record_of_lt known
  have placed := Arena.place?_of_record found
  have due : record.state = .opened → before.input.due (groupedBuild side aggregates) contents partition =
      grouped side aggregates (contents (.build, partition)) :=
    Partitioned.due_of_opened placed
  cases visited_of_succeeds succeeds found with
  | closed closed =>
      refine ⟨_, ⟨contents, asks, holds, cleared, rfl⟩, Nat.le_refl _, fun _ _ _ => rfl, ?_⟩
      rw [Partitioned.due_of_not_opened placed closed]
      exact ⟨rfl, fun _ => .refl _⟩
  | inMemory opened aggregated =>
      obtain ⟨yields, ⟨left, settles⟩, frame⟩ := succeeds_aggregateInMemory aggregated asks holds
      have still : after.Asks side aggregates := by
        rw [← frame]
        exact asks.transfer settles.side?
      obtain ⟨left, owed, grown, others, settled⟩ := owes_of_settles settles cleared still
      exact ⟨left, owed, grown, others, settled, fun _ => due opened ▸ yields⟩
  | fromBlocks opened spilled reads emits completes =>
      obtain ⟨quiet, stillAsks, whole⟩ := succeeds_addAllBlocks reads asks holds found spilled
      obtain ⟨rfl, yields⟩ := succeeds_emit emits stillAsks (whole _ rfl)
      obtain ⟨_, settles⟩ := Partitioned.succeeds_complete completes (quiet.holds holds)
      obtain ⟨left, owed, grown, others, settled⟩ :=
        owes_of_settles (settles.of_quiet quiet) cleared (stillAsks.transfer settles.side?)
      exact ⟨left, owed, grown, others, settled, fun _ => due opened ▸ yields⟩
  | split opened spilled reads splits ordered =>
      obtain ⟨quiet, stillAsks, -⟩ := succeeds_addAllBlocks reads asks holds found spilled
      obtain ⟨again, there, build, place⟩ := quiet.exists_record found
      obtain ⟨divided, held, _, side?, grown, others, settled, clears, -, distinct, bounds, passed⟩ :=
        Partitioned.succeeds_splitVisit splits ordered (quiet.holds holds) there
          ((congrArg PartitionPlace.state place).trans opened) (build ▸ spilled) groupedBuild_nil
          (stillAsks.perm_buckets _)
      rw [Partitioned.due_of_outline quiet.outline] at others passed
      rw [Partitioned.size_of_outline quiet.outline] at grown others bounds
      exact ⟨_, ⟨divided, stillAsks.transfer side?, held, clears (quiet.cleared cleared), rfl⟩, grown,
        others, settled, distinct, bounds, passed⟩

/-! ## The end -/

/-- The groups of the build rows of a partition, whether it is open or not. -/
def groupsOf
    (side : ProbeSide)
    (aggregates : List Aggregate)
    (contents : Contents)
    (partition : Nat) : List (List Value) :=
  grouped side aggregates (contents (.build, partition))

/-- If the closed partitions have no rows, the groups of all partitions are due. -/
theorem due_eq_groupsOf
    {input : Partitioned}
    {contents : Contents}
    (holds : input.Holds precise contents)
    (cleared : input.Cleared [] contents) :
    input.due (groupedBuild side aggregates) contents = groupsOf side aggregates contents :=
  funext fun _ => Partitioned.due_of_cleared groupedBuild_nil holds cleared List.not_mem_nil

/-- Partitions are reduced to the ones that are left: the groups of these, together with the output, are
those of all. The others have no rows any more. -/
structure Reduces
    (precise : Prop)
    (side : ProbeSide)
    (aggregates : List Aggregate)
    (before after : Aggregation)
    (contents kept : Contents)
    (work left : List Nat)
    (output : List Chunk) : Prop where
  asks : after.Asks side aggregates
  holds : after.input.Holds precise kept
  cleared : after.input.Cleared [] kept
  size : after.input.arena.size = before.input.arena.size
  nodup : left.Nodup
  inside : left ⊆ work
  emptied : ∀ partition ∈ work, partition ∉ left → kept (.build, partition) = []
  others : ∀ partition ∉ work, kept (.build, partition) = contents (.build, partition)
  paid : (output.flatMap Chunk.values ++ left.flatMap (groupsOf side aggregates kept)).Perm
    (work.flatMap (groupsOf side aggregates contents))

theorem Reduces.perm
    {before after : Aggregation}
    {contents kept : Contents}
    {work more left : List Nat}
    {output : List Chunk}
    (reduces : Reduces precise side aggregates before after contents kept work left output)
    (same : work.Perm more) :
    Reduces precise side aggregates before after contents kept more left output :=
  { reduces with
    inside := List.Subset.trans reduces.inside same.subset
    emptied := fun partition member => reduces.emptied partition (same.mem_iff.mpr member)
    others := fun partition outside => reduces.others partition (mt same.mem_iff.mp outside)
    paid := reduces.paid.trans (same.flatMap_right _) }

/-- A partition whose groups are yielded may be settled before the others are reduced. -/
theorem Reduces.settled
    {partition : Nat}
    {before next after : Aggregation}
    {contents between kept : Contents}
    {work left : List Nat}
    {first others : List Chunk}
    (reduces : Reduces precise side aggregates next after between kept work left others)
    (settles : before.input.Settles precise next.input partition contents between)
    (outside : partition ∉ work)
    (yields : (first.flatMap Chunk.values).Perm (groupsOf side aggregates contents partition)) :
    Reduces precise side aggregates before after contents kept (partition :: work) left
      (first ++ others) where
  asks := reduces.asks
  holds := reduces.holds
  cleared := reduces.cleared
  size := reduces.size.trans settles.size
  nodup := reduces.nodup
  inside := List.subset_cons_of_subset _ reduces.inside
  emptied := by
    refine List.forall_mem_cons.mpr ⟨fun _ => ?_, reduces.emptied⟩
    rw [reduces.others partition outside, settles.emptied]
  others := by
    intro other apart
    rw [List.mem_cons, not_or] at apart
    rw [reduces.others other apart.2, settles.others _ other apart.1]
  paid := by
    have same : work.flatMap (groupsOf side aggregates between) =
        work.flatMap (groupsOf side aggregates contents) := by
      refine List.flatMap_congr fun other member => ?_
      rw [groupsOf, settles.others _ other fun here => outside (here ▸ member), groupsOf]
    rw [List.flatMap_append, List.append_assoc, List.flatMap_cons, ← same]
    exact yields.append reduces.paid

/-- Aggregating the partitions in memory yields their groups, and leaves the spilled ones, if these can
still be visited. -/
theorem succeeds_finishInMemory
    {spilled work left : List Nat}
    {output : List Chunk}
    {before after : Aggregation}
    {contents : Contents}
    (succeeds : (finishInMemory spilled work).Succeeds before (output, left) after)
    (asks : before.Asks side aggregates)
    (holds : before.input.Holds precise contents)
    (awaits : before.input.Awaits work)
    (cleared : before.input.Cleared work contents)
    (distinct : (spilled ++ work).Nodup) :
    ∃ kept, Reduces precise side aggregates before after contents kept (spilled ++ work) left output := by
  induction work generalizing spilled before output contents with
  | nil =>
      rw [finishInMemory, Step.succeeds_pure] at succeeds
      obtain ⟨same, rfl⟩ := succeeds
      cases same
      rw [List.append_nil] at distinct ⊢
      exact ⟨contents, asks, holds, cleared, rfl, distinct, List.Subset.refl _,
        fun _ member apart => absurd member apart, fun _ _ => rfl, .refl _⟩
  | cons partition rest inductionHypothesis =>
      have apart := List.nodup_cons.mp (List.nodup_middle.mp distinct)
      have outside : partition ∉ rest := fun member => apart.1 (List.mem_append_right _ member)
      have middle : (partition :: (spilled ++ rest)).Perm (spilled ++ partition :: rest) :=
        List.perm_middle.symm
      have restAwaits : before.input.Awaits rest :=
        fun other member => awaits other (List.mem_cons_of_mem _ member)
      simp only [finishInMemory, Step.succeeds_bind, succeeds_onInput_iff,
        Partitioned.succeeds_record_iff] at succeeds
      obtain ⟨record, _, ⟨_, ⟨found, rfl⟩, rfl⟩, succeeds⟩ := succeeds
      split at succeeds
      · next empty =>
        simp only [Step.succeeds_bind, succeeds_onInput_iff] at succeeds
        obtain ⟨_, _, ⟨last, completed, rfl⟩, finished⟩ := succeeds
        obtain ⟨between, settles⟩ := Partitioned.succeeds_complete completed holds
        have yields : (List.flatMap Chunk.values []).Perm
            (groupsOf side aggregates contents partition) := by
          rw [groupsOf, (Partitioned.isEmpty_build_iff holds found).mp empty, grouped_nil]
          exact .refl _
        obtain ⟨kept, reduces⟩ := inductionHypothesis finished (asks.transfer settles.side?)
          settles.holds (settles.awaits outside restAwaits) (settles.cleared cleared) apart.2
        exact ⟨kept, (reduces.settled settles apart.1 yields).perm middle⟩
      · next some =>
        split at succeeds
        · next inStore =>
          -- The partition is open, so that it may be left for a visit.
          have opened := awaits partition List.mem_cons_self record found inStore
            (Bool.eq_false_iff.mpr some)
          obtain ⟨kept, reduces⟩ := inductionHypothesis succeeds asks holds restAwaits
            (cleared.of_opened found opened) (List.nodup_cons.mpr apart)
          exact ⟨kept, reduces.perm middle⟩
        · simp only [Step.succeeds_bind, Step.succeeds_pure] at succeeds
          obtain ⟨first, next, aggregated, ⟨others, _⟩, _, finished, same, rfl⟩ := succeeds
          cases same
          obtain ⟨yields, ⟨between, settles⟩, frame⟩ :=
            succeeds_aggregateInMemory aggregated asks holds
          have still : next.Asks side aggregates := by
            rw [← frame]
            exact asks.transfer settles.side?
          obtain ⟨kept, reduces⟩ := inductionHypothesis finished still settles.holds
            (settles.awaits outside restAwaits) (settles.cleared cleared) apart.2
          exact ⟨kept, (reduces.settled settles apart.1 yields).perm middle⟩

/-- The end yields the groups of all roots, if those that are spilled can still be visited, and leaves
no rows in them. -/
theorem succeeds_finish
    {before after : Aggregation}
    {output : List Chunk}
    {contents : Contents}
    (succeeds : (finish).Succeeds before output after)
    (asks : before.Asks side aggregates)
    (holds : before.input.Holds precise contents)
    (awaits : before.input.Awaits before.input.roots)
    (cleared : before.input.Cleared before.input.roots contents)
    (known : before.input.params.partitionCount ≤ before.input.arena.size) :
    ∃ left, after.Asks side aggregates ∧ after.input.Holds precise left ∧
      after.input.Cleared [] left ∧ before.input.arena.size ≤ after.input.arena.size ∧
      (∀ root ∈ before.input.roots, left (.build, root) = []) ∧
      (precise → (output.flatMap Chunk.values).Perm
        (before.input.roots.flatMap (groupsOf side aggregates contents))) := by
  simp only [Aggregation.finish, Step.succeeds_bind, Step.succeeds_get, Step.succeeds_pure]
    at succeeds
  obtain ⟨_, _, ⟨rfl, rfl⟩, ⟨first, spilled⟩, between, inMemory, others, _, drained, rfl, rfl⟩ :=
    succeeds
  obtain ⟨kept, reduces⟩ :=
    succeeds_finishInMemory inMemory asks holds awaits cleared List.nodup_range
  have due : between.input.due (groupedBuild side aggregates) kept = groupsOf side aggregates kept :=
    due_eq_groupsOf reduces.holds reduces.cleared
  have inside : ∀ root ∈ before.input.roots, root < between.input.arena.size := by
    intro root member
    rw [reduces.size]
    exact Nat.lt_of_lt_of_le (List.mem_range.mp member) known
  obtain ⟨_, ⟨left, lastAsks, lastHolds, lastCleared, rfl⟩, grown, untouched, settled, rest⟩ :=
    pays_drain conserves_visit _ drained ⟨kept, reduces.asks, reduces.holds, reduces.cleared, rfl⟩
      reduces.nodup fun root member => inside root (reduces.inside member)
  rw [due_eq_groupsOf lastHolds lastCleared] at untouched settled
  rw [due] at untouched rest
  refine ⟨left, lastAsks, lastHolds, lastCleared, reduces.size ▸ grown, fun root member => ?_,
    fun is => ?_⟩
  · have none : groupsOf side aggregates left root = [] := by
      by_cases spilled : root ∈ spilled
      · exact settled root spilled
      · rw [untouched root (inside root member) spilled, groupsOf,
          reduces.emptied root member spilled, grouped_nil]
    exact grouped_eq_nil_iff.mp none
  · rw [List.flatMap_append]
    exact ((rest is).append_left _).trans reduces.paid

/-! ## Whole aggregations -/

/-- Takes all chunks and yields the groups. -/
def run
    (account : Option Nat)
    (chunks : List Chunk) :
    Step Aggregation (List Chunk) := do
  onInput (Partitioned.chargeWithin account)
  chunks.forM addChunk
  finish

/-- An aggregation that has accepted rows and completed no partition. -/
structure Collecting
    (precise : Prop)
    (aggregation : Aggregation)
    (side : ProbeSide)
    (aggregates : List Aggregate)
    (rows : List Row) : Prop where
  asks : aggregation.Asks side aggregates
  stored : ∃ contents, aggregation.input.Rooted precise rows contents

theorem collecting_of_make
    {params : Params}
    {area : SpillArea}
    {ledger : Ledger}
    {aggregation : Aggregation}
    (made : make params side.schema side.key aggregates area ledger = .ok aggregation)
    (faithful : area.store.damage = []) :
    aggregation.Collecting precise side aggregates [] := by
  simp only [make, bind_eq_ok_iff] at made
  obtain ⟨_, _, made⟩ := made
  split at made
  · exact absurd made throw_ne_ok
  · next field found =>
    simp only [bind_eq_ok_iff, pure_eq_ok_iff] at made
    obtain ⟨input, made, rfl⟩ := made
    obtain ⟨setUp, _⟩ := Partitioned.made_of_make made
    refine ⟨⟨?_, rfl, fun row admitted => value_keyCell found admitted⟩, _,
      Partitioned.rooted_of_make made faithful⟩
    show some (ProbeSide.mk input.buildSchema input.buildKey) = some side
    rw [setUp.buildSchema, setUp.buildKey]

theorem Collecting.chargeWithin
    {account : Option Nat}
    {before after : Aggregation}
    {rows : List Row}
    {value : Unit}
    (collecting : before.Collecting precise side aggregates rows)
    (succeeds : (onInput (Partitioned.chargeWithin account)).Succeeds before value after) :
    after.Collecting precise side aggregates rows := by
  obtain ⟨asks, contents, rooted⟩ := collecting
  obtain ⟨input, charged, rfl⟩ := succeeds_onInput_iff.mp succeeds
  have quiet := Partitioned.succeeds_chargeWithin charged
  exact ⟨asks.transfer (Partitioned.side?_of_outline quiet.outline), contents, rooted.of_quiet quiet⟩

theorem Collecting.addChunk
    {chunk : Chunk}
    {before after : Aggregation}
    {rows : List Row}
    {value : Unit}
    (collecting : before.Collecting precise side aggregates rows)
    (succeeds : (addChunk chunk).Succeeds before value after)
    (suits : chunk.Suits precise side.schema) :
    after.Collecting precise side aggregates (rows ++ chunk.rows) := by
  obtain ⟨asks, contents, rooted⟩ := collecting
  rw [Aggregation.addChunk, succeeds_onInput_iff] at succeeds
  obtain ⟨input, added, rfl⟩ := succeeds
  obtain ⟨outline, more, still, _⟩ := rooted.addBuildChunk added (asks.buildSchema ▸ suits)
  exact ⟨asks.transfer (Partitioned.side?_of_outline outline), more, still⟩

/-- The end yields the groups of all rows that were accepted. -/
theorem Collecting.finish
    {before after : Aggregation}
    {rows : List Row}
    {output : List Chunk}
    (collecting : before.Collecting True side aggregates rows)
    (succeeds : (finish).Succeeds before output after) :
    (output.flatMap Chunk.values).Perm (grouped side aggregates rows) := by
  obtain ⟨asks, contents, rooted⟩ := collecting
  obtain ⟨_, -, -, -, -, -, yields⟩ :=
    succeeds_finish succeeds asks rooted.holds rooted.awaits rooted.cleared
      (Nat.le_of_eq rooted.size.symm)
  refine (yields trivial).trans ((List.Perm.of_eq (List.flatMap_congr fun root member => ?_)).trans
    (asks.perm_buckets 0 rows []))
  rw [groupsOf, rooted.build trivial root (List.mem_range.mp member)]
  rfl

/-- However large its input is for the memory that it may use, an aggregation that succeeds yields one
row for each key, with the aggregates of all rows of the key, if there are numbers for the rows of every
chunk. -/
theorem perm_grouped_of_run
    {params : Params}
    {area : SpillArea}
    {ledger : Ledger}
    {account : Option Nat}
    {chunks : List Chunk}
    {before after : Aggregation}
    {output : List Chunk}
    (made : make params side.schema side.key aggregates area ledger = .ok before)
    (faithful : area.store.damage = [])
    (succeeds : (run account chunks).Succeeds before output after)
    (fits : ∀ chunk ∈ chunks, chunk.schema = side.schema)
    (numbered : ∀ chunk ∈ chunks, chunk.Numbered) :
    (output.flatMap Chunk.values).Perm (grouped side aggregates (chunks.flatMap Chunk.rows)) := by
  rw [run, Step.succeeds_bind] at succeeds
  obtain ⟨_, _, charged, succeeds⟩ := succeeds
  rw [Step.succeeds_bind] at succeeds
  obtain ⟨_, _, collected, finished⟩ := succeeds
  have collecting := collected.forM
    (fun rows aggregation => aggregation.Collecting True side aggregates rows)
    ((collecting_of_make made faithful).chargeWithin charged)
    fun chunk member _ _ _ reached added =>
      reached.addChunk added ⟨fits chunk member, fun _ => numbered chunk member⟩
  rw [List.nil_append] at collecting
  exact collecting.finish finished

namespace Sample

/-- A key and a number. -/
def keyed : ProbeSide :=
  ⟨[{ name := "k", type := .int64 }, { name := "v", type := .int32 }], "k"⟩

/-- Two rows of one key, one of them without a number, one row of another and one without a key. -/
def chunk : Chunk :=
  ⟨keyed.schema, [[.int 7, .int 1], [.int 8, .int 5], [.int 7, .null], [.null, .int 2]], by decide⟩

/-- All kinds of aggregates. -/
def asked : List Aggregate :=
  [.countStar, .count "v", .sum "v", .min "v", .max "v"]

/-- An aggregation that may keep so little that all partitions are spilled. -/
def new : Aggregation :=
  valueOf (make ⟨2, 2, 3⟩ keyed.schema keyed.key asked {} {}) (by decide +kernel)

end Sample

/-- An aggregation that spills and splits its partitions yields the three groups that there are. -/
theorem perm_grouped_spilled :
    make ⟨2, 2, 3⟩ Sample.keyed.schema Sample.keyed.key Sample.asked {} {} = .ok Sample.new ∧
      ∃ output after, (run none [Sample.chunk]).Succeeds Sample.new output after ∧
        (output.flatMap Chunk.values).Perm
          [[.number 8, .number 1, .number 1, .number 5, .number 5, .number 5],
            [.number 7, .number 2, .number 1, .number 1, .number 1, .number 1],
            [.absent, .number 1, .number 1, .number 2, .number 2, .number 2]] := by
  have made : make ⟨2, 2, 3⟩ Sample.keyed.schema Sample.keyed.key Sample.asked {} {} =
      .ok Sample.new :=
    eq_ok_valueOf _ _
  have succeeds := Step.succeeds_of_isOk (run none [Sample.chunk]) Sample.new (by decide +kernel)
  have groups := perm_grouped_of_run made rfl succeeds (List.forall_mem_singleton.mpr rfl)
    (List.forall_mem_singleton.mpr (by decide))
  exact ⟨made, _, _, succeeds, groups⟩

end Aggregation

end Spillway
