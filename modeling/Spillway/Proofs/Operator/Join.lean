import Spillway.Proofs.Operator.InnerJoin
import Spillway.Proofs.Operator.Processing
import Spillway.Proofs.Operator.Roots
import Spillway.Proofs.Operator.Visiting
import Spillway.Proofs.Partition.Copartition

/-!
# What a join yields

A row of the output is yielded on one of three ways: when its probe row arrives, from the table of a
partition in memory; at the end, from a partition that is loaded; or from a child of a partition that is
split. On all of them a partition yields the join of its own rows. What is due for the partitions
that are left, together with what was yielded before, is therefore at any time the join of all rows
that were accepted.
-/

namespace Spillway

namespace Join

@[simp] theorem succeeds_onInput_iff
    {α : Type}
    {step : Step Partitioned α}
    {before after : Join}
    {value : α} :
    (onInput step).Succeeds before value after ↔
      ∃ input, step.Succeeds before.input value input ∧ { before with input } = after := by
  simp [onInput]

/-- The join is one of a build side with a probe side. -/
structure Between
    (join : Join)
    (build probe : ProbeSide) : Prop where
  buildSide : join.input.side? .build = some build
  probeSide : join.input.side? .probe = some probe
  own : join.probe = probe

theorem Between.transfer
    {before after : Join}
    {build probe : ProbeSide}
    (between : before.Between build probe)
    (side? : after.input.side? = before.input.side?)
    (own : after.probe = before.probe) :
    after.Between build probe :=
  ⟨side? ▸ between.buildSide, side? ▸ between.probeSide, own ▸ between.own⟩

theorem Between.buildSchema
    {join : Join}
    {build probe : ProbeSide}
    (between : join.Between build probe) :
    join.input.buildSchema = build.schema :=
  congrArg ProbeSide.schema (Option.some.inj between.buildSide)

theorem Between.buildKey
    {join : Join}
    {build probe : ProbeSide}
    (between : join.Between build probe) :
    join.input.buildKey = build.key :=
  congrArg ProbeSide.key (Option.some.inj between.buildSide)

variable {precise : Prop} {build probe : ProbeSide}

/-! ## Joining chunks with a table -/

theorem succeeds_joinWith
    {table : JoinTable}
    {rows : List Row}
    {chunk : Chunk}
    {before after : Join}
    {output : List Chunk}
    (succeeds : (joinWith table chunk).Succeeds before output after)
    (own : before.probe = probe)
    (finds : precise → table.Finds build rows)
    (suits : chunk.Suits precise probe.schema) :
    before = after ∧
      (precise → output.flatMap Chunk.rows = innerJoin build probe rows chunk.rows) := by
  simp only [joinWith, Step.succeeds_bind, Step.succeeds_get, Step.succeeds_ofExcept,
    Step.succeeds_pure] at succeeds
  obtain ⟨_, _, ⟨rfl, rfl⟩, joined, _, ⟨yields, rfl⟩, rfl, rfl⟩ := succeeds
  rw [own] at yields
  exact ⟨rfl, fun is =>
    JoinTable.rows_of_joinChunk yields (finds is) ⟨suits.schema_eq, fun _ => suits.numbered is⟩⟩

theorem succeeds_mapM_joinWith
    {table : JoinTable}
    {rows : List Row}
    {chunks : List Chunk}
    {before after : Join}
    {outputs : List (List Chunk)}
    (succeeds : (chunks.mapM (joinWith table)).Succeeds before outputs after)
    (own : before.probe = probe)
    (finds : precise → table.Finds build rows)
    (suits : ∀ chunk ∈ chunks, chunk.Suits precise probe.schema) :
    before = after ∧
      (precise → outputs.flatten.flatMap Chunk.rows =
        innerJoin build probe rows (chunks.flatMap Chunk.rows)) := by
  induction chunks generalizing outputs with
  | nil =>
      rw [List.mapM_nil, Step.succeeds_pure] at succeeds
      obtain ⟨rfl, rfl⟩ := succeeds
      exact ⟨rfl, fun _ => rfl⟩
  | cons chunk chunks inductionHypothesis =>
      simp only [List.mapM_cons, Step.succeeds_bind, Step.succeeds_pure] at succeeds
      obtain ⟨first, _, joined, others, _, rest, rfl, rfl⟩ := succeeds
      obtain ⟨rfl, head⟩ := succeeds_joinWith joined own finds (suits chunk List.mem_cons_self)
      obtain ⟨rfl, tail⟩ :=
        inductionHypothesis rest fun other member => suits other (List.mem_cons_of_mem _ member)
      refine ⟨rfl, fun is => ?_⟩
      rw [List.flatten_cons, List.flatMap_append, List.flatMap_cons, innerJoin_append_probe, head is,
        tail is]

/-- Joining probe blocks one after the other joins the rows at all of their positions. -/
theorem succeeds_joinBlocks
    {partition : Nat}
    {table : JoinTable}
    {rows : List Row}
    {positions : List Nat}
    {before after : Join}
    {output : List Chunk}
    {stored : List (List Chunk)}
    {side : Partition}
    (succeeds : (joinBlocks partition table positions).Succeeds before output after)
    (own : before.probe = probe)
    (finds : precise → table.Finds build rows)
    (found : before.input.arena.part? (.probe, partition) = some side)
    (held : side.Stored before.input.area.store stored)
    (suits : ∀ segment ∈ side.segments stored, ∀ chunk ∈ segment, chunk.Suits precise probe.schema) :
    (precise → output.flatMap Chunk.rows =
        innerJoin build probe rows (positions.flatMap fun position =>
          ((side.segments stored)[position]?.getD []).flatMap Chunk.rows)) ∧
      before.input.Quiet after.input ∧ { before with input := after.input } = after := by
  induction positions generalizing before output with
  | nil =>
      rw [joinBlocks, Step.succeeds_pure] at succeeds
      obtain ⟨rfl, rfl⟩ := succeeds
      exact ⟨fun _ => rfl, .refl _, rfl⟩
  | cons position positions inductionHypothesis =>
      simp only [joinBlocks, Step.succeeds_bind, succeeds_onInput_iff,
        Partitioned.succeeds_checkCancelled, Step.succeeds_pure] at succeeds
      obtain ⟨_, _, ⟨_, ⟨_, rfl⟩, rfl⟩, chunks, _, ⟨input, restored, rfl⟩, joined, _, joins, others, _,
        rest, rfl, rfl⟩ := succeeds
      obtain ⟨read, quiet⟩ := Partitioned.restores_restoreProbeBlock partition restored found held
      obtain ⟨rfl, head⟩ := succeeds_mapM_joinWith joins own finds
        (suits chunks (List.mem_of_getElem? read))
      obtain ⟨tail, more, same⟩ := inductionHypothesis rest own (quiet.part? ▸ found)
        (held.keeps quiet.keeps fun _ _ => List.not_mem_nil)
      refine ⟨fun is => ?_, quiet.trans more, same⟩
      rw [List.flatMap_append, head is, tail is, List.flatMap_cons, innerJoin_append_probe, read,
        Option.getD_some]

/-- Joining all stored probe rows of a partition with a table. -/
theorem succeeds_joinStored
    {partition : Nat}
    {table : JoinTable}
    {rows : List Row}
    {before between after : Join}
    {blocks : Nat}
    {output : List Chunk}
    {contents : Contents}
    (counted : (onInput (Partitioned.probeBlocks partition)).Succeeds before blocks between)
    (succeeds : (joinBlocks partition table (List.range blocks)).Succeeds between output after)
    (sides : before.Between build probe)
    (finds : precise → table.Finds build rows)
    (holds : before.input.Holds precise contents) :
    (precise → output.flatMap Chunk.rows =
        innerJoin build probe rows (contents (.probe, partition))) ∧
      before.input.Quiet after.input ∧ { before with input := after.input } = after := by
  simp only [succeeds_onInput_iff, Partitioned.probeBlocks, Step.succeeds_bind,
    Partitioned.succeeds_record_iff, Step.succeeds_pure] at counted
  obtain ⟨_, ⟨record, _, ⟨found, rfl⟩, rfl, rfl⟩, rfl⟩ := counted
  have there := Arena.part?_probe found
  cases stored : record.probe with
  | none =>
      rw [stored] at there succeeds
      simp only [Option.map_none, Option.getD_none, List.range_zero, joinBlocks,
        Step.succeeds_pure] at succeeds
      obtain ⟨rfl, rfl⟩ := succeeds
      rw [holds.absent _ there]
      exact ⟨fun _ => rfl, .refl _, rfl⟩
  | some side =>
      rw [stored] at there succeeds
      obtain ⟨declared, same, sideHolds⟩ := holds.holds _ _ there
      rw [sides.probeSide, Option.some.injEq] at same
      subst same
      obtain ⟨segments, held, content, suits⟩ :=
        sideHolds.toStores.exists_segments (holds.spilled partition side there)
      obtain ⟨joined, quiet, frame⟩ := succeeds_joinBlocks succeeds sides.own finds there held suits
      rw [Option.map_some, Option.getD_some, ← Partition.length_segments held, ← List.flatMap_assoc,
        Partitioned.flatMap_range_getElem?, content] at joined
      exact ⟨joined, quiet, frame⟩

/-- Joining a partition yields the join of its rows and settles it. -/
theorem succeeds_joinPartition
    {partition : Nat}
    {before after : Join}
    {output : List Chunk}
    {contents : Contents}
    (succeeds : (joinPartition partition).Succeeds before output after)
    (sides : before.Between build probe)
    (holds : before.input.Holds precise contents)
    (loadable : contents.Loadable precise) :
    (precise → output.flatMap Chunk.rows =
        innerJoin build probe (contents (.build, partition)) (contents (.probe, partition))) ∧
      (∃ left, before.input.Settles precise after.input partition contents left) ∧
      { before with input := after.input } = after := by
  simp only [joinPartition, Step.succeeds_bind, Step.succeeds_get, Step.succeeds_ofExcept,
    Step.succeeds_pure] at succeeds
  obtain ⟨chunks, _, load, _, _, ⟨rfl, rfl⟩, table, _, ⟨made, rfl⟩, blocks, _, counted, output,
    joined, joins, _, _, complete, rfl, rfl⟩ := succeeds
  obtain ⟨loaded, loading, rfl⟩ := succeeds_onInput_iff.mp load
  obtain ⟨last, completing, rfl⟩ := succeeds_onInput_iff.mp complete
  obtain ⟨rows, suits, loadedHolds, outline, parts⟩ := Partitioned.succeeds_loadBuild loading holds
  have loadedSides : Between { before with input := loaded } build probe :=
    sides.transfer (congrArg Outline.side? outline) rfl
  rw [loadedSides.buildSchema, loadedSides.buildKey] at made
  have finds : precise → table.Finds build (contents (.build, partition)) := fun is =>
    rows ▸ JoinTable.finds_ofChunks made
      (fun chunk member => (suits chunk member).schema_eq.trans sides.buildSchema)
      (rows ▸ loadable is partition)
  obtain ⟨yields, quiet, frame⟩ := succeeds_joinStored counted joins loadedSides finds loadedHolds
  obtain ⟨left, settles⟩ := Partitioned.succeeds_complete completing (quiet.holds loadedHolds)
  refine ⟨yields, ⟨left, settles.of_mark (quiet.outline.trans outline) (quiet.part?.trans parts)⟩, ?_⟩
  rw [← frame]

/-! ## Visiting partitions -/

/-- What a join owes for each partition: the join of its rows, as long as it is open. Where this is to be
`precise`, the rows can be told apart by their numbers. -/
def Owes
    (precise : Prop)
    (build probe : ProbeSide)
    (join : Join)
    (due : Nat → List Row) : Prop :=
  ∃ contents, join.Between build probe ∧ join.input.Holds precise contents ∧
    contents.Loadable precise ∧ due = join.input.due (innerJoin build probe) contents

/-- A partition without build rows or without probe rows owes nothing. -/
theorem innerJoin_eq_nil
    {input : Partitioned}
    {contents : Contents}
    {partition : Nat}
    {record : PartitionRecord}
    (holds : input.Holds precise contents)
    (found : input.arena.records[partition]? = some record)
    (empty : (record.build.isEmpty || record.probe.all Partition.isEmpty) = true) :
    innerJoin build probe (contents (.build, partition)) (contents (.probe, partition)) = [] := by
  have there := Arena.part?_probe found
  rw [Bool.or_eq_true] at empty
  obtain noBuild | noProbe := empty
  · rw [(Partitioned.isEmpty_build_iff holds found).mp noBuild, innerJoin_nil_build]
  · have none : contents (.probe, partition) = [] := by
      cases side : record.probe with
      | none => exact holds.absent _ (there.trans side)
      | some side' =>
          rw [side] at there noProbe
          obtain ⟨_, _, held⟩ := holds.holds _ _ there
          exact held.isEmpty_iff.mp noProbe
    rw [none, innerJoin_nil_probe]

/-- Settling a partition leaves what is due for the others. -/
theorem owes_of_settles
    {partition : Nat}
    {join : Join}
    {input : Partitioned}
    {contents left : Contents}
    (settles : join.input.Settles precise input partition contents left)
    (loadable : contents.Loadable precise)
    (sides : join.Between build probe) :
    ∃ due, Owes precise build probe { join with input } due ∧
      join.input.arena.size ≤ input.arena.size ∧
      (∀ other < join.input.arena.size, other ≠ partition →
        due other = join.input.due (innerJoin build probe) contents other) ∧
      due partition = [] :=
  ⟨_, ⟨left, sides.transfer settles.side? rfl, settles.holds, settles.loadable loadable, rfl⟩,
    Nat.le_of_eq settles.size.symm, fun _ _ different => settles.due_others _ different,
    settles.due_self _⟩

/-- What a visit does to its partition where it succeeds: it leaves a closed one as it is, completes one
that nothing can be joined of, joins one, or splits one that is spilled. -/
inductive Visited
    (partition : Nat)
    (record : PartitionRecord)
    (before : Join) : Visit Chunk → Join → Prop where
  | closed
      (closed : record.state ≠ .opened) :
      Visited partition record before (.done []) before
  | completed
      {input : Partitioned}
      (opened : record.state = .opened)
      (nothing : (record.build.isEmpty || record.probe.all Partition.isEmpty) = true)
      (completes : (Partitioned.complete partition).Succeeds before.input () input) :
      Visited partition record before (.done []) { before with input }
  | joined
      {output : List Chunk}
      {after : Join}
      (opened : record.state = .opened)
      (some : (record.build.isEmpty || record.probe.all Partition.isEmpty) = false)
      (joins : (joinPartition partition).Succeeds before output after) :
      Visited partition record before (.done output) after
  | split
      {kept order : List Nat}
      {input : Partitioned}
      (opened : record.state = .opened)
      (spilled : record.build.spilled = true)
      (splits : (Partitioned.repartition partition).Succeeds before.input kept input)
      (ordered : (Partitioned.processingOrder kept).Succeeds input order input) :
      Visited partition record before (.split order) { before with input }

theorem visited_of_succeeds
    {partition : Nat}
    {record : PartitionRecord}
    {before after : Join}
    {result : Visit Chunk}
    (succeeds : (visit partition).Succeeds before result after)
    (found : before.input.arena.records[partition]? = some record) :
    Visited partition record before result after := by
  have visits : VisitEnds partition record before (Visited partition record before) fun _ _ => True :=
    { cancelled := .of_forall (fun _ _ => trivial) fun _ _ => trivial
      closed := .closed
      completed := fun opened nothing => (Step.ends_outcome _ _).mono
        (fun _ _ completes => .completed opened nothing completes) fun _ _ _ => trivial
      split := fun opened _ spilled _ _ => (Step.ends_outcome _ _).mono
        (fun _ _ splits _ ordered => .split opened spilled splits ordered) fun _ _ _ => trivial
      joined := fun opened some _ => (Step.ends_outcome _ _).mono
        (fun _ _ joins => .joined opened (Bool.eq_false_iff.mpr some) joins) fun _ _ _ => trivial }
  exact (visits.ends found).of_succeeds succeeds

/-- A visit leaves nothing due for its partition. It yields the join of its rows, or passes it on to the
children. -/
theorem conserves_visit :
    Conserves precise (fun join : Join => join.input.arena.size) (Owes precise build probe) Chunk.rows
      visit := by
  rintro partition before after result _ succeeds ⟨contents, sides, holds, loadable, rfl⟩ known
  obtain ⟨record, found⟩ := Arena.exists_record_of_lt known
  have placed := Arena.place?_of_record found
  have due : record.state = .opened → before.input.due (innerJoin build probe) contents partition = _ :=
    Partitioned.due_of_opened placed
  cases visited_of_succeeds succeeds found with
  | closed closed =>
      refine ⟨_, ⟨contents, sides, holds, loadable, rfl⟩, Nat.le_refl _, fun _ _ _ => rfl, ?_⟩
      rw [Partitioned.due_of_not_opened placed closed]
      exact ⟨rfl, fun _ => .refl _⟩
  | completed opened nothing completes =>
      obtain ⟨_, settles⟩ := Partitioned.succeeds_complete completes holds
      obtain ⟨left, owed, grown, others, settled⟩ := owes_of_settles settles loadable sides
      refine ⟨left, owed, grown, others, settled, fun _ => ?_⟩
      rw [due opened, innerJoin_eq_nil holds found nothing]
      exact .refl _
  | joined opened _ joins =>
      obtain ⟨yields, ⟨_, settles⟩, frame⟩ := succeeds_joinPartition joins sides holds loadable
      obtain ⟨left, owed, grown, others, settled⟩ := owes_of_settles settles loadable sides
      rw [frame] at owed
      exact ⟨left, owed, grown, others, settled,
        fun is => .of_eq ((yields is).trans (due opened).symm)⟩
  | split opened spilled splits ordered =>
      obtain ⟨divided, held, _, side?, grown, others, settled, _, loads, distinct, bounds, passed⟩ :=
        Partitioned.succeeds_splitVisit splits ordered holds found opened spilled innerJoin_nil_build
          fun buildRows probeRows => by
            simp only [Partitioned.bucketOf_of_side? sides.buildSide,
              Partitioned.bucketOf_of_side? sides.probeSide]
            exact perm_innerJoin_buckets (Directory.bucketOfKey_lt _) buildRows probeRows
      exact ⟨_, ⟨divided, sides.transfer side? rfl, held, loads loadable, rfl⟩, grown, others, settled,
        distinct, bounds, passed⟩

/-! ## The build side -/

/-- Dropping the rows with absent keys keeps every row that has a key. -/
theorem rows_of_dropAbsentKeys
    {chunk kept : Chunk}
    {key : String}
    (dropped : dropAbsentKeys chunk key = .ok kept) :
    kept.schema = chunk.schema ∧
      ∃ keep : Row → Bool, kept.rows = chunk.rows.filter keep ∧
        ∀ row, chunk.schema.keyOf key row ≠ none → keep row = true := by
  simp only [dropAbsentKeys, bind_eq_ok_iff, pure_eq_ok_iff, Chunk.position_eq_ok_iff] at dropped
  obtain ⟨position, named, rfl⟩ := dropped
  refine ⟨rfl, _, rfl, ?_⟩
  intro row present
  rw [Schema.keyOf_of_position? named, Chunk.rowKey] at present
  cases cell : Row.cell row position with
  | null => simp [cell, Cell.key?] at present
  | _ => rfl

/-- What is left of a chunk is no longer than it. -/
theorem suits_of_dropAbsentKeys
    {chunk kept : Chunk}
    {key : String}
    {schema : Schema}
    (dropped : dropAbsentKeys chunk key = .ok kept)
    (suits : chunk.Suits precise schema) :
    kept.Suits precise schema := by
  obtain ⟨same, keep, rows, -⟩ := rows_of_dropAbsentKeys dropped
  refine ⟨same.trans suits.schema_eq, fun is => ?_⟩
  rw [Chunk.Numbered, Chunk.length, rows]
  exact Nat.le_trans (List.length_filter_le ..) (suits.numbered is)

/-- Every filter takes in the keys, and nothing else changes. -/
theorem succeeds_insertKeys
    {cells : List Cell}
    {done filters : List KeyFilter}
    {before after : Join}
    {value : Unit}
    (succeeds : (insertKeys cells done filters).Succeeds before value after) :
    ∃ inserted, List.Forall₂ (fun filter filled => filter.insertColumn cells = .ok filled)
        filters inserted ∧
      { before with filters := done ++ inserted } = after := by
  induction filters generalizing done before with
  | nil =>
      rw [insertKeys, Step.succeeds_modify] at succeeds
      exact ⟨[], .nil, by rw [← succeeds, List.append_nil]⟩
  | cons filter rest inductionHypothesis =>
      rw [insertKeys] at succeeds
      split at succeeds
      · next filled inserted =>
        obtain ⟨others, pairs, same⟩ := inductionHypothesis succeeds
        refine ⟨filled :: others, .cons inserted pairs, ?_⟩
        rw [← same, List.append_assoc]
        rfl
      · simp only [Step.succeeds_bind, Step.succeeds_fail, and_false, exists_false] at succeeds

/-- What accepting a chunk does: its rows with keys, if there are any, go into the filters and to the
partitions. -/
theorem addBuildChunk_cases
    {chunk : Chunk}
    {before after : Join}
    {value : Unit}
    (succeeds : (addBuildChunk chunk).Succeeds before value after) :
    ∃ kept, dropAbsentKeys chunk before.input.buildKey = .ok kept ∧
      ((kept.rows = [] ∧ before = after) ∨
        kept.rows ≠ [] ∧ ∃ filled, List.Forall₂ (fun filter filled =>
              ∃ cells, kept.keyCells before.input.buildKey = .ok cells ∧
                filter.insertColumn cells = .ok filled)
            before.filters filled ∧
          (Partitioned.addBuildChunk kept).Succeeds before.input () after.input ∧
          { before with input := after.input, filters := filled } = after) := by
  simp only [addBuildChunk, Step.succeeds_bind, Step.succeeds_get] at succeeds
  obtain ⟨_, _, ⟨rfl, rfl⟩, succeeds⟩ := succeeds
  split at succeeds
  · simp only [Step.succeeds_bind, Step.succeeds_fail, false_and, exists_false] at succeeds
  simp only [Step.succeeds_bind, Step.succeeds_ofExcept] at succeeds
  obtain ⟨kept, _, ⟨dropped, rfl⟩, succeeds⟩ := succeeds
  refine ⟨kept, dropped, ?_⟩
  split at succeeds
  · next empty =>
    rw [Step.succeeds_pure] at succeeds
    obtain ⟨_, rfl⟩ := succeeds
    exact .inl ⟨List.isEmpty_iff.mp empty, rfl⟩
  · next some =>
    refine .inr ⟨fun none => some (List.isEmpty_iff.mpr none), ?_⟩
    split at succeeds
    · next noFilters =>
      obtain ⟨input, added, rfl⟩ := succeeds_onInput_iff.mp succeeds
      refine ⟨before.filters, ?_, added, rfl⟩
      rw [List.isEmpty_iff.mp noFilters]
      exact .nil
    · simp only [Step.succeeds_bind, Step.succeeds_ofExcept] at succeeds
      obtain ⟨cells, _, ⟨keyed, rfl⟩, _, _, inserting, succeeds⟩ := succeeds
      obtain ⟨filled, pairs, rfl⟩ := succeeds_insertKeys inserting
      obtain ⟨input, added, rfl⟩ := succeeds_onInput_iff.mp succeeds
      exact ⟨filled, pairs.imp fun _ _ inserted => ⟨cells, keyed, inserted⟩, added, rfl⟩

theorem outline_of_addBuildChunk
    {before after : Join}
    {chunk : Chunk}
    {value : Unit}
    (succeeds : (addBuildChunk chunk).Succeeds before value after) :
    after.input.outline = before.input.outline := by
  obtain ⟨_, _, ⟨_, rfl⟩ | ⟨_, _, _, added, _⟩⟩ := addBuildChunk_cases succeeds
  · rfl
  · exact Partitioned.outline_of_addBuildChunk added

theorem Between.addBuildChunk
    {before after : Join}
    {chunk : Chunk}
    {value : Unit}
    (sides : before.Between build probe)
    (succeeds : (addBuildChunk chunk).Succeeds before value after) :
    after.Between build probe := by
  refine sides.transfer (Partitioned.side?_of_outline (outline_of_addBuildChunk succeeds)) ?_
  obtain ⟨_, _, ⟨_, rfl⟩ | ⟨_, _, _, _, same⟩⟩ := addBuildChunk_cases succeeds
  · rfl
  · rw [← same]

/-- A join that has accepted build rows, none of which matters but those with a key. -/
structure Building
    (precise : Prop)
    (join : Join)
    (build probe : ProbeSide)
    (rows : List Row) : Prop where
  sides : join.Between build probe
  tables : join.tables = []
  stored : ∃ kept contents, join.input.Rooted precise kept contents ∧ kept.Sublist rows ∧
    (∀ root, contents (.probe, root) = []) ∧
    ∀ row, joinedRows build probe kept row = joinedRows build probe rows row

theorem Building.addBuildChunk
    {before after : Join}
    {rows : List Row}
    {chunk : Chunk}
    {value : Unit}
    (building : before.Building precise build probe rows)
    (succeeds : (addBuildChunk chunk).Succeeds before value after)
    (suits : chunk.Suits precise build.schema) :
    after.Building precise build probe (rows ++ chunk.rows) := by
  have stillSides := building.sides.addBuildChunk succeeds
  obtain ⟨kept, contents, rooted, sublist, noProbe, matters⟩ := building.stored
  obtain ⟨dropped, dropping, cases⟩ := addBuildChunk_cases succeeds
  obtain ⟨_, keep, rows_eq, keeps⟩ := rows_of_dropAbsentKeys dropping
  have chunkRows : ∀ row, joinedRows build probe dropped.rows row =
      joinedRows build probe chunk.rows row := by
    intro row
    rw [rows_eq]
    refine joinedRows_filter fun other _ same present => keeps other ?_
    rw [suits.schema_eq, building.sides.buildKey, ← ProbeSide.keyOf, same]
    exact present
  obtain ⟨empty, rfl⟩ | ⟨-, filled, _, added, same⟩ := cases
  · refine ⟨building.sides, building.tables, kept, contents, rooted,
      sublist.trans (List.sublist_append_left ..), noProbe, fun row => ?_⟩
    rw [joinedRows_append, ← chunkRows, empty, matters]
    simp [joinedRows]
  · obtain ⟨_, more, moreRooted, sameProbe⟩ := rooted.addBuildChunk added
      (building.sides.buildSchema ▸ suits_of_dropAbsentKeys dropping suits)
    have noTables : after.tables = [] := by
      rw [← same]
      exact building.tables
    refine ⟨stillSides, noTables, _, more, moreRooted, sublist.append (rows_eq ▸ List.filter_sublist),
      fun root => (sameProbe root).trans (noProbe root), fun row => ?_⟩
    rw [joinedRows_append, joinedRows_append, chunkRows, matters]

/-! ## The probe side -/

/-- No probe rows are stored for a partition with a table, which finds the build rows of the partition where
this is to be `precise`. -/
def Tabled
    (precise : Prop)
    (join : Join)
    (build : ProbeSide)
    (contents : Contents) : Prop :=
  ∀ partition table, (partition, table) ∈ join.tables →
    (precise → table.Finds build (contents (.build, partition))) ∧ contents (.probe, partition) = []

/-- What a root still owes. -/
def owedBy
    (build probe : ProbeSide)
    (contents : Contents)
    (root : Nat) : List Row :=
  innerJoin build probe (contents (.build, root)) (contents (.probe, root))

/-- What the roots still owe. -/
def pending
    (build probe : ProbeSide)
    (count : Nat)
    (contents : Contents) : List Row :=
  (List.range count).flatMap (owedBy build probe contents)

/-- Making tables changes no partition. -/
theorem succeeds_makeTables
    {partitions : List Nat}
    {before after : Join}
    {contents : Contents}
    {value : Unit}
    (succeeds : (makeTables partitions).Succeeds before value after)
    (sides : before.Between build probe)
    (holds : before.input.Holds precise contents)
    (loadable : contents.Loadable precise)
    (noProbe : ∀ root, contents (.probe, root) = [])
    (tabled : before.Tabled precise build contents) :
    { before with tables := after.tables } = after ∧ after.Tabled precise build contents := by
  induction partitions generalizing before with
  | nil =>
      rw [makeTables, Step.succeeds_pure] at succeeds
      obtain ⟨_, rfl⟩ := succeeds
      exact ⟨rfl, tabled⟩
  | cons partition rest inductionHypothesis =>
      simp only [makeTables, Step.succeeds_bind, succeeds_onInput_iff,
        Partitioned.succeeds_record_iff] at succeeds
      obtain ⟨record, _, ⟨_, ⟨found, rfl⟩, rfl⟩, succeeds⟩ := succeeds
      split at succeeds
      · exact inductionHypothesis succeeds sides holds tabled
      · next making =>
        simp only [Step.succeeds_bind, Step.succeeds_get, Step.succeeds_ofExcept,
          Step.succeeds_modify] at succeeds
        obtain ⟨_, _, ⟨rfl, rfl⟩, table, _, ⟨made, rfl⟩, _, _, rfl, succeeds⟩ := succeeds
        have inMemory : record.build.spilled = false := by
          rw [Bool.or_eq_true, not_or] at making
          exact Bool.eq_false_iff.mpr making.1
        obtain ⟨declared, same, held⟩ := holds.holds _ _ (Arena.part?_build found)
        rw [sides.buildSide, Option.some.injEq] at same
        subst same
        obtain ⟨rows, suits⟩ := held.toStores.chunks_of_inMemory inMemory
        have schema : before.input.buildSchema = build.schema := sides.buildSchema
        have key : before.input.buildKey = build.key := sides.buildKey
        rw [schema, key] at made
        have finds : precise → table.Finds build (contents (.build, partition)) := fun is =>
          rows ▸ JoinTable.finds_ofChunks made (fun chunk member => (suits chunk member).schema_eq)
            (rows ▸ loadable is partition)
        have more : Tabled precise
            { before with
              tables := (partition, table) :: before.tables.filter (·.1 ≠ partition) }
            build contents := by
          intro other another member
          obtain head | tail := List.mem_cons.mp member
          · cases head
            exact ⟨finds, noProbe partition⟩
          · exact tabled other another (List.mem_filter.mp tail).1
        obtain ⟨frame, allTabled⟩ := inductionHypothesis succeeds
          ⟨sides.buildSide, sides.probeSide, sides.own⟩ holds more
        exact ⟨frame, allTabled⟩

/-- What is yielded for a part of a probe chunk, at once or later: its join with the build rows of the
partition that it belongs to. -/
def share
    (build probe : ProbeSide)
    (contents : Contents)
    (pair : Nat × Option Chunk) : List Row :=
  innerJoin build probe (contents (.build, pair.1)) (Directory.partRows pair.2)

/-- Parts of a probe chunk were joined at once, or stored, or have nothing to be joined with: what was
yielded and what is pending have grown together by the joins of the parts. Where there is no table, it is
what is pending that has grown. The rows of stored chunks have different numbers where this is to be
`exact`, and those of the tables as well where it is to be `precise`. -/
structure TakesParts
    (exact precise : Prop)
    (build probe : ProbeSide)
    (count : Nat)
    (pairs : List (Nat × Option Chunk))
    (output : List Chunk)
    (before after : Join)
    (contents filled : Contents) : Prop where
  holds : after.input.Holds exact filled
  tabled : after.Tabled precise build filled
  frame : { before with input := after.input } = after
  outline : after.input.outline = before.input.outline
  keeps : ∀ root, filled (.build, root) = contents (.build, root)
  stored : ∀ root, before.tables.lookup root = none →
    owedBy build probe filled root = owedBy build probe contents root ++
      pairs.flatMap fun pair => if pair.1 = root then share build probe contents pair else []
  paid : precise → (output.flatMap Chunk.rows ++ pending build probe count filled).Perm
    (pending build probe count contents ++ pairs.flatMap (share build probe contents))

section TakesParts

variable {exact : Prop} {count partition : Nat} {pairs more : List (Nat × Option Chunk)} {part : Chunk}
  {output others : List Chunk} {before middle after : Join} {contents kept filled : Contents}

theorem TakesParts.tables
    (takes : TakesParts exact precise build probe count pairs output before after contents filled) :
    after.tables = before.tables := by
  rw [← takes.frame]

theorem TakesParts.sides
    (takes : TakesParts exact precise build probe count pairs output before after contents filled)
    (sides : before.Between build probe) :
    after.Between build probe :=
  sides.transfer (Partitioned.side?_of_outline takes.outline) (by rw [← takes.frame])

/-- Nothing happens for parts that nothing is joined with. -/
theorem takesParts_of_nothing
    (holds : before.input.Holds exact contents)
    (tabled : before.Tabled precise build contents)
    (nothing : ∀ pair ∈ pairs, share build probe contents pair = []) :
    TakesParts exact precise build probe count pairs [] before before contents contents where
  holds := holds
  tabled := tabled
  frame := rfl
  outline := rfl
  keeps _ := rfl
  stored root _ := by
    rw [List.flatMap_eq_nil_iff.mpr, List.append_nil]
    intro pair member
    rw [nothing pair member, ite_self]
  paid _ := by
    rw [List.flatMap_eq_nil_iff.mpr nothing, List.append_nil]
    exact .refl _

theorem TakesParts.trans
    (first : TakesParts exact precise build probe count pairs output before middle contents kept)
    (second : TakesParts exact precise build probe count more others middle after kept filled) :
    TakesParts exact precise build probe count (pairs ++ more) (output ++ others) before after contents
      filled := by
  have shares : ∀ pair, share build probe kept pair = share build probe contents pair :=
    fun pair => by rw [share, first.keeps, share]
  refine
    { holds := second.holds
      tabled := second.tabled
      frame := by rw [← second.frame, ← first.frame]
      outline := second.outline.trans first.outline
      keeps := fun root => (second.keeps root).trans (first.keeps root)
      stored := fun root missing => ?stored
      paid := fun is => ?paid }
  case stored =>
    rw [second.stored root (first.tables ▸ missing), first.stored root missing, List.append_assoc,
      List.flatMap_append]
    simp only [shares]
  case paid =>
    have later := second.paid is
    simp only [funext shares] at later
    rw [List.flatMap_append, List.flatMap_append, List.append_assoc, ← List.append_assoc (pending ..)]
    refine (later.append_left _).trans ?_
    rw [← List.append_assoc]
    exact (first.paid is).append_right _

/-- A part is joined with the table of its partition. -/
theorem takesParts_of_table
    {table : JoinTable}
    (found : before.tables.lookup partition = some table)
    (holds : before.input.Holds exact contents)
    (tabled : before.Tabled precise build contents)
    (joined : precise →
      output.flatMap Chunk.rows = share build probe contents (partition, some part)) :
    TakesParts exact precise build probe count [(partition, some part)] output before before contents
      contents where
  holds := holds
  tabled := tabled
  frame := rfl
  outline := rfl
  keeps _ := rfl
  stored root missing := by
    have different : partition ≠ root := by
      rintro rfl
      exact Option.some_ne_none table (found.symm.trans missing)
    rw [List.flatMap_singleton, if_neg different, List.append_nil]
  paid is := by
    rw [joined is, List.flatMap_singleton]
    exact List.perm_append_comm

/-- A root owes the join with probe rows that are stored for it in addition. -/
theorem owedBy_append_self
    (contents : Contents)
    (partition : Nat)
    (rows : List Row) :
    owedBy build probe (contents.append (.probe, partition) rows) partition =
      owedBy build probe contents partition ++
        innerJoin build probe (contents (.build, partition)) rows := by
  rw [owedBy, Contents.append, Function.update_self, Function.update_of_ne (by simp),
    innerJoin_append_probe, owedBy]

theorem owedBy_append_of_ne
    {root : Nat}
    (contents : Contents)
    (rows : List Row)
    (different : root ≠ partition) :
    owedBy build probe (contents.append (.probe, partition) rows) root =
      owedBy build probe contents root := by
  rw [owedBy, Contents.append, Function.update_of_ne (by simp), Function.update_of_ne
    (by simp [different]), owedBy]

/-- Tables are as good as before when probe rows are stored for a partition that has none. -/
theorem Tabled.append
    {join : Join}
    {rows : List Row}
    (tabled : join.Tabled precise build contents)
    (missing : join.tables.lookup partition = none) :
    join.Tabled precise build (contents.append (.probe, partition) rows) := by
  intro other table member
  have different : other ≠ partition := by
    rintro rfl
    have apart := List.lookup_eq_none_iff.mp missing _ member
    simp at apart
  obtain ⟨finds, none⟩ := tabled other table member
  rw [Contents.append, Function.update_of_ne (by simp), Function.update_of_ne (by simp [different])]
  exact ⟨finds, none⟩

/-- A part is stored for a partition that has no table. -/
theorem takesParts_of_stored
    {input : Partitioned}
    (missing : before.tables.lookup partition = none)
    (tabled : before.Tabled precise build contents)
    (known : partition < count)
    (holds : input.Holds exact (contents.append (.probe, partition) part.rows))
    (outline : input.outline = before.input.outline) :
    TakesParts exact precise build probe count [(partition, some part)] [] before { before with input }
      contents (contents.append (.probe, partition) part.rows) where
  holds := holds
  tabled := tabled.append missing
  frame := rfl
  outline := outline
  keeps root := by rw [Contents.append, Function.update_of_ne (by simp)]
  stored root _ := by
    rw [List.flatMap_singleton]
    split
    · next here =>
      subst here
      exact owedBy_append_self contents partition part.rows
    · next different =>
      rw [owedBy_append_of_ne contents part.rows (Ne.symm different), List.append_nil]
  paid _ := by
    rw [List.flatMap_singleton]
    exact perm_flatMap_add List.nodup_range (List.mem_range.mpr known)
      (owedBy_append_self contents partition part.rows) fun _ => owedBy_append_of_ne contents part.rows

/-- A part of a probe chunk is joined at once, or stored, or has nothing to be joined with. -/
theorem succeeds_probePart
    (succeeds : (probePart partition part).Succeeds before output after)
    (sides : before.Between build probe)
    (holds : before.input.Holds exact contents)
    (tabled : before.Tabled precise build contents)
    (suits : part.Suits exact probe.schema)
    (stricter : precise → exact)
    (known : partition < count) :
    ∃ filled, TakesParts exact precise build probe count [(partition, some part)] output before after contents
      filled := by
  simp only [probePart, Step.succeeds_bind, Step.succeeds_get] at succeeds
  obtain ⟨_, _, ⟨rfl, rfl⟩, succeeds⟩ := succeeds
  split at succeeds
  · next table found =>
    obtain ⟨earlier, later, split, _⟩ := List.lookup_eq_some_iff.mp found
    have member : (partition, table) ∈ before.tables := by simp [split]
    obtain ⟨rfl, joined⟩ := succeeds_joinWith succeeds sides.own (tabled _ _ member).1
      (suits.imp stricter)
    exact ⟨contents, takesParts_of_table found holds tabled joined⟩
  · next missing =>
    simp only [Step.succeeds_bind, succeeds_onInput_iff, Partitioned.succeeds_record_iff]
      at succeeds
    obtain ⟨record, _, ⟨_, ⟨found, rfl⟩, rfl⟩, succeeds⟩ := succeeds
    split at succeeds
    · next empty =>
      rw [Step.succeeds_pure] at succeeds
      obtain ⟨rfl, rfl⟩ := succeeds
      refine ⟨contents, takesParts_of_nothing holds tabled (List.forall_mem_singleton.mpr ?_)⟩
      rw [share, (Partitioned.isEmpty_build_iff holds found).mp empty, innerJoin_nil_build]
    · simp only [Step.succeeds_bind, succeeds_onInput_iff, Step.succeeds_pure] at succeeds
      obtain ⟨_, _, ⟨input, appended, rfl⟩, rfl, rfl⟩ := succeeds
      obtain ⟨held, fills⟩ :=
        Partitioned.appends_appendProbe appended holds sides.probeSide suits
      exact ⟨_, takesParts_of_stored missing tabled known held fills.outline⟩

/-- The parts of a probe chunk one after the other. -/
theorem succeeds_probeParts
    (succeeds : (probeParts pairs).Succeeds before output after)
    (sides : before.Between build probe)
    (holds : before.input.Holds exact contents)
    (tabled : before.Tabled precise build contents)
    (suits : ∀ partition part, (partition, some part) ∈ pairs → part.Suits exact probe.schema)
    (stricter : precise → exact)
    (known : ∀ pair ∈ pairs, pair.1 < count) :
    ∃ filled, TakesParts exact precise build probe count pairs output before after contents filled := by
  induction pairs generalizing before output contents with
  | nil =>
      rw [probeParts, Step.succeeds_pure] at succeeds
      obtain ⟨rfl, rfl⟩ := succeeds
      exact ⟨contents, takesParts_of_nothing holds tabled fun _ => (absurd · List.not_mem_nil)⟩
  | cons pair rest inductionHypothesis =>
      obtain ⟨partition, part⟩ := pair
      have restSuits := fun other part member => suits other part (List.mem_cons_of_mem _ member)
      have restKnown := fun other member => known other (List.mem_cons_of_mem _ member)
      cases part with
      | none =>
          rw [probeParts] at succeeds
          obtain ⟨filled, takes⟩ :=
            inductionHypothesis succeeds sides holds tabled restSuits restKnown
          have skipped : TakesParts exact precise build probe count [(partition, none)] [] before before
              contents contents :=
            takesParts_of_nothing holds tabled
              (List.forall_mem_singleton.mpr (innerJoin_nil_probe _))
          exact ⟨filled, skipped.trans takes⟩
      | some part =>
          simp only [probeParts, Step.succeeds_bind, Step.succeeds_pure] at succeeds
          obtain ⟨first, middle, probed, others, _, succeeds, rfl, rfl⟩ := succeeds
          obtain ⟨kept, takes⟩ :=
            succeeds_probePart probed sides holds tabled (suits partition part List.mem_cons_self)
              stricter (known _ List.mem_cons_self)
          obtain ⟨filled, takesMore⟩ :=
            inductionHypothesis succeeds (takes.sides sides) takes.holds takes.tabled restSuits
              restKnown
          exact ⟨filled, takes.trans takesMore⟩

end TakesParts

/-- The roots are joined with the parts of a chunk as the accepted build rows are with the chunk. -/
theorem perm_innerJoin_roots
    {input : Partitioned}
    {kept : List Row}
    {contents : Contents}
    {chunk : Chunk}
    {parts : List (Option Chunk)}
    (rooted : input.Rooted precise kept contents)
    (is : precise)
    (buildSide : input.side? .build = some build)
    (deals : (input.directory 0).Deals probe.key chunk parts)
    (suits : chunk.Suits precise probe.schema) :
    ((input.roots.zip parts).flatMap (share build probe contents)).Perm
      (innerJoin build probe kept chunk.rows) := by
  have buckets := @perm_innerJoin_buckets build probe _ _
    (Directory.bucketOfKey_lt (input.directory 0)) kept chunk.rows
  have parted := Directory.flatMap_zip_range
    (fun root rows => innerJoin build probe (contents (.build, root)) rows)
    deals.length_eq (deals.rows_eq (suits.numbered is))
  have roots : ∀ root ∈ List.range input.params.partitionCount,
      contents (.build, root) = kept.filter fun row =>
        (input.directory 0).bucketOfKey (build.keyOf row) = root := by
    intro root member
    rw [rooted.build is root (List.mem_range.mp member)]
    simp only [Partitioned.bucketOf_of_side? buildSide]
  rw [Partitioned.roots]
  refine (List.Perm.of_eq (parted.trans (List.flatMap_congr fun root member => ?_))).trans buckets
  rw [roots root member, suits.schema_eq]
  rfl

/-- What is yielded for the parts of a chunk that belong to one root: its join with the rows of its
bucket. -/
theorem flatMap_share_root
    {input : Partitioned}
    {contents : Contents}
    {chunk : Chunk}
    {parts : List (Option Chunk)}
    {root : Nat}
    (probeSide : input.side? .probe = some probe)
    (deals : (input.directory 0).Deals probe.key chunk parts)
    (fits : chunk.schema = probe.schema)
    (numbered : chunk.Numbered)
    (known : root < input.params.partitionCount) :
    ((input.roots.zip parts).flatMap fun pair =>
        if pair.1 = root then share build probe contents pair else []) =
      innerJoin build probe (contents (.build, root))
        (chunk.rows.filter fun row => input.bucketOf .probe 0 row = root) := by
  have parted := Directory.flatMap_zip_range
    (fun index rows =>
      if index = root then innerJoin build probe (contents (.build, index)) rows else [])
    deals.length_eq (deals.rows_eq numbered)
  rw [Partitioned.roots]
  refine parted.trans ((flatMap_range_single known).trans ?_)
  simp only [Partitioned.bucketOf_of_side? probeSide]
  rw [fits]
  rfl

/-- A root is joined with the part of a chunk for it as the accepted build rows are. -/
theorem innerJoin_root
    {input : Partitioned}
    {kept : List Row}
    {contents : Contents}
    {chunk : Chunk}
    {parts : List (Option Chunk)}
    {root : Nat}
    (rooted : input.Rooted precise kept contents)
    (is : precise)
    (buildSide : input.side? .build = some build)
    (probeSide : input.side? .probe = some probe)
    (deals : (input.directory 0).Deals probe.key chunk parts)
    (suits : chunk.Suits precise probe.schema)
    (known : root < input.params.partitionCount) :
    ((input.roots.zip parts).flatMap fun pair =>
        if pair.1 = root then share build probe contents pair else []) =
      innerJoin build probe kept
        (chunk.rows.filter fun row => input.bucketOf .probe 0 row = root) := by
  rw [flatMap_share_root probeSide deals suits.schema_eq (suits.numbered is) known,
    rooted.build is root known]
  simp only [Partitioned.bucketOf_of_side? buildSide, Partitioned.bucketOf_of_side? probeSide]
  exact innerJoin_bucket (input.directory 0).bucketOfKey root kept chunk.rows

/-- A join that takes its probe side. Where this is to be `precise`, what was yielded and what is pending are
together the join of all rows that were accepted, and what a root without a table owes is all of its
share. -/
structure Probing
    (precise : Prop)
    (join : Join)
    (build probe : ProbeSide)
    (buildRows probeRows yielded : List Row) : Prop where
  sides : join.Between build probe
  stored : ∃ kept contents, join.input.Rooted precise kept contents ∧
    (∀ row, joinedRows build probe kept row = joinedRows build probe buildRows row) ∧
    contents.Loadable precise ∧ join.Tabled precise build contents ∧
    (precise → ∀ root < join.input.params.partitionCount, join.tables.lookup root = none →
      owedBy build probe contents root = innerJoin build probe buildRows
        (probeRows.filter fun row => join.input.bucketOf .probe 0 row = root)) ∧
    (precise → (yielded ++ pending build probe join.input.params.partitionCount contents).Perm
      (innerJoin build probe buildRows probeRows))

/-- At the end of the build side tables are made, and no partition changes. -/
theorem tabled_of_finishBuild
    {before after : Join}
    {contents : Contents}
    {filters : List (FilterId × KeyFilter)}
    (succeeds : finishBuild.Succeeds before filters after)
    (sides : before.Between build probe)
    (holds : before.input.Holds precise contents)
    (loadable : contents.Loadable precise)
    (noProbe : ∀ root, contents (.probe, root) = [])
    (tables : before.tables = []) :
    after.input = before.input ∧ after.Between build probe ∧ after.Tabled precise build contents := by
  simp only [Join.finishBuild, Step.succeeds_bind, Step.succeeds_get] at succeeds
  obtain ⟨_, _, ⟨rfl, rfl⟩, succeeds⟩ := succeeds
  split at succeeds
  · simp only [Step.succeeds_bind, Step.succeeds_fail, false_and, exists_false] at succeeds
  simp only [Step.succeeds_bind, succeeds_onInput_iff, Partitioned.succeeds_checkCancelled,
    Step.succeeds_modify, Step.succeeds_pure] at succeeds
  obtain ⟨_, _, ⟨_, ⟨_, rfl⟩, rfl⟩, _, made, making, _, _, rfl, _, rfl⟩ := succeeds
  have none : before.Tabled precise build contents := by
    intro partition table member
    rw [tables] at member
    exact absurd member List.not_mem_nil
  obtain ⟨frame, tabled⟩ := succeeds_makeTables making sides holds loadable noProbe none
  have input : made.input = before.input := by rw [← frame]
  exact ⟨input, sides.transfer (congrArg Partitioned.side? input) (by rw [← frame]), tabled⟩

/-- After the build side nothing is pending yet. -/
theorem Building.finishBuild
    {before after : Join}
    {rows : List Row}
    {filters : List (FilterId × KeyFilter)}
    (building : before.Building precise build probe rows)
    (succeeds : finishBuild.Succeeds before filters after)
    (numbers : precise → before.input.Numbers rows) :
    after.Probing precise build probe rows [] [] := by
  obtain ⟨kept, contents, rooted, sublist, noProbe, matters⟩ := building.stored
  have loadable := rooted.loadable sublist numbers
  obtain ⟨same, sides, tabled⟩ := tabled_of_finishBuild succeeds building.sides rooted.holds loadable
    noProbe building.tables
  refine ⟨sides, kept, contents, ?_, matters, loadable, tabled, fun _ root _ _ => ?_, fun _ => ?_⟩
  · rw [same]
    exact rooted
  · rw [owedBy, noProbe]
    rfl
  · simp [pending, owedBy, noProbe, innerJoin_nil_probe]

/-- Rows that are dropped for their absent keys would be joined with nothing. -/
theorem innerJoin_dropAbsentKeys
    {chunk kept : Chunk}
    (dropped : dropAbsentKeys chunk probe.key = .ok kept)
    (fits : chunk.schema = probe.schema)
    (buildRows : List Row)
    (some : Row → Bool) :
    innerJoin build probe buildRows (kept.rows.filter some) =
      innerJoin build probe buildRows (chunk.rows.filter some) := by
  obtain ⟨_, keep, rows_eq, keeps⟩ := rows_of_dropAbsentKeys dropped
  rw [rows_eq, List.filter_comm]
  refine innerJoin_filter_probe fun row _ joined => keeps row ?_
  rw [fits]
  exact fun absent => joined (joinedRows_eq_nil absent _)

/-- What accepting a probe chunk does in the probe phase: its rows with keys, if there are any, are dealt to
the roots. -/
theorem probeChunk_cases
    {chunk : Chunk}
    {output : List Chunk}
    {before after : Join}
    (succeeds : (probeChunk chunk).Succeeds before output after) :
    before.phase = .probe ∧ ∃ kept, dropAbsentKeys chunk before.probe.key = .ok kept ∧
      ((kept.rows = [] ∧ output = [] ∧ before = after) ∨
        kept.isEmpty = false ∧ ∃ parts probed,
          (before.input.directory 0).split kept before.probe.key = .ok parts ∧
          (probeParts (before.input.roots.zip parts)).Succeeds before output probed ∧
          { probed with outputRows := after.outputRows } = after) := by
  simp only [Join.probeChunk, Step.succeeds_bind, Step.succeeds_get] at succeeds
  obtain ⟨_, _, ⟨rfl, rfl⟩, succeeds⟩ := succeeds
  split at succeeds
  · simp only [Step.succeeds_bind, Step.succeeds_fail, false_and, exists_false] at succeeds
  next probing =>
  simp only [Step.succeeds_bind, succeeds_onInput_iff, Partitioned.succeeds_checkCancelled,
    Step.succeeds_ofExcept] at succeeds
  obtain ⟨_, _, ⟨_, ⟨_, rfl⟩, rfl⟩, kept, _, ⟨dropping, rfl⟩, succeeds⟩ := succeeds
  refine ⟨not_not.mp probing, kept, dropping, ?_⟩
  split at succeeds
  · next empty =>
    rw [Step.succeeds_pure] at succeeds
    exact .inl ⟨List.isEmpty_iff.mp empty, succeeds.1.symm, succeeds.2⟩
  · next some =>
    simp only [Step.succeeds_bind, Step.succeeds_ofExcept, countOutput, Step.succeeds_modify,
      Step.succeeds_pure] at succeeds
    obtain ⟨parts, _, ⟨splits, rfl⟩, _, probed, joined, _, _, rfl, rfl, rfl⟩ := succeeds
    exact .inr ⟨Bool.eq_false_iff.mpr some, parts, probed, splits, joined, rfl⟩

section Probing

variable {buildRows probeRows yielded : List Row}

/-- Accepted probe rows may be replaced with others that are joined as they are in every bucket. -/
theorem Probing.congr_probe
    {join : Join}
    {rows others : List Row}
    (probing : join.Probing precise build probe buildRows (probeRows ++ rows) yielded)
    (alike : ∀ some : Row → Bool, innerJoin build probe buildRows (rows.filter some) =
      innerJoin build probe buildRows (others.filter some)) :
    join.Probing precise build probe buildRows (probeRows ++ others) yielded := by
  obtain ⟨kept, contents, rooted, matters, loadable, tabled, shares, owed⟩ := probing.stored
  have whole : innerJoin build probe buildRows rows = innerJoin build probe buildRows others := by
    simpa using alike fun _ => true
  refine ⟨probing.sides, kept, contents, rooted, matters, loadable, tabled,
    fun is root known missing => ?_, fun is => ?_⟩
  · rw [shares is root known missing, List.filter_append, List.filter_append, innerJoin_append_probe,
      innerJoin_append_probe, alike]
  · rw [innerJoin_append_probe, ← whole, ← innerJoin_append_probe]
    exact owed is

/-- The parts of a chunk are joined or stored. -/
theorem Probing.probeParts
    {before after : Join}
    {chunk : Chunk}
    {parts : List (Option Chunk)}
    {output : List Chunk}
    (probing : before.Probing precise build probe buildRows probeRows yielded)
    (succeeds : (probeParts (before.input.roots.zip parts)).Succeeds before output after)
    (deals : (before.input.directory 0).Deals probe.key chunk parts)
    (suits : chunk.Suits precise probe.schema) :
    after.Probing precise build probe buildRows (probeRows ++ chunk.rows)
      (yielded ++ output.flatMap Chunk.rows) := by
  obtain ⟨kept, contents, rooted, matters, loadable, tabled, shares, owed⟩ := probing.stored
  have accepted : ∀ rows, innerJoin build probe kept rows = innerJoin build probe buildRows rows :=
    fun rows => List.flatMap_congr fun row _ => matters row
  obtain ⟨filled, takes⟩ := succeeds_probeParts succeeds probing.sides rooted.holds tabled
    (fun _ part member => deals.suits suits (List.of_mem_zip member).2) id
    fun pair member => List.mem_range.mp (List.of_mem_zip (show (pair.1, pair.2) ∈ _ from member)).1
  have params := Partitioned.params_of_outline takes.outline
  refine ⟨takes.sides probing.sides, kept, filled, rooted.transfer takes.outline takes.holds ?_, matters,
    fun is root => ?_, takes.tabled, fun is root bounded missing => ?_, fun is => ?_⟩
  · intro is root bounded
    rw [takes.keeps, rooted.build is root bounded]
  · rw [takes.keeps]
    exact loadable is root
  · have bounded : root < before.input.params.partitionCount := params ▸ bounded
    have untabled : before.tables.lookup root = none := takes.tables ▸ missing
    simp only [Partitioned.bucketOf_of_setting params (Partitioned.side?_of_outline takes.outline)]
    rw [takes.stored root untabled, innerJoin_root rooted is probing.sides.buildSide
      probing.sides.probeSide deals suits bounded, accepted, shares is root bounded untabled,
      List.filter_append, innerJoin_append_probe]
  · have whole := perm_innerJoin_roots rooted is probing.sides.buildSide deals suits
    rw [accepted] at whole
    rw [innerJoin_append_probe, List.append_assoc]
    simp only [params]
    refine ((takes.paid is).append_left yielded).trans ?_
    rw [← List.append_assoc]
    exact (owed is).append whole

/-- A probe chunk is joined or stored. -/
theorem Probing.probeChunk
    {before after : Join}
    {chunk : Chunk}
    {output : List Chunk}
    (probing : before.Probing precise build probe buildRows probeRows yielded)
    (succeeds : (probeChunk chunk).Succeeds before output after)
    (suits : chunk.Suits precise probe.schema) :
    after.Probing precise build probe buildRows (probeRows ++ chunk.rows)
      (yielded ++ output.flatMap Chunk.rows) := by
  obtain ⟨-, dropped, dropping, cases⟩ := probeChunk_cases succeeds
  rw [probing.sides.own] at dropping cases
  refine Probing.congr_probe ?_ (innerJoin_dropAbsentKeys dropping suits.schema_eq buildRows)
  obtain ⟨empty, rfl, rfl⟩ | ⟨-, parts, probed, splits, joined, same⟩ := cases
  · rw [empty, List.flatMap_nil, List.append_nil, List.append_nil]
    exact probing
  · -- The count of the output rows is no part of what is yielded.
    have more := probing.probeParts joined (Directory.deals_of_split splits)
      (suits_of_dropAbsentKeys dropping suits)
    rw [← same]
    exact ⟨⟨more.sides.buildSide, more.sides.probeSide, more.sides.own⟩, more.stored⟩

end Probing

/-! ## The end -/

/-- Completing partitions that owe nothing changes nothing that is owed. -/
theorem succeeds_completeTables
    {partitions : List Nat}
    {before after : Join}
    {due : Nat → List Row}
    {value : Unit}
    (succeeds : (completeTables partitions).Succeeds before value after)
    (owed : Owes precise build probe before due)
    (nothing : ∀ partition ∈ partitions, due partition = []) :
    Owes precise build probe after due ∧ after.input.params = before.input.params ∧
      after.input.arena.size = before.input.arena.size := by
  induction partitions generalizing before with
  | nil =>
      rw [completeTables, Step.succeeds_pure] at succeeds
      obtain ⟨_, rfl⟩ := succeeds
      exact ⟨owed, rfl, rfl⟩
  | cons partition rest inductionHypothesis =>
      simp only [completeTables, Step.succeeds_bind, Step.succeeds_modify, succeeds_onInput_iff]
        at succeeds
      obtain ⟨_, _, rfl, _, _, ⟨input, completed, rfl⟩, succeeds⟩ := succeeds
      obtain ⟨contents, sides, holds, loadable, rfl⟩ := owed
      obtain ⟨left, settles⟩ := Partitioned.succeeds_complete completed holds
      have same : before.input.due (innerJoin build probe) contents =
          input.due (innerJoin build probe) left := by
        funext other
        by_cases here : other = partition
        · rw [here, settles.due_self, nothing partition List.mem_cons_self]
        · rw [settles.due_others _ here]
      obtain ⟨stillOwed, params, size⟩ := inductionHypothesis succeeds
        ⟨left, sides.transfer settles.side? rfl, settles.holds, settles.loadable loadable, same⟩
        fun other member => nothing other (List.mem_cons_of_mem _ member)
      exact ⟨stillOwed, params.trans settles.params, size.trans settles.size⟩

/-- The end of the probe side yields what is due for the roots, if nothing is due where there are
tables. -/
theorem succeeds_finishProbe
    {before after : Join}
    {due : Nat → List Row}
    {output : List Chunk}
    (succeeds : (finishProbe).Succeeds before output after)
    (owed : Owes precise build probe before due)
    (nothing : ∀ partition table, (partition, table) ∈ before.tables → due partition = [])
    (known : ∀ root ∈ before.input.roots, root < before.input.arena.size) :
    precise → (output.flatMap Chunk.rows).Perm (before.input.roots.flatMap due) := by
  simp only [finishProbe, Step.succeeds_bind, Step.succeeds_get] at succeeds
  obtain ⟨_, _, ⟨rfl, rfl⟩, succeeds⟩ := succeeds
  split at succeeds
  · simp only [Step.succeeds_bind, Step.succeeds_fail, false_and, exists_false] at succeeds
  simp only [Step.succeeds_bind, Step.succeeds_modify, Step.succeeds_pure] at succeeds
  obtain ⟨_, completed, completes, output, _, drained, _, _, _, _, _, _, rfl, _⟩ := succeeds
  obtain ⟨stillOwed, _, size⟩ := succeeds_completeTables completes owed fun partition member => by
    obtain ⟨⟨_, table⟩, inside, rfl⟩ := List.mem_map.mp member
    exact nothing _ table inside
  obtain ⟨_, _, _, _, _, paid⟩ := pays_drain conserves_visit _ drained stillOwed List.nodup_range
    fun root member => size ▸ known root member
  exact paid

/-- The end of the probe side yields what was still pending. -/
theorem Probing.finishProbe
    {before after : Join}
    {buildRows probeRows yielded : List Row}
    {output : List Chunk}
    (probing : before.Probing precise build probe buildRows probeRows yielded)
    (succeeds : (finishProbe).Succeeds before output after)
    (is : precise) :
    (yielded ++ output.flatMap Chunk.rows).Perm (innerJoin build probe buildRows probeRows) := by
  obtain ⟨kept, contents, rooted, _, loadable, tabled, _, owed⟩ := probing.stored
  have nothing : ∀ partition table, (partition, table) ∈ before.tables →
      before.input.due (innerJoin build probe) contents partition = [] := by
    intro partition table member
    rw [Partitioned.due, (tabled _ table member).2, innerJoin_nil_probe, ite_self]
  have known : ∀ root ∈ before.input.roots, root < before.input.arena.size :=
    fun root member => rooted.size ▸ List.mem_range.mp member
  have paid := succeeds_finishProbe succeeds ⟨contents, probing.sides, rooted.holds, loadable, rfl⟩ nothing
    known is
  have due : before.input.roots.flatMap (before.input.due (innerJoin build probe) contents) =
      pending build probe before.input.params.partitionCount contents :=
    List.flatMap_congr fun root member =>
      Partitioned.due_of_opened (rooted.place root (List.mem_range.mp member)) rfl
  rw [due] at paid
  exact (paid.append_left yielded).trans (owed is)

/-! ## Whole joins -/

/-- Takes all chunks of the build side. Yields the filters of the build keys. -/
def takeBuild
    (account : Option Nat)
    (builds : List Chunk) :
    Step Join (List (FilterId × KeyFilter)) := do
  onInput (Partitioned.chargeWithin account)
  builds.forM addBuildChunk
  finishBuild

/-- Takes all chunks of both sides. Yields the filters and the output. -/
def run
    (account : Option Nat)
    (builds probes : List Chunk) :
    Step Join (List (FilterId × KeyFilter) × List Chunk) := do
  let filters ← takeBuild account builds
  let joined ← probes.mapM probeChunk
  let last ← finishProbe
  return (filters, joined.flatten ++ last)

theorem between_of_make
    {params : Params}
    {specs : List FilterSpec}
    {area : SpillArea}
    {ledger : Ledger}
    {join : Join}
    (made : make params build.schema build.key probe specs area ledger = .ok join) :
    join.Between build probe := by
  simp only [make, bind_eq_ok_iff, pure_eq_ok_iff] at made
  obtain ⟨input, made, rfl⟩ := made
  obtain ⟨setUp, _⟩ := Partitioned.made_of_make made
  refine ⟨?_, setUp.probeSide, rfl⟩
  show some (ProbeSide.mk input.buildSchema input.buildKey) = some build
  rw [setUp.buildSchema, setUp.buildKey]

theorem building_of_make
    {params : Params}
    {specs : List FilterSpec}
    {area : SpillArea}
    {ledger : Ledger}
    {join : Join}
    (made : make params build.schema build.key probe specs area ledger = .ok join)
    (faithful : area.store.damage = []) :
    join.Building precise build probe [] := by
  have sides := between_of_make made
  simp only [make, bind_eq_ok_iff, pure_eq_ok_iff] at made
  obtain ⟨input, made, rfl⟩ := made
  exact ⟨sides, rfl, [], _, Partitioned.rooted_of_make made faithful, .refl _, fun _ => rfl,
    fun _ => rfl⟩

theorem outline_of_chargeWithin
    {account : Option Nat}
    {before after : Join}
    {value : Unit}
    (succeeds : (onInput (Partitioned.chargeWithin account)).Succeeds before value after) :
    after.input.outline = before.input.outline := by
  obtain ⟨input, charged, rfl⟩ := succeeds_onInput_iff.mp succeeds
  exact (Partitioned.succeeds_chargeWithin charged).outline

theorem Between.chargeWithin
    {account : Option Nat}
    {before after : Join}
    {value : Unit}
    (sides : before.Between build probe)
    (succeeds : (onInput (Partitioned.chargeWithin account)).Succeeds before value after) :
    after.Between build probe := by
  have side? := Partitioned.side?_of_outline (outline_of_chargeWithin succeeds)
  obtain ⟨input, charged, rfl⟩ := succeeds_onInput_iff.mp succeeds
  exact sides.transfer side? rfl

theorem Building.chargeWithin
    {account : Option Nat}
    {before after : Join}
    {rows : List Row}
    {value : Unit}
    (building : before.Building precise build probe rows)
    (succeeds : (onInput (Partitioned.chargeWithin account)).Succeeds before value after) :
    after.Building precise build probe rows := by
  have stillSides := building.sides.chargeWithin succeeds
  obtain ⟨_, tables, kept, contents, rooted, rest⟩ := building
  obtain ⟨input, charged, rfl⟩ := succeeds_onInput_iff.mp succeeds
  exact ⟨stillSides, tables, kept, contents,
    rooted.of_quiet (Partitioned.succeeds_chargeWithin charged), rest⟩

theorem Probing.probeChunks
    {chunks : List Chunk}
    {before after : Join}
    {buildRows probeRows yielded : List Row}
    {outputs : List (List Chunk)}
    (probing : before.Probing precise build probe buildRows probeRows yielded)
    (succeeds : (chunks.mapM Join.probeChunk).Succeeds before outputs after)
    (suits : ∀ chunk ∈ chunks, chunk.Suits precise probe.schema) :
    after.Probing precise build probe buildRows (probeRows ++ chunks.flatMap Chunk.rows)
      (yielded ++ outputs.flatten.flatMap Chunk.rows) := by
  induction chunks generalizing before probeRows yielded outputs with
  | nil =>
      rw [List.mapM_nil, Step.succeeds_pure] at succeeds
      obtain ⟨rfl, rfl⟩ := succeeds
      simpa using probing
  | cons chunk chunks inductionHypothesis =>
      simp only [List.mapM_cons, Step.succeeds_bind, Step.succeeds_pure] at succeeds
      obtain ⟨first, _, accepted, others, _, rest, rfl, rfl⟩ := succeeds
      have more := probing.probeChunk accepted (suits chunk List.mem_cons_self)
      rw [List.flatMap_cons, List.flatten_cons, List.flatMap_append, ← List.append_assoc,
        ← List.append_assoc]
      exact inductionHypothesis more rest fun other member => suits other (List.mem_cons_of_mem _ member)

theorem Building.takeBuild
    {account : Option Nat}
    {builds : List Chunk}
    {before after : Join}
    {filters : List (FilterId × KeyFilter)}
    (building : before.Building precise build probe [])
    (succeeds : (takeBuild account builds).Succeeds before filters after)
    (suits : ∀ chunk ∈ builds, chunk.Suits precise build.schema)
    (numbers : precise → before.input.Numbers (builds.flatMap Chunk.rows)) :
    after.Probing precise build probe (builds.flatMap Chunk.rows) [] [] := by
  rw [Join.takeBuild, Step.succeeds_bind] at succeeds
  obtain ⟨_, _, charged, succeeds⟩ := succeeds
  rw [Step.succeeds_bind] at succeeds
  obtain ⟨_, _, built, finished⟩ := succeeds
  obtain ⟨taken, outline⟩ := built.forM
    (fun rows join => join.Building precise build probe rows ∧ join.input.outline = before.input.outline)
    ⟨building.chargeWithin charged, outline_of_chargeWithin charged⟩
    fun chunk member _ _ _ reached accepted =>
      ⟨reached.1.addBuildChunk accepted (suits chunk member),
        (outline_of_addBuildChunk accepted).trans reached.2⟩
  rw [List.nil_append] at taken
  exact taken.finishBuild finished fun is => (numbers is).of_outline outline

/-- What a whole join yields from where it begins. -/
theorem Building.run
    {account : Option Nat}
    {builds probes : List Chunk}
    {before after : Join}
    {filters : List (FilterId × KeyFilter)}
    {output : List Chunk}
    (building : before.Building True build probe [])
    (succeeds : (run account builds probes).Succeeds before (filters, output) after)
    (buildSuits : ∀ chunk ∈ builds, chunk.Suits True build.schema)
    (probeSuits : ∀ chunk ∈ probes, chunk.Suits True probe.schema)
    (numbers : before.input.Numbers (builds.flatMap Chunk.rows)) :
    (output.flatMap Chunk.rows).Perm
      (innerJoin build probe (builds.flatMap Chunk.rows) (probes.flatMap Chunk.rows)) := by
  simp only [Join.run, Step.succeeds_bind, Step.succeeds_pure, Prod.mk.injEq] at succeeds
  obtain ⟨_, _, taken, joined, _, probed, last, _, ends, ⟨_, rfl⟩, _⟩ := succeeds
  have probing :=
    (building.takeBuild taken buildSuits fun _ => numbers).probeChunks probed probeSuits
  have whole := probing.finishProbe ends trivial
  rw [List.nil_append, List.nil_append, ← List.flatMap_append] at whole
  exact whole

/-- However large its inputs are for the memory that it may use, a join that succeeds yields every pair
of a probe row and a build row with the same key once, and nothing else, if there are numbers for the rows of
every chunk and for the build rows of every bucket. -/
theorem perm_innerJoin_of_run
    {params : Params}
    {specs : List FilterSpec}
    {area : SpillArea}
    {ledger : Ledger}
    {account : Option Nat}
    {builds probes : List Chunk}
    {before after : Join}
    {filters : List (FilterId × KeyFilter)}
    {output : List Chunk}
    (made : make params build.schema build.key probe specs area ledger = .ok before)
    (faithful : area.store.damage = [])
    (succeeds : (run account builds probes).Succeeds before (filters, output) after)
    (buildFits : ∀ chunk ∈ builds, chunk.schema = build.schema)
    (probeFits : ∀ chunk ∈ probes, chunk.schema = probe.schema)
    (buildNumbered : ∀ chunk ∈ builds, chunk.Numbered)
    (probeNumbered : ∀ chunk ∈ probes, chunk.Numbered)
    (numbers : before.input.Numbers (builds.flatMap Chunk.rows)) :
    (output.flatMap Chunk.rows).Perm
      (innerJoin build probe (builds.flatMap Chunk.rows) (probes.flatMap Chunk.rows)) :=
  (building_of_make made faithful).run succeeds
    (fun chunk member => ⟨buildFits chunk member, fun _ => buildNumbered chunk member⟩)
    (fun chunk member => ⟨probeFits chunk member, fun _ => probeNumbered chunk member⟩) numbers

namespace Sample

/-- A build side with a wide key. -/
def buildSide : ProbeSide :=
  ⟨[{ name := "k", type := .int64 }], "k"⟩

/-- A probe side with a narrower key. -/
def probeSide : ProbeSide :=
  ⟨[{ name := "p", type := .int32 }], "p"⟩

/-- Rows of two keys and one without a key. -/
def built : Chunk :=
  ⟨buildSide.schema, [[.int 7], [.int 8], [.null]], by decide⟩

/-- A row with a partner, one without, and one without a key. -/
def probed : Chunk :=
  ⟨probeSide.schema, [[.int 7], [.int 9], [.null]], by decide⟩

/-- A join that may keep so little that all partitions are spilled and split. -/
def new : Join :=
  valueOf (make ⟨2, 2, 3⟩ buildSide.schema buildSide.key probeSide [] {} {}) (by decide +kernel)

end Sample

/-- A join that spills and splits its partitions yields the one pair that there is. -/
theorem perm_innerJoin_spilled :
    make ⟨2, 2, 3⟩ Sample.buildSide.schema Sample.buildSide.key Sample.probeSide [] {} {} =
        .ok Sample.new ∧
      ∃ filters output after,
        (run none [Sample.built] [Sample.probed]).Succeeds Sample.new (filters, output) after ∧
        (output.flatMap Chunk.rows).Perm [[.int 7, .int 7]] := by
  have made : make ⟨2, 2, 3⟩ Sample.buildSide.schema Sample.buildSide.key Sample.probeSide [] {} {} =
      .ok Sample.new :=
    eq_ok_valueOf _ _
  have succeeds := Step.succeeds_of_isOk (run none [Sample.built] [Sample.probed]) Sample.new
    (by decide +kernel)
  have numbers : Sample.new.input.Numbers ([Sample.built].flatMap Chunk.rows) :=
    fun _ _ => Nat.le_trans (List.length_filter_le ..) (by decide)
  have joined := perm_innerJoin_of_run made rfl succeeds
    (List.forall_mem_singleton.mpr rfl) (List.forall_mem_singleton.mpr rfl)
    (List.forall_mem_singleton.mpr (by decide)) (List.forall_mem_singleton.mpr (by decide)) numbers
  exact ⟨made, _, _, _, succeeds, joined⟩

open Directory.Sample (looped middle doubled most)

namespace Sample

/-- A side of small integers. -/
def small : ProbeSide :=
  ⟨[⟨"n", .int8, true⟩], "n"⟩

/-- The row with which a long chunk ends. -/
def ending : Chunk :=
  ⟨small.schema, [[.int 3]], by decide⟩

/-- A join of four partitions that may keep all rows. -/
def fourfold : Join :=
  valueOf (make ⟨4, 1000, 2⟩ small.schema small.key small [] {} {}) (by decide +kernel)

/-- The join that has taken the row at the end as its build side. -/
def loaded : Join :=
  ((takeBuild none [ending]).outcome fourfold).2

/-- The first three partitions have no rows. -/
theorem succeeds_probePart_vacant
    {partition : Nat}
    (vacant : partition < 3)
    (part : Chunk) :
    (probePart partition part).Succeeds loaded [] loaded := by
  have untabled : loaded.tables.lookup partition = none := by
    revert partition
    decide +kernel
  have empty : ∃ record ∈ loaded.input.arena.records[partition]?, record.build.isEmpty = true := by
    revert partition
    decide +kernel
  obtain ⟨record, found, empty⟩ := empty
  simp only [probePart, Step.succeeds_bind, Step.succeeds_get]
  refine ⟨_, _, ⟨rfl, rfl⟩, ?_⟩
  rw [untabled]
  simp only [Step.succeeds_bind, succeeds_onInput_iff, Partitioned.succeeds_record_iff]
  refine ⟨record, loaded, ⟨_, ⟨found, rfl⟩, rfl⟩, ?_⟩
  rw [if_pos empty]
  exact (Step.succeeds_pure _ _ _ _).mpr ⟨rfl, rfl⟩

/-- The last one has a row of another key. -/
theorem succeeds_probePart_doubled :
    (probePart 3 doubled).Succeeds loaded [] loaded := by
  have joins : ∃ table ∈ loaded.tables.lookup 3,
      table.joinChunk loaded.outputSchema doubled loaded.probe.key = .ok none := by
    decide +kernel
  obtain ⟨table, found, joins⟩ := joins
  have found : loaded.tables.lookup 3 = some table := found
  simp [probePart, found, joinWith, joins]

theorem dropAbsentKeys_looped (count : Nat) :
    dropAbsentKeys (looped count) small.key = .ok (looped count) := by
  have kept : (looped count).filterRows (fun row => !(Row.cell row 0).isNull) = looped count := by
    refine Chunk.ext rfl (List.filter_eq_self.mpr fun row member => ?_)
    obtain rfl | rfl | rfl := Directory.Sample.eq_of_mem_looped member <;> rfl
  exact congrArg Except.ok kept

/-- The chunk ends with the row of the key that the build side has, and yields nothing. -/
theorem succeeds_probeChunk_looped :
    (probeChunk (looped most)).Succeeds loaded [] loaded := by
  have phase : loaded.phase = .probe := by decide +kernel
  have running : loaded.input.cancelled = false := by decide +kernel
  have keyed : loaded.probe.key = small.key := by decide +kernel
  have params : loaded.input.params = ⟨4, 1000, 2⟩ := by decide +kernel
  have directory : loaded.input.directory 0 = Directory.Sample.four := by
    simp only [Partitioned.directory, params]
    rfl
  have roots : loaded.input.roots = [0, 1, 2, 3] := by
    simp only [Partitioned.roots, params]
    rfl
  have nothing : (probeParts (loaded.input.roots.zip
      [none, some (middle most), none, some doubled])).Succeeds loaded [] loaded := by
    rw [roots]
    simp only [List.zip_cons_cons, List.zip_nil_left, probeParts, Step.succeeds_bind, Step.succeeds_pure]
    exact ⟨[], loaded, succeeds_probePart_vacant (by decide) _, [], loaded,
      ⟨[], loaded, succeeds_probePart_doubled, [], loaded, ⟨rfl, rfl⟩, rfl, rfl⟩, rfl, rfl⟩
  have dropped : dropAbsentKeys (looped most) loaded.probe.key = .ok (looped most) := by
    rw [keyed]
    exact dropAbsentKeys_looped _
  simp only [probeChunk, Step.succeeds_bind, Step.succeeds_get]
  refine ⟨_, _, ⟨rfl, rfl⟩, ?_⟩
  rw [if_neg (not_not.mpr phase)]
  simp only [Step.succeeds_bind, succeeds_onInput_iff, Partitioned.succeeds_checkCancelled,
    Step.succeeds_ofExcept]
  refine ⟨(), loaded, ⟨_, ⟨running, rfl⟩, rfl⟩, _, loaded, ⟨dropped, rfl⟩, ?_⟩
  have long : (looped most).isEmpty = false := rfl
  rw [if_neg (Bool.eq_false_iff.mp long), directory, keyed]
  simp only [Step.succeeds_bind, Step.succeeds_ofExcept, countOutput, Step.succeeds_modify,
    Step.succeeds_pure]
  exact ⟨_, loaded, ⟨Directory.Sample.split_most, rfl⟩, [], loaded, nothing, (), _, rfl, rfl, rfl⟩

end Sample

/-- A join that is given one row more than there are numbers yields nothing for the last one, although the
build side has its key. -/
theorem not_perm_innerJoin_looped :
    make ⟨4, 1000, 2⟩ Sample.small.schema Sample.small.key Sample.small [] {} {} = .ok Sample.fourfold ∧
      (∃ filters after,
        (run none [Sample.ending] [looped most]).Succeeds Sample.fourfold (filters, []) after) ∧
      innerJoin Sample.small Sample.small Sample.ending.rows (looped most).rows = [[.int 3, .int 3]] := by
  have taken := Step.succeeds_of_isOk (takeBuild none [Sample.ending]) Sample.fourfold (by decide +kernel)
  have nothing : (finishProbe.outcome Sample.loaded).1 = .ok [] := by decide +kernel
  have ends : finishProbe.Succeeds Sample.loaded [] _ := Prod.ext nothing rfl
  have probed : ([looped most].mapM probeChunk).Succeeds Sample.loaded [[]] Sample.loaded := by
    simp only [List.mapM_cons, List.mapM_nil, Step.succeeds_bind, Step.succeeds_pure]
    exact ⟨[], _, Sample.succeeds_probeChunk_looped, [], _, ⟨rfl, rfl⟩, rfl, rfl⟩
  have others :
      innerJoin Sample.small Sample.small Sample.ending.rows (List.replicate most [.int 1]) = [] := by
    refine List.flatMap_eq_nil_iff.mpr fun row member => ?_
    rw [List.eq_of_mem_replicate member]
    decide +kernel
  refine ⟨eq_ok_valueOf _ _, ?_, ?_⟩
  · simp only [run, Step.succeeds_bind, Step.succeeds_pure]
    exact ⟨_, _, _, _, taken, _, _, probed, _, _, ends, rfl, rfl⟩
  · rw [Directory.Sample.rows_looped, innerJoin_append_probe, innerJoin_append_probe, others]
    decide +kernel

end Join

end Spillway
