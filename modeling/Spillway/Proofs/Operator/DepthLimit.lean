import Spillway.Proofs.Operator.Fed
import Spillway.Proofs.Operator.Visits
import Spillway.Proofs.Operator.WorkStack

/-!
# The depth limit

A join that was fed ends its probe side by visiting partitions, the children of each that is split next.
Every child lies one level deeper, and none at the depth limit or below it, so the visits come to an end.
Whenever a spilled partition is visited the account of the join holds nothing, so the partition is split
for its own size alone. The one thing that can go wrong is that a partition must be split whose children
would lie at the depth limit.
-/

namespace Spillway

open Step

namespace Partitioned

/-- Partitions are split above the depth limit only. -/
theorem shallow_of_repartition
    {partition : Nat}
    {record : PartitionRecord}
    {children : List Nat}
    {before after : Partitioned}
    (succeeds : (repartition partition).Succeeds before children after)
    (found : before.arena.records[partition]? = some record) :
    record.level + 1 < before.params.maxDepth := by
  simp only [repartition, succeeds_bind, succeeds_record_iff, succeeds_get] at succeeds
  obtain ⟨_, _, ⟨same, rfl⟩, _, _, ⟨rfl, rfl⟩, succeeds⟩ := succeeds
  rw [found, Option.some.injEq] at same
  subst same
  split at succeeds
  · simp at succeeds
  · next shallow => exact Nat.lt_of_not_le shallow

/-- Below the partition there are at most so many levels above the depth limit. -/
def Headroom
    (input : Partitioned)
    (partition depth : Nat) : Prop :=
  ∃ record, input.arena.records[partition]? = some record ∧
    input.params.maxDepth ≤ record.level + depth + 1

/-- What a partition is split into lies one level deeper, above the depth limit. -/
def Lowers
    (partition : Nat)
    (children : List Nat)
    (before after : Partitioned) : Prop :=
  ∀ record, before.arena.records[partition]? = some record →
    record.level + 1 < before.params.maxDepth ∧ ∀ child ∈ children, ∃ deeper,
      after.arena.records[child]? = some deeper ∧ deeper.level = record.level + 1

theorem lowers_of_repartition
    {partition : Nat}
    {record : PartitionRecord}
    {children order : List Nat}
    {before between after : Partitioned}
    {contents : Contents}
    (splits : (repartition partition).Succeeds before children between)
    (ordered : (processingOrder children).Succeeds between order after)
    (holds : before.Holds precise contents)
    (found : before.arena.records[partition]? = some record)
    (spilled : record.build.spilled = true) :
    Lowers partition order before after := by
  intro again same
  rw [found, Option.some.injEq] at same
  subst same
  obtain ⟨permuted, rfl⟩ := succeeds_processingOrder ordered
  obtain ⟨_, divides, rfl⟩ := succeeds_repartition splits holds found spilled
  refine ⟨shallow_of_repartition splits found, fun child member => ?_⟩
  have inside := List.mem_of_mem_filter (permuted.mem_iff.mp member)
  obtain ⟨bucket, bounded, rfl⟩ := mem_nextChildren.mp inside
  obtain ⟨deeper, there, place⟩ := exists_of_place? (divides.child bucket bounded)
  exact ⟨deeper, there, congrArg PartitionPlace.level place⟩

/-- Visits that do not change levels, and split partitions one level deeper only, have room for as many
splits as there are levels left. -/
theorem deepens_of_lowers
    {σ α : Type}
    {view : σ → Partitioned}
    {Invariant : σ → Prop}
    {visit : Nat → Step σ (Visit α)}
    (evolves : ∀ {partition before after} {result : Visit α},
      (visit partition).Succeeds before result after →
      (view before).Evolves (fun _ => True) true (view after))
    (keeps : ∀ {partition before after} {result : Visit α},
      (visit partition).Succeeds before result after →
      Invariant before → partition < (view before).arena.size → Invariant after)
    (lowers : ∀ {partition before after children},
      (visit partition).Succeeds before (.split children) after →
      Invariant before → Lowers partition children (view before) (view after)) :
    Deepens (fun state partition depth => Invariant state ∧ (view state).Headroom partition depth)
      visit := by
  rintro partition depth before after result succeeds ⟨invariant, record, found, room⟩
  have still := keeps succeeds invariant (Array.getElem?_eq_some_iff.mp found).1
  have evolved := evolves succeeds
  have params := evolved.params_eq
  refine ⟨fun other more had => ?_, fun children same => ?_⟩
  · obtain ⟨-, another, there, had⟩ := had
    obtain ⟨now, here, level, -⟩ := evolved.exists_record there
    exact ⟨still, now, here, by rw [params, level]; exact had⟩
  · subst same
    obtain ⟨shallow, deeper⟩ := lowers succeeds invariant record found
    obtain ⟨less, rfl⟩ : ∃ less, depth = less + 1 := Nat.exists_eq_add_one.mpr (by omega)
    refine ⟨less, rfl, fun child member => ?_⟩
    obtain ⟨now, here, level⟩ := deeper child member
    exact ⟨still, now, here, by rw [params, level]; omega⟩

end Partitioned

namespace Join

variable {build probe : ProbeSide} {others : Nat → Nat} {join before after : Join} {partition : Nat}
  {record : PartitionRecord} {contents : Contents}

/-! ## Room for splits -/

/-- Below the partition there are at most so many levels above the depth limit. -/
def Room
    (build probe : ProbeSide)
    (join : Join)
    (partition depth : Nat) : Prop :=
  (∃ due, Owes False build probe join due) ∧ ∃ record,
    join.input.arena.records[partition]? = some record ∧
      join.input.params.maxDepth ≤ record.level + depth + 1

/-- The children of a partition lie one level deeper, above the depth limit. -/
theorem lowers_of_visit
    {children : List Nat}
    (succeeds : (visit partition).Succeeds before (.split children) after)
    (holds : before.input.Holds precise contents) :
    Partitioned.Lowers partition children before.input after.input := by
  intro record found
  cases visited_of_succeeds succeeds found with
  | split _ spilled splits ordered =>
      exact Partitioned.lowers_of_repartition splits ordered holds found spilled record found

theorem deepens_visit : Deepens (Room build probe) visit := by
  refine @Partitioned.deepens_of_lowers _ _ Join.input (fun join => ∃ due, Owes False build probe join due)
    visit ?_ ?_ ?_
  · exact fun succeeds => ((evolves_visit _ _).of_succeeds succeeds).1
  · rintro _ _ _ _ succeeds ⟨_, owes⟩ known
    obtain ⟨left, stillOwes, -⟩ := conserves_visit succeeds owes known
    exact ⟨left, stillOwes⟩
  · rintro _ _ _ _ succeeds ⟨_, _, _, holds, -⟩
    exact lowers_of_visit succeeds holds

/-! ## Where the visits start -/

/-- Partitions that exist can be completed, and that leaves all others as they are. -/
theorem ends_completeTables_others
    (partitions : List Nat)
    (known : ∀ partition ∈ partitions, partition < join.input.arena.size) :
    (completeTables partitions).Ends join
      (fun _ after =>
        (∀ other ∉ partitions,
          after.input.arena.records[other]? = join.input.arena.records[other]?) ∧
        ∀ partition ∈ partitions, ∃ record,
          after.input.arena.records[partition]? = some record ∧ record.Done)
      fun _ _ => False := by
  induction partitions generalizing join with
  | nil => exact ⟨fun _ _ => rfl, by simp⟩
  | cons partition rest inductionHypothesis =>
      obtain ⟨first, later⟩ := List.forall_mem_cons.mp known
      obtain ⟨record, found⟩ := Arena.exists_record_of_lt first
      rw [completeTables, ends_bind, ends_modify, ends_bind, ends_onInput]
      refine ((Partitioned.serves_complete found).ends ((Partitioned.ends_complete join.input).and
        (Partitioned.spares_complete join.input))).mono (fun _ between completed => ?_) fun _ _ => id
      obtain ⟨completes, spares⟩ := completed
      have spares : ∀ other, other ≠ partition →
          between.arena.records[other]? = join.input.arena.records[other]? := spares
      refine (inductionHypothesis fun other member => ?_).mono (fun _ after completed => ?_)
        fun _ _ => id
      · rw [completes.size]
        exact later other member
      obtain ⟨same, done⟩ := completed
      refine ⟨fun other outside => ?_, fun other member => ?_⟩
      · rw [List.mem_cons, not_or] at outside
        exact (same other outside.2).trans (spares other outside.1)
      · by_cases again : other ∈ rest
        · exact done other again
        · obtain rfl := (List.mem_cons.mp member).resolve_right again
          obtain ⟨record, there, done⟩ := completes.done
          exact ⟨record, (same other again).trans there, done⟩

/-- The partitions with tables are completed, all others are left as they are. -/
structure Started (join start : Join) : Prop where
  succeeds : (completeTables (join.tables.map Prod.fst)).Succeeds join () start
  others : ∀ other ∉ join.tables.map Prod.fst,
    start.input.arena.records[other]? = join.input.arena.records[other]?
  done : ∀ partition ∈ join.tables.map Prod.fst, ∃ record,
    start.input.arena.records[partition]? = some record ∧ record.Done

theorem Covered.exists_started (covered : join.Covered) : ∃ start, join.Started start := by
  have ends := ends_completeTables_others (join.tables.map Prod.fst) fun partition member => by
    obtain ⟨part, found⟩ := covered.known partition member
    obtain ⟨record, there, -⟩ := Option.bind_eq_some_iff.mp found
    exact (Array.getElem?_eq_some_iff.mp there).1
  obtain ⟨_, start, succeeds⟩ := ends.serves.exists_succeeds
  obtain ⟨others, done⟩ := ends.of_succeeds succeeds
  exact ⟨start, succeeds, others, done⟩

section Started

variable {start : Join} (started : join.Started start)
include started

/-- A partition is done with, or it has no table and is as it was. -/
theorem Started.cases
    (found : start.input.arena.records[partition]? = some record) :
    record.Done ∨ partition ∉ join.tables.map Prod.fst ∧
      join.input.arena.records[partition]? = some record := by
  by_cases tabled : partition ∈ join.tables.map Prod.fst
  · obtain ⟨_, there, done⟩ := started.done partition tabled
    rw [found, Option.some.injEq] at there
    exact .inl (there ▸ done)
  · exact .inr ⟨tabled, (started.others partition tabled).symm.trans found⟩

/-- Nothing is in memory after the partitions with tables were completed. -/
theorem Started.unloaded
    (covered : join.Covered)
    (counts : join.input.Counts)
    (accounted : join.input.Accounted others [] 0)
    (found : start.input.arena.records[partition]? = some record) :
    record.build.memoryBytes = 0 := by
  obtain done | ⟨untabled, was⟩ := started.cases found
  · exact done.build.memoryBytes_eq
  by_cases spilled : record.build.spilled = true
  · exact accounted.unloaded was spilled
  -- In memory and without a table, so it has no rows.
  have empty : record.build.isEmpty = true := by
    by_contra some
    exact untabled (covered.has partition _ (Arena.part?_build was) (Bool.eq_false_iff.mpr spilled)
      (Bool.eq_false_iff.mpr some))
  exact (counts partition record was (of_decide_eq_true empty)).memoryBytes_eq

/-- If there is no key on a side, nothing can be joined. -/
theorem Started.idle
    (takes : TakesProbe build probe join) :
    build.Keyed ∧ probe.Keyed ∨ Idle start.input := by
  have done : ∀ record : PartitionRecord, record.Done → record.build.isEmpty = true := by
    intro record done
    rw [done.build]
    rfl
  obtain buildKeyed | rowless := takes.buildKeyed
  · obtain probeKeyed | rowless := takes.probeKeyed
    · exact .inl ⟨buildKeyed, probeKeyed⟩
    · refine .inr fun partition record found => ?_
      rw [Bool.or_eq_true]
      refine (started.cases found).imp (done record) fun was => ?_
      rw [Option.all_eq_true]
      exact fun part has => rowless partition part ((Arena.part?_probe was.2).trans has)
  · refine .inr fun partition record found => ?_
    rw [Bool.or_eq_true]
    refine .inl ((started.cases found).elim (done record) fun was => ?_)
    exact rowless partition record.build (Arena.part?_build was.2)

/-- What was owed before is owed after the partitions with tables were completed. -/
theorem Started.owes
    (takes : TakesProbe build probe join) :
    ∃ due, Owes False build probe start due := by
  obtain ⟨_, _, _, sides, _, contents, rooted, _, loadable, tabled, _⟩ := takes.probing
  refine ⟨_, (succeeds_completeTables started.succeeds ⟨contents, sides, rooted.holds, loadable, rfl⟩
    fun partition member => ?_).1⟩
  obtain ⟨⟨_, table⟩, inside, rfl⟩ := List.mem_map.mp member
  rw [Partitioned.due, (tabled _ table inside).2, innerJoin_nil_probe, ite_self]

/-- The visits start from a state in which spilled partitions find nothing in memory. -/
theorem Started.steady
    (fed : Fed build probe others join)
    (probing : join.phase = .probe) :
    Steady build probe others join.input.roots start := by
  have takes := fed.takesProbe probing
  have collecting := fed.unended (by simp [probing])
  have accounted := fed.reached.accounted
  obtain ⟨evolves, -, remains⟩ := (ends_completeTables _ join).of_succeeds started.succeeds
  have evolves : Partitioned.Evolves _ true join.input start.input := evolves
  exact
    { sound := evolves.sound fed.sound
      accounted := (keeps_completeTables _ join accounted).of_succeeds started.succeeds
      owes := started.owes takes
      keyed := started.idle takes
      remaining := remains _ collecting.remaining
      layered := Partitioned.layered_of_unloaded
        (fun _ _ => started.unloaded takes.covered collecting.counts accounted) _
      distinct := List.nodup_range
      known := fun root member => by
        obtain ⟨_, _, _, _, _, _, rooted, _⟩ := takes.probing
        have known := List.mem_range.mp member
        rw [← rooted.size] at known
        exact Nat.lt_of_lt_of_le known evolves.size_le }

end Started

/-! ## The turns -/

theorem Steady.turns
    {config next : WorkStack Join}
    (steady : Steady build probe others config.stack config.state)
    (turns : Turns visit config next) :
    Steady build probe others next.stack next.state := by
  induction turns with
  | refl => exact steady
  | tail _ turn inductionHypothesis =>
      cases turn with
      | visit succeeds => exact inductionHypothesis.next succeeds

theorem evolves_of_turns
    {config next : WorkStack Join}
    (turns : Turns visit config next) :
    config.state.input.Evolves (fun _ => True) true next.state.input := by
  induction turns with
  | refl => exact .refl
  | tail _ turn inductionHypothesis =>
      cases turn with
      | @visit partition _ before _ _ succeeds =>
          exact inductionHypothesis.trans ((evolves_visit partition before).of_succeeds succeeds).1

/-- The end of the probe side takes turns until nothing is left, or until a visit fails. -/
theorem Started.ends_finishProbe
    {start : Join}
    (started : join.Started start)
    (fed : Fed build probe others join)
    (probing : join.phase = .probe) :
    finishProbe.Ends join
      (fun _ after => ∃ last, Turns visit ⟨join.input.roots, start⟩ ⟨[], last⟩ ∧
        after.input = last.input)
      fun status after => Fails visit ⟨join.input.roots, start⟩ status after := by
  have steady := started.steady fed probing
  obtain ⟨evolves, -⟩ := (ends_completeTables _ join).of_succeeds started.succeeds
  have params : start.input.params = join.input.params := evolves.params_eq
  have room : ∀ root ∈ join.input.roots, Room build probe start root join.input.params.maxDepth := by
    intro root member
    obtain ⟨record, found⟩ := Arena.exists_record_of_lt (steady.known root member)
    exact ⟨steady.owes, record, found, by rw [params]; omega⟩
  unfold finishProbe
  rw [ends_bind, ends_get]
  dsimp only
  rw [if_neg (not_not.mpr probing), ends_bind]
  refine .of_ok started.succeeds ?_
  rw [ends_bind]
  refine (takesTurns_drain deepens_visit _ _ start room).mono (fun output last drained => ?_)
    fun status after fails => ?_
  · have turns := drained.2 []
    rw [List.append_nil] at turns
    exact ⟨last, turns, rfl⟩
  · have fails := fails []
    rwa [List.append_nil] at fails

/-! ## How the probe side ends -/

/-- The partition is visited at the end of the probe side, in that state and with that record. -/
def Meets
    (join : Join)
    (partition : Nat)
    (before : Join)
    (record : PartitionRecord) : Prop :=
  ∃ start rest, (completeTables (join.tables.map Prod.fst)).Succeeds join () start ∧
    Turns visit ⟨join.input.roots, start⟩ ⟨partition :: rest, before⟩ ∧
    before.input.arena.records[partition]? = some record

/-- The probe side ends, and fails to be ended exactly at the depth limit. -/
structure EndsByDepth (join : Join) : Prop where
  /-- Nothing bounds the turns that are taken, but they come to an end: either nothing is left on the
  stack, or the request fails. -/
  ends : ∃ start last, (completeTables (join.tables.map Prod.fst)).Succeeds join () start ∧
    Turns visit ⟨join.input.roots, start⟩ last ∧ Ended visit last ∧
    ((finishProbe.outcome join).1.isOk = true ↔ last.stack = [])
  /-- Every partition that was ever added lies above the depth limit. -/
  shallow : (finishProbe.outcome join).2.input.Shallow
  /-- When a spilled partition is visited the account holds nothing. -/
  unused : ∀ partition before record, join.Meets partition before record →
    record.build.spilled = true → before.input.ledger.used before.input.account = 0
  /-- Those partitions are split that are larger than the memory limit, unless their children would lie at
  the depth limit. -/
  splits : ∀ partition before record, join.Meets partition before record →
    ((∃ children after, (visit partition).Succeeds before (.split children) after) ↔
      record.Oversized join.input.params.memLimit ∧ record.level + 1 < join.input.params.maxDepth)
  /-- If they would, the visit fails, and no other visit does. -/
  stops : ∀ partition before record, join.Meets partition before record →
    ((∃ status after, (visit partition).outcome before = (.error status, after)) ↔
      record.Oversized join.input.params.memLimit ∧ record.level + 1 = join.input.params.maxDepth)
  /-- The request fails if and only if such a partition is visited. -/
  fails : (finishProbe.outcome join).1.isOk = false ↔ ∃ partition before record,
    join.Meets partition before record ∧ record.Oversized join.input.params.memLimit ∧
      record.level + 1 = join.input.params.maxDepth
  code : ∀ status after, finishProbe.outcome join = (.error status, after) →
    status.code = .resourceLimitExceeded

/-- The failing visit at an end of the turns leaves behind what the request leaves behind. -/
theorem Started.outcome_of_ended
    {start : Join}
    {rest : List Nat}
    {status : Status}
    (started : join.Started start)
    (fed : Fed build probe others join)
    (probing : join.phase = .probe)
    (turns : Turns visit ⟨join.input.roots, start⟩ ⟨partition :: rest, before⟩)
    (failed : (visit partition).outcome before = (.error status, after)) :
    finishProbe.outcome join = (.error status, after) := by
  have ends := started.ends_finishProbe fed probing
  unfold Ends at ends
  cases reached : finishProbe.outcome join with
  | mk result left =>
      rw [reached] at ends
      cases result with
      | ok output =>
          obtain ⟨last, toEnd, -⟩ := ends
          cases (ended_of_error failed).unique (ended_nil last) turns toEnd
      | error other =>
          obtain ⟨_, _, _, toEnd, failing⟩ := ends
          cases (ended_of_error failed).unique (ended_of_error failing) turns toEnd
          obtain ⟨⟨rfl⟩, rfl⟩ := Prod.mk.inj (failing.symm.trans failed)
          rfl

/-- What becomes of a visit to a partition, and of the request that it belongs to. -/
inductive Decides
    (join : Join)
    (partition : Nat)
    (before : Join)
    (record : PartitionRecord) : Prop where
  | done
      {output : List Chunk}
      {after : Join}
      (succeeds : (visit partition).Succeeds before (.done output) after)
      (small : ¬ record.Oversized join.input.params.memLimit)
  | split
      {children : List Nat}
      {after : Join}
      (succeeds : (visit partition).Succeeds before (.split children) after)
      (large : record.Oversized join.input.params.memLimit)
      (shallow : record.level + 1 < join.input.params.maxDepth)
  | stop
      {status : Status}
      {after : Join}
      (fails : (visit partition).outcome before = (.error status, after))
      (ends : finishProbe.outcome join = (.error status, after))
      (code : status.code = .resourceLimitExceeded)
      (large : record.Oversized join.input.params.memLimit)
      (deepest : record.level + 1 = join.input.params.maxDepth)

/-- As long as the arena has room, the size and the level of a partition decide about a visit. -/
theorem Started.decides
    {start : Join}
    {rest : List Nat}
    (started : join.Started start)
    (fed : Fed build probe others join)
    (probing : join.phase = .probe)
    (room : (finishProbe.outcome join).2.input.arena.size < Arena.capacity)
    (turns : Turns visit ⟨join.input.roots, start⟩ ⟨partition :: rest, before⟩)
    (found : before.input.arena.records[partition]? = some record) :
    join.Decides partition before record := by
  have steady : Steady build probe others (partition :: rest) before :=
    (started.steady fed probing).turns turns
  have params : before.input.params = join.input.params :=
    (evolves_of_turns turns).params_eq.trans
      ((ends_completeTables _ join).of_succeeds started.succeeds).1.params_eq
  have ends := steady.ends_visit found
  rw [params, Ends] at ends
  cases outcome : (visit partition).outcome before with
  | mk result after =>
      rw [outcome] at ends
      match result with
      | .ok (.done output) => exact .done outcome ends.2.2
      | .ok (.split children) => exact .split outcome ends.2.2.1 ends.2.2.2
      | .error status =>
          have whole := started.outcome_of_ended fed probing turns outcome
          rw [whole] at room
          obtain ⟨large, ⟨deepest, code, -⟩ | ⟨-, overflows⟩⟩ := ends
          · exact .stop outcome whole code large deepest
          · exact absurd overflows.full (Nat.not_le_of_lt room)

namespace Decides

variable (decides : join.Decides partition before record)
include decides

theorem splits_iff :
    (∃ children after, (visit partition).Succeeds before (.split children) after) ↔
      record.Oversized join.input.params.memLimit ∧
        record.level + 1 < join.input.params.maxDepth := by
  cases decides with
  | done succeeds small =>
      refine ⟨fun ⟨_, _, divided⟩ => ?_, fun oversized => absurd oversized.1 small⟩
      cases succeeds.symm.trans divided
  | split succeeds large shallow => exact ⟨fun _ => ⟨large, shallow⟩, fun _ => ⟨_, _, succeeds⟩⟩
  | stop fails _ _ _ deepest =>
      refine ⟨fun ⟨_, _, divided⟩ => ?_, fun shallow => absurd deepest (Nat.ne_of_lt shallow.2)⟩
      cases fails.symm.trans divided

theorem stops_iff :
    (∃ status after, (visit partition).outcome before = (.error status, after)) ↔
      record.Oversized join.input.params.memLimit ∧
        record.level + 1 = join.input.params.maxDepth := by
  cases decides with
  | done succeeds small =>
      refine ⟨fun ⟨_, _, failed⟩ => ?_, fun oversized => absurd oversized.1 small⟩
      cases succeeds.symm.trans failed
  | split succeeds _ shallow =>
      refine ⟨fun ⟨_, _, failed⟩ => ?_, fun deepest => absurd deepest.2 (Nat.ne_of_lt shallow)⟩
      cases succeeds.symm.trans failed
  | stop fails _ _ large deepest => exact ⟨fun _ => ⟨large, deepest⟩, fun _ => ⟨_, _, fails⟩⟩

/-- A visit that fails is the end of the request, and has one reason only. -/
theorem of_error
    {status : Status}
    (fails : (visit partition).outcome before = (.error status, after)) :
    finishProbe.outcome join = (.error status, after) ∧ status.code = .resourceLimitExceeded ∧
      record.Oversized join.input.params.memLimit ∧
      record.level + 1 = join.input.params.maxDepth := by
  cases decides with
  | done succeeds => cases succeeds.symm.trans fails
  | split succeeds => cases succeeds.symm.trans fails
  | stop failed ends code large deepest =>
      obtain ⟨⟨rfl⟩, rfl⟩ := Prod.mk.inj (failed.symm.trans fails)
      exact ⟨ends, code, large, deepest⟩

end Decides

section Ends

variable {start : Join} (started : join.Started start) (fed : Fed build probe others join)
  (probing : join.phase = .probe)
include started

theorem Started.exists_turns
    (meets : join.Meets partition before record) :
    ∃ rest, Turns visit ⟨join.input.roots, start⟩ ⟨partition :: rest, before⟩ ∧
      before.input.arena.records[partition]? = some record := by
  obtain ⟨_, rest, again, turns, found⟩ := meets
  obtain rfl := congrArg Prod.snd (started.succeeds.symm.trans again)
  exact ⟨rest, turns, found⟩

include fed probing

/-- The turns come to an end, and the request fails where a visit fails. -/
theorem Started.exists_ended :
    ∃ last, Turns visit ⟨join.input.roots, start⟩ last ∧ Ended visit last ∧
      ((finishProbe.outcome join).1.isOk = true ↔ last.stack = []) := by
  have ends := started.ends_finishProbe fed probing
  rw [Ends] at ends
  cases outcome : finishProbe.outcome join with
  | mk result left =>
      rw [outcome] at ends
      cases result with
      | ok output =>
          obtain ⟨last, turns, -⟩ := ends
          exact ⟨_, turns, ended_nil last, iff_of_true rfl rfl⟩
      | error status =>
          obtain ⟨_, _, _, turns, fails⟩ := ends
          exact ⟨_, turns, ended_of_error fails, iff_of_false Bool.false_ne_true (List.cons_ne_nil _ _)⟩

/-- If the request fails, it is because of a partition that is visited. -/
theorem Started.exists_meets
    {status : Status}
    {left : Join}
    (fails : finishProbe.outcome join = (.error status, left)) :
    ∃ partition before record, join.Meets partition before record ∧
      (visit partition).outcome before = (.error status, left) := by
  have ends := started.ends_finishProbe fed probing
  rw [Ends, fails] at ends
  obtain ⟨partition, rest, before, turns, failed⟩ := ends
  have steady : Steady build probe others (partition :: rest) before :=
    (started.steady fed probing).turns turns
  obtain ⟨record, found⟩ := Arena.exists_record_of_lt (steady.known partition List.mem_cons_self)
  exact ⟨partition, before, record, ⟨start, rest, started.succeeds, turns, found⟩, failed⟩

end Ends

/-- The probe side of a join that was fed comes to an end, whatever was accepted. It fails to be ended
exactly if a spilled partition that has probe rows and more than one build row, and is larger than the
memory limit, is visited at the last level above the depth limit. This is a matter of that partition
alone, since whenever a spilled partition is visited nothing is in memory. -/
theorem endsByDepth_of_fed
    (fed : Fed build probe others join)
    (probing : join.phase = .probe)
    (room : (finishProbe.outcome join).2.input.arena.size < Arena.capacity) :
    join.EndsByDepth := by
  obtain ⟨start, started⟩ := (fed.takesProbe probing).covered.exists_started
  have decides : ∀ {partition before record}, join.Meets partition before record →
      join.Decides partition before record := by
    intro partition before record meets
    obtain ⟨rest, turns, found⟩ := started.exists_turns meets
    exact started.decides fed probing room turns found
  have shallow : finishProbe.Ends join (fun _ after => after.input.Shallow)
      fun _ after => after.input.Shallow :=
    (ends_finishProbe join).mono (fun _ _ ended => ended.1.shallow fed.sound.shallow)
      fun _ _ evolves => evolves.shallow fed.sound.shallow
  refine
    { ends := ⟨start, (started.exists_ended fed probing).imp fun _ ended => ⟨started.succeeds, ended⟩⟩
      shallow := shallow.state
      unused := fun partition before record meets spilled => ?_
      splits := fun _ _ _ meets => (decides meets).splits_iff
      stops := fun _ _ _ meets => (decides meets).stops_iff
      fails := ⟨fun fails => ?_, ?_⟩
      code := fun status after fails => ?_ }
  · obtain ⟨rest, turns, found⟩ := started.exists_turns meets
    have steady : Steady build probe others (partition :: rest) before :=
      (started.steady fed probing).turns turns
    exact steady.poised.used_eq found spilled
  · cases outcome : finishProbe.outcome join with
    | mk result left =>
        rw [outcome] at fails
        cases result with
        | ok => cases fails
        | error status =>
            obtain ⟨partition, before, record, meets, failed⟩ := started.exists_meets fed probing outcome
            exact ⟨partition, before, record, meets, ((decides meets).of_error failed).2.2⟩
  · rintro ⟨partition, before, record, meets, large, deepest⟩
    obtain ⟨_, _, failed⟩ := (decides meets).stops_iff.mpr ⟨large, deepest⟩
    rw [((decides meets).of_error failed).1]
    rfl
  · obtain ⟨_, _, _, meets, failed⟩ := started.exists_meets fed probing fails
    exact ((decides meets).of_error failed).2.1

end Join

namespace Join.Sample

open Operator.Sample (pair)

/-- A join with room for one row and two levels. -/
def narrow : Join :=
  valueOf (make ⟨2, 8, 2⟩ buildSide.schema buildSide.key buildSide [] {} {}) (by decide +kernel)

/-- The join after two build rows of one key were accepted. -/
def skewed : Join :=
  ((Request.addBuildChunk pair).step.outcome narrow).2

/-- The join after its build side was ended. -/
def closed : Join :=
  (Request.finishBuild.step.outcome skewed).2

/-- The join after two probe rows of the key were accepted. -/
def stuck : Join :=
  ((Request.probeChunk pair).step.outcome closed).2

end Join.Sample

namespace Join

open Operator.Sample (pair)

/-- Build rows of one key stay together when they are split, until that cannot go on. -/
theorem endsByDepth_stuck :
    Fed Sample.buildSide Sample.buildSide ({} : Ledger).used Sample.stuck ∧
      Sample.stuck.phase = .probe ∧
      (finishProbe.outcome Sample.stuck).1.isOk = false ∧
      (finishProbe.outcome Sample.stuck).2.input.arena.size = 4 ∧
      Sample.stuck.EndsByDepth := by
  have narrow : Fed Sample.buildSide Sample.buildSide ({} : Ledger).used Sample.narrow :=
    .new (eq_ok_valueOf _ _) ⟨rfl, fun _ => rfl, fun _ _ => rfl⟩
  have skewed : Fed Sample.buildSide Sample.buildSide ({} : Ledger).used Sample.skewed :=
    narrow.ask (show (Request.addBuildChunk pair).Declared Sample.buildSide Sample.buildSide from rfl)
      (succeeds_of_isOk _ _ (by decide +kernel))
  have closed : Fed Sample.buildSide Sample.buildSide ({} : Ledger).used Sample.closed :=
    skewed.ask (show Request.finishBuild.Declared Sample.buildSide Sample.buildSide from trivial)
      (succeeds_of_isOk _ _ (by decide +kernel))
  have stuck : Fed Sample.buildSide Sample.buildSide ({} : Ledger).used Sample.stuck :=
    closed.ask (show (Request.probeChunk pair).Declared Sample.buildSide Sample.buildSide from rfl)
      (succeeds_of_isOk _ _ (by decide +kernel))
  have ends : Sample.stuck.phase = .probe ∧ (finishProbe.outcome Sample.stuck).1.isOk = false ∧
      (finishProbe.outcome Sample.stuck).2.input.arena.size = 4 := by
    decide +kernel
  obtain ⟨probing, fails, size⟩ := ends
  exact ⟨stuck, probing, fails, size,
    endsByDepth_of_fed stuck probing (size ▸ (by decide : 4 < Arena.capacity))⟩

/-- As long as the build side was not ended, the probe side cannot be ended, whatever its partitions. -/
theorem not_endsByDepth_narrow :
    Fed Sample.buildSide Sample.buildSide ({} : Ledger).used Sample.narrow ∧
      (finishProbe.outcome Sample.narrow).2.input.arena.size < Arena.capacity ∧
      ¬ Sample.narrow.EndsByDepth := by
  have narrow : Fed Sample.buildSide Sample.buildSide ({} : Ledger).used Sample.narrow :=
    .new (eq_ok_valueOf _ _) ⟨rfl, fun _ => rfl, fun _ _ => rfl⟩
  have ends : ∃ after, finishProbe.outcome Sample.narrow =
      (.error (Fault.finishIn .build).status, after) := ⟨_, rfl⟩
  obtain ⟨after, fails⟩ := ends
  refine ⟨narrow, by decide +kernel, fun ends => ?_⟩
  cases ends.code _ _ fails

end Join
end Spillway
