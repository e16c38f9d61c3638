import Spillway.Proofs.Operator.Aggregation
import Spillway.Proofs.Operator.GivenBack
import Spillway.Proofs.Operator.Join
import Spillway.Proofs.Operator.Tending
import Spillway.Proofs.Operator.WorkStack

/-!
# Forests of joins and aggregations

Whatever is asked of a join or of an aggregation, as long as every request is met its partitions form a
forest, and its counters say how many there are. This is so between requests, and while an operator ends also
between the partitions that it completes or visits: a partition that is visited accepts rows, so it has no
children by then, and it is closed or split as a whole. An aggregation that is ended again closes its roots
again, and those of them that were split are not marked as split from then on.
-/

namespace Spillway

open Step

variable {fanOut ends partition : Nat} {again later : Prop} {free : Nat → Prop} {record : PartitionRecord}
  {α : Type}

namespace Partitioned

variable {input : Partitioned}

theorem Tended.mono
    {more : Nat → Prop}
    (tended : input.Tended fanOut again none free)
    (fewer : ∀ partition, more partition → free partition) :
    input.Tended fanOut again none more :=
  ⟨tended.params, tended.arena.mono fewer⟩

/-- A partition that accepts rows can be closed. -/
theorem Tended.only
    (tended : input.Tended fanOut again none free)
    (found : input.arena.records[partition]? = some record)
    (opened : record.state = .opened) :
    input.Tended fanOut again none (Only partition) := by
  refine ⟨tended.params, tended.arena.free_of_bare ?_⟩
  rintro _ another rfl there
  obtain rfl := Option.some.inj (found.symm.trans there)
  exact tended.arena.children_eq_nil found opened

/-- When the roots are closed for the first time they have no children, and after that they are closed
again. -/
theorem Tended.close_roots
    (tended : input.Tended fanOut (1 < ends) none fun _ => ends = 0) :
    input.Tended fanOut (1 < ends + 1) none (· ∈ input.roots) := by
  have goesOn : 1 < ends → 1 < ends + 1 := Nat.lt_succ_of_lt
  refine ⟨tended.params, { tended.arena with settled := ?_, closable := ?_ }⟩
  · intro partition record idle found
    have settled := tended.arena.settled idle found
    exact { settled with
      marked := fun some => (settled.marked some).imp_right fun closed => ⟨goesOn closed.1, closed.2⟩ }
  -- Only a root that is closed for the first time is known to have no children.
  · intro root record member found
    by_cases first : ends = 0
    · exact (tended.arena.closable first found).imp_right fun closed => ⟨goesOn closed.1, closed.2⟩
    · have inside : root < fanOut := tended.params ▸ List.mem_range.mp member
      exact .inr ⟨Nat.lt_succ_of_le (Nat.pos_of_ne_zero first), (tended.arena.first found).mpr inside⟩

/-- New input is tended, whichever of its roots can be closed. -/
theorem tended_of_make
    {operator : String}
    {params : Params}
    {buildSchema : Schema}
    {buildKey : String}
    {probeSide : Option ProbeSide}
    {area : SpillArea}
    {ledger : Ledger}
    (made : make operator params buildSchema buildKey probeSide area ledger = .ok input)
    (again : Prop)
    (free : Nat → Prop) :
    input.Tended input.params.partitionCount again none free := by
  obtain ⟨valid, start, rfl, rfl⟩ := exists_bare_of_make made
  exact ⟨rfl, tended_newRoots _ again free⟩

theorem tends_chargeTo (parent : Nat) : Tends fanOut again none free (chargeTo parent) := by
  refine bears_of_ends fun input tended => (ends_chargeTo parent input).mono (fun _ after charged => ?_)
    fun _ _ _ => trivial
  obtain ⟨ledger, account, rfl⟩ := charged
  exact ⟨tended.params, tended.arena⟩

end Partitioned

/-! ## Joins -/

namespace Join

variable {join before after : Join}

/-- A partition that is visited is completed or split, unless it was closed before. -/
theorem ends_visit_tended (tended : join.input.Tended fanOut again none fun _ => False) :
    (visit partition).Ends join (fun _ after => after.input.Tended fanOut again none fun _ => False)
      fun _ _ => True := by
  have afterwards : ∀ {after : Partitioned}, after.Tended fanOut again none (Partitioned.Only partition) →
      after.Tended fanOut again none fun _ => False :=
    fun tended => tended.mono fun _ => False.elim
  refine ends_visit_of (fun _ => trivial) fun record found => ?_
  have closable := tended.only found
  have completes : Partitioned.Tends fanOut again none (Partitioned.Only partition)
      (Partitioned.complete partition) := Partitioned.tends_complete (.self partition)
  exact
    { cancelled := .of_forall (fun _ _ => trivial) fun _ _ => trivial
      closed := fun _ => tended
      completed := fun opened _ =>
        (completes.of_bears (closable opened)).mono (fun _ _ => afterwards) fun _ _ => id
      split := fun opened _ _ _ _ =>
        (Partitioned.ends_repartition_tended tended found (tended.arena.children_eq_nil found opened)).mono
          (fun _ _ tended _ _ => tended) fun _ _ => id
      joined := fun opened _ _ =>
        (within_joinPartition (Partitioned.tends_loadBuild (.self partition))
          Partitioned.tends_restoreProbeBlock completes _).mono
            (fun _ _ within => afterwards (within.1 rfl (closable opened))) fun _ _ _ => trivial }

/-- Partitions that can be closed are completed. -/
theorem ends_completeTables_tended
    (tended : join.input.Tended fanOut again none fun _ => True)
    (partitions : List Nat) :
    (completeTables partitions).Ends join (fun _ after => after.input.Tended fanOut again none fun _ => True)
      fun _ _ => True := by
  induction partitions generalizing join with
  | nil => exact tended
  | cons partition rest inductionHypothesis =>
      rw [completeTables, ends_bind, ends_modify, ends_bind, ends_onInput]
      refine ((Partitioned.tends_complete trivial).of_bears tended).mono (fun _ _ tended => ?_) fun _ _ => id
      exact inductionHypothesis tended

/-- The end of the probe side leaves no partition to be closed. -/
theorem ends_finishProbe_tended (tended : join.input.Tended fanOut again none fun _ => True) :
    finishProbe.Ends join (fun _ after => after.input.Tended fanOut again none fun _ => False)
      fun _ _ => True := by
  unfold finishProbe
  rw [ends_bind, ends_get]
  dsimp only
  rw [ends_ite]
  refine ⟨fun _ => trivial, fun _ => ?_⟩
  rw [ends_bind]
  refine (ends_completeTables_tended tended _).mono (fun _ start tended => ?_) fun _ _ => id
  have visits : ∀ partition, (visit partition).Follows
      (Bears fun join => join.input.Tended fanOut again none fun _ => False) :=
    fun _ => bears_of_ends fun _ => ends_visit_tended
  rw [ends_bind]
  exact ((follows_drain visits _ _).of_bears (tended.mono fun _ => False.elim)).mono
    (fun _ _ tended => tended) fun _ _ => id

/-- Until a join is finished its partitions can be closed. -/
theorem Request.tended
    (request : Request)
    (succeeds : request.step.Succeeds before () after)
    (tended : before.input.Tended fanOut again none fun _ => before.phase ≠ .finished) :
    after.input.Tended fanOut again none fun _ => after.phase ≠ .finished := by
  cases request with
  | chargeTo parent =>
      obtain ⟨input, charged, rfl⟩ := succeeds_onInput_iff.mp succeeds
      exact ((Partitioned.tends_chargeTo parent).of_bears tended).of_succeeds charged
  | addBuildChunk chunk =>
      obtain ⟨kept, -, ⟨-, rfl⟩ | ⟨-, _, -, added, same⟩⟩ := addBuildChunk_cases succeeds
      · exact tended
      · rw [← same]
        exact ((Partitioned.tends_addBuildChunk kept).of_bears tended).of_succeeds added
  | finishBuild =>
      obtain ⟨_, _, ended, -, rfl⟩ := (succeeds_bind ..).mp succeeds
      obtain ⟨-, building, -⟩ := (ends_finishBuild before).of_succeeds ended
      have before : before.input.Tended fanOut again none fun _ => True :=
        tended.mono fun _ _ => by rw [building]; decide
      exact ((keeps_finishBuild _ before).of_succeeds ended).mono fun _ _ => trivial
  | probeChunk chunk =>
      obtain ⟨_, _, probed, -, rfl⟩ := (succeeds_bind ..).mp succeeds
      obtain ⟨bears, -, phase, -⟩ := (within_probeChunk
        (fun _ part => Partitioned.tends_appendProbe part) chunk before).of_succeeds probed
      rw [phase]
      exact bears rfl tended
  | finishProbe =>
      obtain ⟨_, _, ended, -, rfl⟩ := (succeeds_bind ..).mp succeeds
      obtain ⟨-, probing, finished, -⟩ := (ends_finishProbe before).of_succeeds ended
      have before : before.input.Tended fanOut again none fun _ => True :=
        tended.mono fun _ _ => by rw [probing]; decide
      exact ((ends_finishProbe_tended before).of_succeeds ended).mono fun _ unfinished =>
        unfinished finished

end Join

/-! ## Aggregations -/

namespace Aggregation

variable {aggregation before after : Aggregation}

/-- What a step of an aggregation does to its forest. -/
abbrev Tends
    (fanOut : Nat)
    (again : Prop)
    (free : Nat → Prop)
    (step : Step Aggregation α) : Prop :=
  step.Follows (along Aggregation.input (Bears (Partitioned.Tended fanOut again none free)))

theorem tends_complete (closable : free partition) :
    Tends fanOut again free (onInput (Partitioned.complete partition)) :=
  follows_onInput (Partitioned.tends_complete closable)

theorem tends_aggregateInMemory (closable : free partition) :
    Tends fanOut again free (aggregateInMemory partition) :=
  (follows_onInput (Partitioned.tends_loadBuild closable)).bind fun chunks =>
    (follows_addChunks {} chunks).bind fun table => (follows_emit table).bind fun _ =>
    (tends_complete closable).bind fun _ => follows_pure _

/-- A partition that is visited is completed or split, unless it was closed before. -/
theorem ends_visit_tended (tended : aggregation.input.Tended fanOut again none fun _ => False) :
    (visit partition).Ends aggregation
      (fun _ after => after.input.Tended fanOut again none fun _ => False)
      fun _ _ => True := by
  have afterwards : ∀ {after : Partitioned}, after.Tended fanOut again none (Partitioned.Only partition) →
      after.Tended fanOut again none fun _ => False :=
    fun tended => tended.mono fun _ => False.elim
  have closes : Partitioned.Only partition partition := .self partition
  refine ends_visit_of (fun _ => trivial) fun record found => ?_
  have closable := tended.only found
  refine
    { cancelled := .of_forall (fun _ _ => trivial) fun _ _ => trivial
      closed := fun _ => tended
      inMemory := fun opened _ => ((tends_aggregateInMemory closes).of_along (closable opened)).mono
        (fun _ _ => afterwards) fun _ _ => id
      spilled := fun opened _ => ?_ }
  -- Reading blocks tends the forest and leaves the partition as open as it was.
  have reads : Tends fanOut again (Partitioned.Only partition)
      (addBlocks partition {} (List.range record.build.blockCount)) :=
    follows_addBlocks_of_reads Partitioned.tends_restoreBuildBlock {} _
  refine ((reads.of_along (closable opened)).and (follows_addBlocks {} _ _)).mono
    (fun result between taken => ⟨fun table _ => ?_, fun _ => ?_⟩) fun _ _ _ => trivial
  · have emits : Tends fanOut again (Partitioned.Only partition) (emit table) := follows_emit table
    exact (emits.of_along taken.1).mono (fun _ _ closable =>
      ((Partitioned.tends_complete closes).of_bears closable).mono (fun _ _ => afterwards) fun _ _ => id)
      fun _ _ => id
  · obtain ⟨closable, feeds⟩ := taken
    obtain ⟨record, found, place⟩ := Partitioned.Feeds.exists_record feeds found
    have bare := closable.arena.children_eq_nil found
      ((congrArg PartitionPlace.state place).trans opened)
    exact (Partitioned.ends_repartition_tended closable found bare).mono (fun _ _ tended _ _ => tended)
      fun _ _ => id

theorem tends_finishInMemory
    {partitions : List Nat}
    (closable : ∀ partition ∈ partitions, free partition)
    (spilled : List Nat) :
    Tends fanOut again free (finishInMemory spilled partitions) := by
  induction partitions generalizing spilled with
  | nil => exact follows_pure _
  | cons partition rest inductionHypothesis =>
      rw [List.forall_mem_cons] at closable
      have later := inductionHypothesis closable.2
      refine (follows_onInput Partitioned.follows_record).bind fun record => ?_
      split
      · exact (tends_complete closable.1).bind fun _ => later spilled
      split
      · exact later (partition :: spilled)
      · exact (tends_aggregateInMemory closable.1).bind fun _ => (later spilled).bind fun _ => follows_pure _

/-- Whenever the aggregation is ended, its roots are closed once more, and after that no partition is. -/
theorem ends_finish_tended (tended : aggregation.input.Tended fanOut (1 < ends) none fun _ => ends = 0) :
    finish.Ends aggregation
      (fun _ after => after.input.Tended fanOut (1 < ends + 1) none fun _ => ends + 1 = 0)
      fun _ _ => True := by
  unfold finish
  rw [ends_bind, ends_get, ends_bind]
  refine ((tends_finishInMemory (fun _ => id) []).of_along tended.close_roots).mono
    (fun result start tended => ?_) fun _ _ => id
  have visits : ∀ partition, (visit partition).Follows
      (Bears fun aggregation => aggregation.input.Tended fanOut (1 < ends + 1) none fun _ => False) :=
    fun _ => bears_of_ends fun _ => ends_visit_tended
  rw [ends_bind]
  exact ((follows_drain visits _ _).of_bears (tended.mono fun _ => False.elim)).mono
    (fun _ _ tended => tended.mono fun _ => nofun) fun _ _ => id

/-- A request is the end of the aggregation, or leaves its roots as they can be closed. -/
theorem Request.tended
    (request : Request)
    (succeeds : request.step.Succeeds before () after)
    (tended : before.input.Tended fanOut (1 < ends) none fun _ => ends = 0) :
    let met := if request.continues then ends else ends + 1
    after.input.Tended fanOut (1 < met) none fun _ => met = 0 := by
  cases request with
  | chargeTo parent =>
      obtain ⟨input, charged, rfl⟩ := succeeds_onInput_iff.mp succeeds
      exact ((Partitioned.tends_chargeTo parent).of_bears tended).of_succeeds charged
  | addChunk chunk =>
      have accepted : (onInput (Partitioned.addBuildChunk chunk)).Succeeds before () after := succeeds
      obtain ⟨input, added, rfl⟩ := succeeds_onInput_iff.mp accepted
      exact ((Partitioned.tends_addBuildChunk chunk).of_bears tended).of_succeeds added
  | finish =>
      obtain ⟨_, _, ended, -, rfl⟩ := (succeeds_bind ..).mp succeeds
      exact (ends_finish_tended tended).of_succeeds ended

end Aggregation

/-! ## Runs -/

namespace Operator

/-- An operator after requests were made of it, every one of which was met, with how many of them were for the
end of an aggregation; a join counts none. Between requests the store may change in any way, somebody may
cancel the query, and others may use their accounts. -/
inductive Met : Nat → Operator → Prop where
  | newJoin
      {params : Params}
      {buildSchema : Schema}
      {buildKey : String}
      {probe : ProbeSide}
      {specs : List FilterSpec}
      {area : SpillArea}
      {ledger : Ledger}
      {new : Join}
      (made : Join.make params buildSchema buildKey probe specs area ledger = .ok new) :
      Met 0 (.join new)
  | newAggregation
      {params : Params}
      {schema : Schema}
      {key : String}
      {aggregates : List Aggregate}
      {area : SpillArea}
      {ledger : Ledger}
      {new : Aggregation}
      (made : Aggregation.make params schema key aggregates area ledger = .ok new) :
      Met 0 (.aggregation new)
  | askJoin
      {ends : Nat}
      {before after : Join}
      {request : Join.Request}
      (met : Met ends (.join before))
      (succeeds : request.step.Succeeds before () after) :
      Met ends (.join after)
  | askAggregation
      {ends : Nat}
      {before after : Aggregation}
      {request : Aggregation.Request}
      (met : Met ends (.aggregation before))
      (succeeds : request.step.Succeeds before () after) :
      Met (if request.continues then ends else ends + 1) (.aggregation after)
  | surroundings
      {ends : Nat}
      {operator : Operator}
      (met : Met ends operator)
      (area : SpillArea)
      (cancelledAt : Arena → SpillArea → Bool)
      (ledger : Ledger) :
      Met ends (operator.withInput { operator.input with area, cancelledAt, ledger })

/-- An operator all of whose requests were met, between two of them or on the way to its end: where some of
the partitions with tables were completed, where some of the roots were aggregated, or between two visits. -/
inductive Underway : Nat → Operator → Prop where
  | met
      {ends : Nat}
      {operator : Operator}
      (met : Met ends operator) :
      Underway ends operator
  | completing
      {ends : Nat}
      {join between : Join}
      {done rest : List Nat}
      (met : Met ends (.join join))
      (probing : join.phase = .probe)
      (tables : join.tables.map Prod.fst = done ++ rest)
      (succeeds : (Join.completeTables done).Succeeds join () between) :
      Underway ends (.join between)
  | joining
      {ends : Nat}
      {join start : Join}
      {config : WorkStack Join}
      (met : Met ends (.join join))
      (probing : join.phase = .probe)
      (succeeds : (Join.completeTables (join.tables.map Prod.fst)).Succeeds join () start)
      (turns : Turns Join.visit ⟨join.input.roots, start⟩ config) :
      Underway ends (.join config.state)
  | closing
      {ends : Nat}
      {aggregation between : Aggregation}
      {done rest : List Nat}
      {result : List Chunk × List Nat}
      (met : Met ends (.aggregation aggregation))
      (roots : aggregation.input.roots = done ++ rest)
      (succeeds : (Aggregation.finishInMemory [] done).Succeeds aggregation result between) :
      Underway (ends + 1) (.aggregation between)
  | aggregating
      {ends : Nat}
      {aggregation start : Aggregation}
      {result : List Chunk × List Nat}
      {config : WorkStack Aggregation}
      (met : Met ends (.aggregation aggregation))
      (succeeds : (Aggregation.finishInMemory [] aggregation.input.roots).Succeeds aggregation result start)
      (turns : Turns Aggregation.visit ⟨result.2, start⟩ config) :
      Underway (ends + 1) (.aggregation config.state)

theorem Met.eq_zero_of_join
    {operator : Operator}
    {state : Join}
    (met : Met ends operator)
    (isJoin : operator = .join state) :
    ends = 0 := by
  induction met generalizing state with
  | newJoin => rfl
  | newAggregation => cases isJoin
  | askJoin _ _ inductionHypothesis => exact inductionHypothesis rfl
  | askAggregation => cases isJoin
  | @surroundings _ operator _ _ _ _ inductionHypothesis =>
      cases operator with
      | join => exact inductionHypothesis rfl
      | aggregation => cases isJoin

theorem Underway.eq_zero_of_join
    {operator : Operator}
    {state : Join}
    (underway : Underway ends operator)
    (isJoin : operator = .join state) :
    ends = 0 := by
  cases underway with
  | met met => exact met.eq_zero_of_join isJoin
  | completing met => exact met.eq_zero_of_join rfl
  | joining met => exact met.eq_zero_of_join rfl
  | closing => cases isJoin
  | aggregating => cases isJoin

/-- The operator was not ended yet, so that its partitions can be closed. -/
def Closable (ends : Nat) : Operator → Prop
  | .join state => state.phase ≠ .finished
  | .aggregation _ => ends = 0

theorem Met.tended
    {operator : Operator}
    (met : Met ends operator) :
    ∃ fanOut, operator.input.Tended fanOut (1 < ends) none fun _ => operator.Closable ends := by
  induction met with
  | newJoin made =>
      obtain ⟨input, makes, yields⟩ := bind_eq_ok_iff.mp made
      cases yields
      exact ⟨_, Partitioned.tended_of_make makes _ _⟩
  | newAggregation made =>
      obtain ⟨input, makes, rfl⟩ := Aggregation.exists_input_of_make made
      exact ⟨_, Partitioned.tended_of_make makes _ _⟩
  | askJoin _ succeeds inductionHypothesis =>
      obtain ⟨fanOut, tended⟩ := inductionHypothesis
      exact ⟨fanOut, Join.Request.tended _ succeeds tended⟩
  | askAggregation _ succeeds inductionHypothesis =>
      obtain ⟨fanOut, tended⟩ := inductionHypothesis
      exact ⟨fanOut, Aggregation.Request.tended _ succeeds tended⟩
  | @surroundings _ operator _ area cancelledAt ledger inductionHypothesis =>
      obtain ⟨fanOut, tended⟩ := inductionHypothesis
      cases operator <;> exact ⟨fanOut, tended.params, tended.arena⟩

theorem Underway.tended
    {operator : Operator}
    (underway : Underway ends operator) :
    ∃ fanOut free, operator.input.Tended fanOut (1 < ends) none free := by
  have open_of_probing : ∀ {join : Join}, join.phase = .probe → join.phase ≠ .finished := by
    intro join probing
    rw [probing]
    decide
  cases underway with
  | met met =>
      obtain ⟨fanOut, tended⟩ := met.tended
      exact ⟨fanOut, _, tended⟩
  | completing met probing _ succeeds =>
      obtain ⟨fanOut, tended⟩ := met.tended
      have closable := tended.mono fun _ (_ : True) => open_of_probing probing
      exact ⟨fanOut, _, (Join.ends_completeTables_tended closable _).of_succeeds succeeds⟩
  | joining met probing succeeds turns =>
      obtain ⟨fanOut, tended⟩ := met.tended
      have closable := tended.mono fun _ (_ : True) => open_of_probing probing
      have started := (Join.ends_completeTables_tended closable _).of_succeeds succeeds
      exact ⟨fanOut, _, turns.of_visits (fun _ _ => Join.ends_visit_tended)
        (started.mono fun _ => False.elim)⟩
  | @closing _ aggregation _ done _ _ met roots succeeds =>
      obtain ⟨fanOut, tended⟩ := met.tended
      have closable := tended.close_roots
      have known : ∀ root ∈ done, root ∈ aggregation.input.roots :=
        fun root member => roots ▸ List.mem_append_left _ member
      exact ⟨fanOut, _, ((Aggregation.tends_finishInMemory known []).of_along closable).of_succeeds succeeds⟩
  | aggregating met succeeds turns =>
      obtain ⟨fanOut, tended⟩ := met.tended
      have closable := tended.close_roots
      have started := ((Aggregation.tends_finishInMemory (fun _ => id) []).of_along
        closable).of_succeeds succeeds
      exact ⟨fanOut, _, turns.of_visits (fun _ _ => Aggregation.ends_visit_tended)
        (started.mono fun _ => False.elim)⟩

end Operator

namespace Partitioned

variable {input : Partitioned}

/-- Where the record of a partition is in the forest of an operator, after so many requests for the end of an
aggregation. -/
structure Placed (input : Partitioned) (ends partition : Nat) (record : PartitionRecord) : Prop where
  /-- A root is at level zero. -/
  root : record.parent = none → record.level = 0
  /-- Any other partition comes after its parent and is one level below it. -/
  child : ∀ parent, record.parent = some parent → parent < partition ∧
    ∃ above, input.arena.records[parent]? = some above ∧ record.level = above.level + 1
  /-- The children are the partitions that name this one as their parent, in order of creation. -/
  children : record.children = input.arena.naming partition
  /-- There are none, or one for each bucket, in order. -/
  brood : record.children = [] ∨ input.arena.Brood input.params.partitionCount record.children
  /-- There are some if the partition is marked as split, and only then. -/
  split : ends ≤ 1 → (record.children ≠ [] ↔ record.state = .repartitioned)
  /-- However often an aggregation is ended, a partition that is marked was split, and one that was split and
  is not marked is a root that was closed once more. -/
  again : (record.state = .repartitioned → record.children ≠ []) ∧
    (record.children ≠ [] → record.state ≠ .repartitioned → record.parent = none ∧ record.state ≠ .opened)
  /-- Whoever climbs from the partition gets to a root, in as many steps as its level says. -/
  climbs : ∃ above, input.arena.ancestors partition = .ok above ∧ input.arena.Climbs partition above ∧
    above.length = record.level

/-- The partitions of the input form a forest, and its counters describe it. -/
structure Forested (input : Partitioned) (ends : Nat) : Prop where
  placed : ∀ (partition : Nat) (record : PartitionRecord), input.arena.records[partition]? = some record →
    input.Placed ends partition record
  /-- The partitions are the roots and the children of the splits that were counted. -/
  created : input.stats.created = input.params.partitionCount * (1 + input.stats.repartitions)
  /-- As many build sides are spilled as were counted. -/
  spilled : input.stats.spilled = input.arena.spilledCount

theorem Tended.placed
    (tended : input.Tended fanOut (1 < ends) none free)
    (found : input.arena.records[partition]? = some record) :
    input.Placed ends partition record := by
  obtain ⟨rfl, arena⟩ := tended
  have settled := arena.settled_all found
  refine
    { root := arena.root found
      child := fun _ => arena.child found
      children := arena.children found
      brood := settled.brood
      split := fun once => ⟨fun some => ?_, settled.split⟩
      again := ⟨settled.split, fun some unmarked => ?_⟩
      climbs := ⟨_, arena.climbs found⟩ }
  · exact (settled.marked some).resolve_right fun closed => Nat.not_lt_of_le once closed.1
  · exact ((settled.marked some).resolve_left unmarked).2

theorem Tended.forested (tended : input.Tended fanOut (1 < ends) none free) : input.Forested ends where
  placed _ _ := tended.placed
  created := tended.params ▸ tended.arena.created
  spilled := tended.arena.counted.symm

/-- A record is added under the next number, and of the others only that of its parent learns of it; or it is
refused, and nothing changes. -/
def AddsOrStays (input : Partitioned) (record : PartitionRecord) : Prop :=
  (onArena fun arena => arena.add record).Ends input
    (fun number after => number = input.arena.size ∧ after.arena.size = number + 1 ∧
      ∀ other, after.arena.records[other]? =
        if other = number then some record
        else input.arena.records[other]?.map (input.arena.adopt record other))
    fun _ after => after = input

theorem addsOrStays (input : Partitioned) (record : PartitionRecord) : input.AddsOrStays record := by
  refine ends_onArena (fun number grown added => ?_) fun _ => rfl
  obtain ⟨rfl, -, size, -, records⟩ := Arena.of_add_eq_ok added
  exact ⟨rfl, size, records⟩

end Partitioned

namespace Operator

/-- Whatever is asked of a join or of an aggregation, as long as every request is met its partitions form a
forest, which its counters describe, between requests and on the way to its end. A join counts no ends, so of
its partitions those with children are always the ones that are marked as split. -/
theorem forested_of_underway
    {operator : Operator}
    (underway : Underway ends operator) :
    operator.input.Forested ends ∧
      (∀ state, operator = .join state → ends = 0) ∧
      ∀ (input : Partitioned) (record : PartitionRecord), input.AddsOrStays record := by
  obtain ⟨_, _, tended⟩ := underway.tended
  exact ⟨tended.forested, fun _ => underway.eq_zero_of_join, Partitioned.addsOrStays⟩

namespace Sample

/-- Two rows, the keys of which are in one bucket of level zero and in two of level one. -/
def apart : Chunk :=
  ⟨probe.schema, [[.int 2], [.int 7]], by decide⟩

/-- An aggregation with room for one of them. -/
def narrow : Aggregation :=
  valueOf (Aggregation.make ⟨2, 8, 3⟩ probe.schema probe.key [.countStar] {} {}) (by decide +kernel)

/-- The aggregation after both were accepted. -/
def gathered : Aggregation :=
  ((Aggregation.Request.addChunk apart).step.outcome narrow).2

/-- The aggregation after its end, on the way to which a root was split. -/
def parted : Aggregation :=
  (Aggregation.Request.finish.step.outcome gathered).2

/-- The aggregation after it was ended once more. -/
def reclosed : Aggregation :=
  (Aggregation.Request.finish.step.outcome parted).2

theorem met_parted : Met 1 (.aggregation parted) := by
  have made : Aggregation.make ⟨2, 8, 3⟩ probe.schema probe.key [.countStar] {} {} = .ok narrow :=
    eq_ok_valueOf _ _
  have runs : ((Aggregation.Request.addChunk apart).step.outcome narrow).1.isOk = true ∧
      (Aggregation.Request.finish.step.outcome gathered).1.isOk = true := by
    decide +kernel
  have gathers : Met 0 (.aggregation gathered) :=
    (Met.newAggregation made).askAggregation (succeeds_of_isOk _ _ runs.1)
  exact gathers.askAggregation (succeeds_of_isOk _ _ runs.2)

end Sample

/-- A root that was split has a child for either bucket. -/
theorem forested_of_parted :
    Underway 1 (.aggregation Sample.parted) ∧
      Sample.parted.input.arena.records[1]?.map PartitionRecord.children = some [2, 3] ∧
      Sample.parted.input.stats.created = 4 ∧
      Sample.parted.input.Forested 1 := by
  have grown : Sample.parted.input.arena.records[1]?.map PartitionRecord.children = some [2, 3] ∧
      Sample.parted.input.stats.created = 4 := by
    decide +kernel
  exact ⟨.met Sample.met_parted, grown.1, grown.2, (forested_of_underway (.met Sample.met_parted)).1⟩

/-- An aggregation that is ended again closes its roots again, so a root that was split has children and is
not marked as split any more. -/
theorem unmarked_of_reclosed :
    Met 2 (.aggregation Sample.reclosed) ∧
      Sample.reclosed.input.arena.records[1]?.map (fun record => (record.children, record.state)) =
        some ([2, 3], .completed) := by
  have again : (Aggregation.Request.finish.step.outcome Sample.parted).1.isOk = true ∧
      Sample.reclosed.input.arena.records[1]?.map (fun record => (record.children, record.state)) =
        some ([2, 3], .completed) := by
    decide +kernel
  exact ⟨Sample.met_parted.askAggregation (succeeds_of_isOk _ _ again.1), again.2⟩

end Operator
end Spillway
