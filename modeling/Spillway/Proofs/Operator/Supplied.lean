import Spillway.Proofs.Operator.Regrouping

/-!
# Aggregations that are supplied

An aggregation is supplied with chunks of its schema that are all accepted, while the store serves every
call and nobody cancels the query. Whatever others do with the accounts meanwhile, its rows are in its
roots then, each in the root of its bucket. So nothing is in the way of the visits at the end, and since
every child lies one level deeper these come to an end.
-/

namespace Spillway
namespace Aggregation

open Step

variable {side : ProbeSide} {aggregates : List Aggregate} {rows : List Row} {chunks : List Chunk}
  {aggregation before after : Aggregation} {partition : Nat} {contents : Contents}

/-! ## Room for splits -/

/-- The children of a partition lie one level deeper, above the depth limit. -/
theorem lowers_of_visit
    {children : List Nat}
    (succeeds : (visit partition).Succeeds before (.split children) after)
    (asks : before.Asks side aggregates)
    (holds : before.input.Holds True contents) :
    Partitioned.Lowers partition children before.input after.input := by
  intro record found
  cases visited_of_succeeds succeeds found with
  | split _ spilled reads splits ordered =>
      obtain ⟨quiet, -⟩ := succeeds_addAllBlocks reads asks holds found spilled
      obtain ⟨again, there, build, place⟩ := quiet.exists_record found
      have level : again.level = record.level := congrArg PartitionPlace.level place
      obtain ⟨shallow, deeper⟩ := Partitioned.lowers_of_repartition splits ordered
        (quiet.holds holds) there (build ▸ spilled) again there
      rw [level] at shallow deeper
      exact ⟨Partitioned.params_of_outline quiet.outline ▸ shallow, deeper⟩

/-- There are at most so many levels below the partition. -/
def Room
    (side : ProbeSide)
    (aggregates : List Aggregate)
    (aggregation : Aggregation)
    (partition depth : Nat) : Prop :=
  (∃ due, Owes True side aggregates aggregation due) ∧ aggregation.input.Headroom partition depth

theorem deepens_visit : Deepens (Room side aggregates) visit := by
  refine @Partitioned.deepens_of_lowers _ _ Aggregation.input
    (fun aggregation => ∃ due, Owes True side aggregates aggregation due) visit ?_ ?_ ?_
  · exact fun succeeds =>
      ((retires_visit _ _).of_succeeds succeeds).evolves.mono fun _ _ => trivial
  · rintro _ _ _ _ succeeds ⟨_, owes⟩ known
    obtain ⟨left, stillOwes, -⟩ := conserves_visit succeeds owes known
    exact ⟨left, stillOwes⟩
  · rintro _ _ _ _ succeeds ⟨_, _, asks, holds, -⟩
    exact lowers_of_visit succeeds asks holds

/-! ## Supplying chunks -/

/-- An aggregation that was supplied with chunks of its schema, for the rows of which there are numbers. No
call of the store fails, and the query is not cancelled. Between chunks others may use their blocks, and
whatever accounts there are. -/
inductive Supplied
    (side : ProbeSide)
    (aggregates : List Aggregate) : List Chunk → Aggregation → Prop where
  | new
      {params : Params}
      {area : SpillArea}
      {ledger : Ledger}
      {new : Aggregation}
      (made : make params side.schema side.key aggregates area ledger = .ok new)
      (reliable : area.store.Reliable) :
      Supplied side aggregates [] new
  | charged
      {chunks : List Chunk}
      {before after : Aggregation}
      {account : Nat}
      (supplied : Supplied side aggregates chunks before)
      (succeeds : (onInput (Partitioned.chargeTo account)).Succeeds before () after) :
      Supplied side aggregates chunks after
  | added
      {chunks : List Chunk}
      {chunk : Chunk}
      {before after : Aggregation}
      (supplied : Supplied side aggregates chunks before)
      (fits : chunk.schema = side.schema)
      (numbered : chunk.Numbered)
      (succeeds : (addChunk chunk).Succeeds before () after) :
      Supplied side aggregates (chunks ++ [chunk]) after
  | surroundings
      {chunks : List Chunk}
      {before : Aggregation}
      (supplied : Supplied side aggregates chunks before)
      {area : SpillArea}
      {ledger : Ledger}
      (reliable : area.store.Reliable)
      (stays : before.input.area.store.Spares area.store before.input.Lists) :
      Supplied side aggregates chunks { before with input := { before.input with area, ledger } }

/-- An aggregation that has rows in its roots, and nothing in its way. -/
structure Gathers
    (aggregation : Aggregation)
    (side : ProbeSide)
    (aggregates : List Aggregate)
    (rows : List Row) : Prop extends aggregation.Collecting True side aggregates rows where
  served : aggregation.input.Served
  groups : side.Groups aggregates rows
  unsplit : aggregation.input.repartitions = 0

theorem gathers_of_make
    {params : Params}
    {area : SpillArea}
    {ledger : Ledger}
    (made : make params side.schema side.key aggregates area ledger = .ok aggregation)
    (reliable : area.store.Reliable) :
    aggregation.Gathers side aggregates [] := by
  have collecting : aggregation.Collecting True side aggregates [] :=
    collecting_of_make made reliable.faithful
  simp only [make, bind_eq_ok_iff, mapError_eq_ok_iff] at made
  obtain ⟨_, checked, made⟩ := made
  split at made
  · exact absurd made throw_ne_ok
  · simp only [bind_eq_ok_iff, pure_eq_ok_iff] at made
    obtain ⟨input, makes, rfl⟩ := made
    have sound := Partitioned.sound_of_make makes reliable
    obtain ⟨_, _, rfl, rfl⟩ := Partitioned.exists_bare_of_make makes
    exact ⟨collecting, ⟨sound.toUndisturbed, sound.probed, sound.shallow, rfl⟩,
      ⟨forM_eq_ok_iff.mp checked, fun some => absurd rfl some⟩, rfl⟩

theorem Gathers.chargeTo
    {account : Nat}
    (gathers : before.Gathers side aggregates rows)
    (succeeds : (onInput (Partitioned.chargeTo account)).Succeeds before () after) :
    after.Gathers side aggregates rows := by
  have collecting := gathers.toCollecting.chargeWithin (show (onInput
    (Partitioned.chargeWithin (some account))).Succeeds before () after from succeeds)
  obtain ⟨input, charged, rfl⟩ := succeeds_onInput_iff.mp succeeds
  obtain ⟨ledger, account, rfl⟩ := (Partitioned.ends_chargeTo _ _).of_succeeds charged
  have served := gathers.served
  exact ⟨collecting, ⟨⟨served.reliable, served.uncancelled⟩, served.probed, served.shallow,
    served.alone⟩, gathers.groups, gathers.unsplit⟩

theorem Gathers.addChunk
    {chunk : Chunk}
    (gathers : before.Gathers side aggregates rows)
    (succeeds : (addChunk chunk).Succeeds before () after)
    (suits : chunk.Suits True side.schema) :
    after.Gathers side aggregates (rows ++ chunk.rows) := by
  have collecting := gathers.toCollecting.addChunk succeeds suits
  have feeds : before.input.Feeds (fun _ => True) true after.input :=
    (follows_addChunk chunk before).of_succeeds succeeds
  refine ⟨collecting, feeds.evolves.served gathers.served, ⟨gathers.groups.checked, fun some => ?_⟩,
    feeds.repartitions_eq.trans gathers.unsplit⟩
  by_cases none : chunk.rows = []
  · rw [none, List.append_nil] at some
    exact gathers.groups.keyed some
  · obtain ⟨input, added, rfl⟩ := succeeds_onInput_iff.mp succeeds
    have keyed := Join.keyed_of_addBuildChunk added none
      (suits.schema_eq.trans gathers.asks.buildSchema.symm)
    rwa [gathers.asks.buildSchema, gathers.asks.buildKey] at keyed

theorem Supplied.gathers
    (supplied : Supplied side aggregates chunks aggregation) :
    aggregation.Gathers side aggregates (chunks.flatMap Chunk.rows) := by
  induction supplied with
  | new made reliable => exact gathers_of_make made reliable
  | charged _ succeeds gathers => exact gathers.chargeTo succeeds
  | added _ fits numbered succeeds gathers =>
      rw [List.flatMap_append, List.flatMap_singleton]
      exact gathers.addChunk succeeds ⟨fits, fun _ => numbered⟩
  | surroundings _ reliable stays gathers =>
      obtain ⟨⟨asks, contents, rooted⟩, served, groups, unsplit⟩ := gathers
      exact ⟨⟨⟨asks.side?, asks.aggregates, asks.shown⟩, contents,
        Join.rooted_surround rooted reliable.faithful stays⟩,
        ⟨⟨reliable, served.uncancelled⟩, served.probed, served.shallow, served.alone⟩, groups, unsplit⟩

/-! ## The end -/

/-- The visits of the end start at the roots, with nothing in the way. -/
theorem Gathers.steady
    (gathers : aggregation.Gathers side aggregates rows) :
    Steady side aggregates rows aggregation.input.roots aggregation := by
  obtain ⟨⟨asks, contents, rooted⟩, served, -, unsplit⟩ := gathers
  refine ⟨served, contents, asks, rooted.holds, rooted.routes asks.side?, fun root member => ?_,
    fun key exceeds => ?_, fun split => absurd unsplit split⟩
  · rw [rooted.size]
    exact List.mem_range.mp member
  -- All rows of a key are in the root of its bucket, in the order in which they arrived.
  · let directory := aggregation.input.directory 0
    have bounded : directory.bucketOfKey key < aggregation.input.params.partitionCount :=
      Directory.bucketOfKey_lt _ _
    refine ⟨_, List.mem_range.mpr bounded, _, rooted.place _ bounded, rfl, ?_⟩
    rw [rooted.build trivial _ bounded]
    simp only [Partitioned.bucketOf_of_side? asks.side?]
    exact (@ProbeSide.exceeds_filter_iff side aggregates rows key fun other =>
      directory.bucketOfKey other = directory.bucketOfKey key).mpr ⟨decide_eq_true rfl, exceeds⟩

/-- The end aggregates what is in memory and then takes turns until nothing is left, or until there is a
reason for it to fail. -/
theorem Gathers.ends_finish
    (gathers : aggregation.Gathers side aggregates rows) :
    finish.Ends aggregation
      (fun _ after => Steady side aggregates rows [] after ∧ ∃ first spilled between,
        (finishInMemory [] aggregation.input.roots).Succeeds aggregation (first, spilled) between ∧
          Turns visit ⟨spilled, between⟩ ⟨[], after⟩)
      fun status after => Refuses side aggregates rows status after.input ∧
        ((finishInMemory [] aggregation.input.roots).outcome aggregation = (.error status, after) ∨
          ∃ first spilled between,
            (finishInMemory [] aggregation.input.roots).Succeeds aggregation (first, spilled) between ∧
              Fails visit ⟨spilled, between⟩ status after) := by
  obtain ⟨contents, rooted⟩ := gathers.stored
  rw [finish, ends_bind, ends_get, ends_bind]
  refine (((gathers.steady.ends_finishInMemory gathers.groups).and
    (ends_finishInMemory [] aggregation.input.roots aggregation)).and (ends_outcome _ _)).mono
    (fun result between ended => ?_) fun _ _ failed => ⟨failed.1.1, .inl failed.2⟩
  obtain ⟨⟨steady, evolves, -⟩, succeeds⟩ := ended
  obtain ⟨first, spilled⟩ := result
  obtain ⟨_, reduces⟩ := succeeds_finishInMemory succeeds gathers.asks rooted.holds rooted.awaits
    rooted.cleared List.nodup_range
  -- What is left are roots, below which all levels are free.
  have room : ∀ partition ∈ spilled, Room side aggregates between partition
      aggregation.input.params.maxDepth := by
    intro partition member
    obtain ⟨_, _, arranged⟩ := steady
    obtain ⟨record, found⟩ := Arena.exists_record_of_lt (arranged.known partition member)
    refine ⟨⟨_, _, reduces.asks, reduces.holds, reduces.cleared, rfl⟩, record, found, ?_⟩
    rw [evolves.params_eq]
    omega
  rw [ends_bind]
  refine (takesTurns_drain deepens_visit _ spilled between room).mono (fun others last drained => ?_)
    fun status last fails => ?_
  · have turns := drained.2 []
    rw [List.append_nil] at turns
    have still : Steady side aggregates rows spilled between := steady
    exact ⟨@Steady.turns _ _ _ gathers.groups ⟨spilled, between⟩ _ still turns, first, spilled,
      between, succeeds, turns⟩
  · have fails := fails []
    rw [List.append_nil] at fails
    refine ⟨?_, .inr ⟨first, spilled, between, succeeds, fails⟩⟩
    obtain ⟨partition, rest, before, turns, failed⟩ := fails
    have still : Steady side aggregates rows spilled between := steady
    have before := @Steady.turns _ _ _ gathers.groups ⟨spilled, between⟩ _ still turns
    exact (before.ends_visit gathers.groups).of_fails failed

/-- The code of the status with which the end of an aggregation fails, if it does. -/
def endCode? (aggregation : Aggregation) : Option StatusCode :=
  match (finish.outcome aggregation).1 with
  | .ok _ => none
  | .error status => some status.code

/-- The end succeeds with nothing left, or fails for a reason. -/
theorem Gathers.endCode_cases
    (gathers : aggregation.Gathers side aggregates rows) :
    (aggregation.endCode? = none ∧
        Steady side aggregates rows [] (finish.outcome aggregation).2) ∨
      ∃ status, aggregation.endCode? = some status.code ∧
        Refuses side aggregates rows status (finish.outcome aggregation).2.input := by
  have ends := gathers.ends_finish
  rw [Ends] at ends
  rw [endCode?]
  cases outcome : finish.outcome aggregation with
  | mk result after =>
      rw [outcome] at ends
      cases result with
      | ok output => exact .inl ⟨rfl, ends.1⟩
      | error status => exact .inr ⟨status, rfl, ends.1⟩

end Aggregation
end Spillway
