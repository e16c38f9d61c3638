import Spillway.Proofs.Operator.Roots
import Spillway.Proofs.Operator.Visiting
import Spillway.Proofs.Operator.WorkList

/-!
# Budgets of joins and aggregations

Joins and aggregations move bytes only through their partitioned input, and give up on a failure
wherever it strikes. After every request, whether it was met or refused or cut off halfway, the account
of the operator holds exactly the bytes of its build sides in memory and of its loaded partitions, and
every account above it holds that much beside what it holds for others.
-/

namespace Spillway

open Step

variable {others : Nat → Nat} {stored : List Nat} {inHand : Nat} {α : Type}

/-! ## New input and new accounts -/

namespace Partitioned

/-- New input holds nothing. -/
theorem accountedBy_of_make
    {law : Ledger → Nat → Nat → Prop}
    {operator : String}
    {params : Params}
    {buildSchema : Schema}
    {buildKey : String}
    {probeSide : Option ProbeSide}
    {area : SpillArea}
    {ledger : Ledger}
    {input : Partitioned}
    (made : make operator params buildSchema buildKey probeSide area ledger = .ok input)
    (books : law (ledger.openAccount operator params.memLimit none).2 ledger.accounts.size 0) :
    input.AccountedBy law [] 0 := by
  obtain ⟨valid, start, new, rfl⟩ := exists_bare_of_make made
  have empty : total (fun record => record.build.memoryBytes)
      (start.roots.map (start.newRecord none 0)) = 0 :=
    total_eq_zero (List.forall_mem_map.mpr fun _ _ => rfl)
  have pins : start.pinned = [] := by rw [new]; rfl
  have nothing : law start.ledger start.account 0 := by
    rw [new]
    exact books
  refine ⟨?_, ?_, by simp, by simp [pins], by simp [pins]⟩
  · unfold heldBytes
    dsimp only
    rw [pins, empty]
    exact nothing
  · intro partition record found
    dsimp only at found
    rw [getElem?_newRoots] at found
    split at found
    · cases found
      exact fun _ => rfl
    · cases found

/-- The ledger holds for others what it held before. -/
theorem accounted_of_make
    {operator : String}
    {params : Params}
    {buildSchema : Schema}
    {buildKey : String}
    {probeSide : Option ProbeSide}
    {area : SpillArea}
    {ledger : Ledger}
    {input : Partitioned}
    (made : make operator params buildSchema buildKey probeSide area ledger = .ok input) :
    input.Accounted ledger.used [] 0 :=
  accountedBy_of_make made (Ledger.holds_openAccount (fun _ => rfl) (fun _ _ => rfl) _ _ _)

/-- The account is changed only while it holds nothing. -/
theorem keeps_chargeTo
    (parent : Nat) :
    (chargeTo parent).Keeps (Accounted others stored inHand) := by
  intro input accounted
  refine (ends_bind _ _).mpr (ends_get.mpr ?_)
  dsimp only
  split
  case isTrue => exact keeps_fail_bind _ _ input accounted
  case isFalse nothing =>
      rw [ne_eq, not_not] at nothing
      exact { accounted with books := accounted.books.reopen nothing _ _ _ }

end Partitioned

/-! ## Joins -/

namespace Join

variable {law : Ledger → Nat → Nat → Prop} {partition : Nat} {join : Join}
  {Condition : Partitioned → Prop}

/-- The filters are all that keys are inserted into. -/
theorem keeps_insertKeys_of
    {Invariant : Join → Prop}
    (apart : ∀ join filters, Invariant join → Invariant { join with filters })
    (cells : List Cell)
    (done filters : List KeyFilter) :
    (insertKeys cells done filters).Keeps Invariant := by
  induction filters generalizing done with
  | nil => exact keeps_modify fun join => apart join done
  | cons filter rest inductionHypothesis =>
      rw [insertKeys]
      split
      · exact inductionHypothesis _
      · exact (keeps_modify fun join => apart join _).bind fun _ => keeps_fail _

theorem keeps_insertKeys
    (cells : List Cell)
    (done filters : List KeyFilter) :
    (insertKeys cells done filters).Keeps fun join => Condition join.input :=
  keeps_insertKeys_of (fun _ _ condition => condition) cells done filters

theorem keeps_addBuildChunk
    [Ledger.Lasting law]
    (chunk : Chunk) :
    (addBuildChunk chunk).Keeps fun join => join.input.AccountedBy law stored inHand := by
  refine keeps_get.bind fun join => ?_
  dsimp only
  split
  · exact keeps_fail_bind _ _
  refine (keeps_ofExcept _).bind fun chunk => ?_
  have append : (onInput (Partitioned.addBuildChunk chunk)).Keeps fun join =>
      join.input.AccountedBy law stored inHand :=
    keeps_onInput (Partitioned.keeps_addBuildChunk chunk)
  split
  · exact keeps_pure _
  split
  · exact append
  · exact (keeps_ofExcept _).bind fun cells => (keeps_insertKeys cells [] _).bind fun _ => append

theorem keeps_makeTables
    (partitions : List Nat) :
    (makeTables partitions).Keeps fun join => Condition join.input := by
  induction partitions with
  | nil => exact keeps_pure _
  | cons partition rest inductionHypothesis =>
      refine (keeps_onInput Partitioned.keeps_record).bind fun record => ?_
      dsimp only
      split
      · exact inductionHypothesis
      refine keeps_get.bind fun join => (keeps_ofExcept _).bind fun table => ?_
      refine (keeps_modify fun _ condition => ?_).bind fun _ => inductionHypothesis
      exact condition

theorem keeps_finishBuild : finishBuild.Keeps fun join => Condition join.input := by
  refine keeps_get.bind fun join => ?_
  dsimp only
  split
  · exact keeps_fail_bind _ _
  refine (keeps_onInput Partitioned.keeps_checkCancelled).bind fun _ => ?_
  refine (keeps_makeTables _).bind fun _ => ?_
  refine (keeps_modify fun _ condition => ?_).bind fun _ => keeps_pure _
  exact condition

theorem keeps_joinWith
    (table : JoinTable)
    (chunk : Chunk) :
    (joinWith table chunk).Keeps fun join => Condition join.input :=
  keeps_get.bind fun _ => (keeps_ofExcept _).bind fun _ => keeps_pure _

theorem keeps_probeParts
    (parts : List (Nat × Option Chunk)) :
    (probeParts parts).Keeps fun join => join.input.AccountedBy law stored inHand := by
  induction parts with
  | nil => exact keeps_pure _
  | cons first rest inductionHypothesis =>
      obtain ⟨partition, _ | part⟩ := first
      · exact inductionHypothesis
      have probes : (probePart partition part).Keeps fun join =>
          join.input.AccountedBy law stored inHand := by
        refine keeps_get.bind fun join => ?_
        split
        · exact keeps_joinWith _ _
        · refine (keeps_onInput Partitioned.keeps_record).bind fun record => ?_
          dsimp only
          split
          · exact keeps_pure _
          · exact (keeps_onInput (Partitioned.keeps_appendProbe part)).bind fun _ => keeps_pure _
      exact probes.bind fun _ => inductionHypothesis.bind fun _ => keeps_pure _

theorem keeps_countOutput
    (chunks : List Chunk) :
    (countOutput chunks).Keeps fun join => Condition join.input :=
  keeps_modify fun _ condition => condition

theorem keeps_probeChunk
    (chunk : Chunk) :
    (probeChunk chunk).Keeps fun join => join.input.AccountedBy law stored inHand := by
  refine keeps_get.bind fun join => ?_
  dsimp only
  split
  · exact keeps_fail_bind _ _
  refine (keeps_onInput Partitioned.keeps_checkCancelled).bind fun _ => ?_
  refine (keeps_ofExcept _).bind fun chunk => ?_
  split
  · exact keeps_pure _
  refine (keeps_ofExcept _).bind fun parts => (keeps_probeParts _).bind fun output => ?_
  exact (keeps_countOutput output).bind fun _ => keeps_pure _

theorem keeps_joinBlocks
    (table : JoinTable)
    (blocks : List Nat) :
    (joinBlocks partition table blocks).Keeps fun join =>
      join.input.Accounted others stored inHand := by
  induction blocks with
  | nil => exact keeps_pure _
  | cons block rest inductionHypothesis =>
      refine (keeps_onInput Partitioned.keeps_checkCancelled).bind fun _ => ?_
      refine (keeps_onInput (Partitioned.keeps_restoreProbeBlock block)).bind fun chunks => ?_
      refine (Keeps.mapM fun chunk _ => keeps_joinWith table chunk).bind fun _ => ?_
      exact inductionHypothesis.bind fun _ => keeps_pure _

/-- A join that is cut off in a partition leaves what was charged for loading it noted. -/
theorem ends_joinPartition
    {record : PartitionRecord}
    (accounted : join.input.Accounted others stored inHand)
    (found : join.input.arena.records[partition]? = some record)
    (opened : record.state = .opened) :
    (joinPartition partition).Ends join
      (fun _ after => after.input.Accounted others stored inHand)
      fun _ after => after.input.Accounted others stored inHand := by
  unfold joinPartition
  rw [ends_bind, ends_onInput]
  refine (Partitioned.ends_loadBuild accounted found fun _ => opened).mono
    (fun chunks between accounted => ?_) fun _ _ accounted => accounted
  have joins : (do
      let input := (← get).input
      let table ← Step.ofExcept (JoinTable.ofChunks input.buildSchema chunks input.buildKey)
      let blocks ← onInput (Partitioned.probeBlocks partition)
      let output ← joinBlocks partition table (List.range blocks)
      onInput (Partitioned.complete partition)
      return output : Step Join (List Chunk)).Keeps fun join =>
        join.input.Accounted others stored inHand := by
    refine keeps_get.bind fun join => (keeps_ofExcept _).bind fun table => ?_
    refine (keeps_onInput Partitioned.keeps_probeBlocks).bind fun blocks => ?_
    refine (keeps_joinBlocks table _).bind fun output => ?_
    exact (keeps_onInput Partitioned.keeps_complete).bind fun _ => keeps_pure _
  exact joins _ accounted

/-- Only partitions that still accept rows are loaded, and only spilled ones are split. -/
theorem keeps_visit
    (partition : Nat) :
    (visit partition).Keeps fun join => join.input.Accounted others stored inHand := by
  intro join accounted
  refine ends_visit_of (fun _ => accounted) fun record found =>
    { cancelled := .of_forall (fun _ _ => trivial) fun _ _ => accounted
      closed := fun _ => accounted
      completed := fun _ _ => Partitioned.keeps_complete _ accounted
      split := fun _ _ spilled _ _ => ?_
      joined := fun opened _ _ => ends_joinPartition accounted found opened }
  exact (Partitioned.keeps_repartition _ (accounted.store found spilled)).mono
    (fun _ _ after _ _ => after.unstore) fun _ _ after => after.unstore

theorem keeps_completeTables
    [Ledger.Lasting law]
    (partitions : List Nat) :
    (completeTables partitions).Keeps fun join => join.input.AccountedBy law stored inHand := by
  induction partitions with
  | nil => exact keeps_pure _
  | cons partition rest inductionHypothesis =>
      refine (keeps_modify fun _ accounted => ?_).bind fun _ => ?_
      · exact accounted
      · exact (keeps_onInput Partitioned.keeps_complete).bind fun _ => inductionHypothesis

theorem keeps_finishProbe :
    finishProbe.Keeps fun join => join.input.Accounted others stored inHand := by
  refine keeps_get.bind fun join => ?_
  dsimp only
  split
  · exact keeps_fail_bind _ _
  refine (keeps_completeTables _).bind fun _ => (keeps_drain keeps_visit _ _).bind fun output => ?_
  refine (keeps_modify fun _ accounted => ?_).bind fun _ => ?_
  · exact accounted
  · exact (keeps_countOutput output).bind fun _ => keeps_pure _

end Join

/-! ## Aggregations -/

namespace Aggregation

variable {partition : Nat} {aggregation : Aggregation} {Condition : Partitioned → Prop}

theorem keeps_addChunk
    (chunk : Chunk) :
    (addChunk chunk).Keeps fun aggregation => aggregation.input.Accounted others stored inHand :=
  keeps_onInput (Partitioned.keeps_addBuildChunk chunk)

theorem keeps_emit
    (table : GroupTable) :
    (emit table).Keeps fun aggregation => Condition aggregation.input := by
  unfold emit
  split
  · exact keeps_pure _
  · exact keeps_get.bind fun _ => (keeps_ofExcept _).bind fun _ => keeps_pure _

theorem keeps_addChunks
    (table : GroupTable)
    (chunks : List Chunk) :
    (addChunks table chunks).Keeps fun aggregation => Condition aggregation.input :=
  keeps_get.bind fun _ => keeps_ofExcept _

/-- A partition in memory is not charged again when it is aggregated. -/
theorem ends_aggregateInMemory
    {record : PartitionRecord}
    (accounted : aggregation.input.Accounted others stored inHand)
    (found : aggregation.input.arena.records[partition]? = some record)
    (inMemory : ¬ record.build.spilled) :
    (aggregateInMemory partition).Ends aggregation
      (fun _ after => after.input.Accounted others stored inHand)
      fun _ after => after.input.Accounted others stored inHand := by
  unfold aggregateInMemory
  rw [ends_bind, ends_onInput]
  refine (Partitioned.ends_loadBuild accounted found fun spilled => absurd spilled inMemory).mono
    (fun chunks between accounted => ?_) fun _ _ accounted => accounted
  have aggregates : (do
      let table ← addChunks {} chunks
      let output ← emit table
      onInput (Partitioned.complete partition)
      return output : Step Aggregation (List Chunk)).Keeps fun aggregation =>
        aggregation.input.Accounted others stored inHand := by
    refine (keeps_addChunks _ chunks).bind fun table => (keeps_emit table).bind fun output => ?_
    exact (keeps_onInput Partitioned.keeps_complete).bind fun _ => keeps_pure _
  exact aggregates _ accounted

theorem keeps_addBlocks
    (table : GroupTable)
    (blocks : List Nat) :
    (addBlocks partition table blocks).Keeps fun aggregation =>
      aggregation.input.Accounted others stored inHand := by
  induction blocks generalizing table with
  | nil => exact keeps_pure _
  | cons block rest inductionHypothesis =>
      refine (keeps_onInput Partitioned.keeps_checkCancelled).bind fun _ => ?_
      refine (keeps_onInput (Partitioned.keeps_restoreBuildBlock block)).bind fun chunks => ?_
      refine (keeps_addChunks table chunks).bind fun table => keeps_get.bind fun aggregation => ?_
      dsimp only
      split
      · exact keeps_pure _
      · exact inductionHypothesis table

/-- Only spilled partitions are split. -/
theorem keeps_visit
    (partition : Nat) :
    (visit partition).Keeps fun aggregation =>
      aggregation.input.Accounted others stored inHand := by
  intro aggregation accounted
  refine ends_visit_of (fun _ => accounted) fun record found =>
    { cancelled := .of_forall (fun _ _ => trivial) fun _ _ => accounted
      closed := fun _ => accounted
      inMemory := fun _ inMemory => ends_aggregateInMemory accounted found inMemory
      spilled := fun _ spilled => ?_ }
  -- The partition stays spilled while its blocks are read, which is what splitting it needs.
  refine (keeps_addBlocks {} _ aggregation (accounted.store found spilled)).mono
    (fun taken between inStore => ⟨fun table _ => ?_, fun _ => ?_⟩) fun _ _ after => after.unstore
  · exact (keeps_emit table between inStore.unstore).mono
      (fun _ _ after => Partitioned.keeps_complete _ after) fun _ _ after => after
  · exact (Partitioned.keeps_repartition _ inStore).mono (fun _ _ after _ _ => after.unstore)
      fun _ _ after => after.unstore

theorem keeps_finishInMemory
    (spilled partitions : List Nat) :
    (finishInMemory spilled partitions).Keeps fun aggregation =>
      aggregation.input.Accounted others stored inHand := by
  induction partitions generalizing spilled with
  | nil => exact keeps_pure _
  | cons partition rest inductionHypothesis =>
      intro aggregation accounted
      refine (ends_bind _ _).mpr ((ends_onInput _).mpr ?_)
      refine Partitioned.ends_record (fun record found => ?_) fun _ => accounted
      rw [ends_ite]
      refine ⟨fun _ => ?_, fun _ => ?_⟩
      · exact ((keeps_onInput Partitioned.keeps_complete).bind fun _ =>
          inductionHypothesis spilled) aggregation accounted
      rw [ends_ite]
      refine ⟨fun _ => inductionHypothesis _ aggregation accounted, fun inMemory => ?_⟩
      rw [ends_bind]
      refine (ends_aggregateInMemory accounted found inMemory).mono
        (fun output between accounted => ?_) fun _ _ after => after
      exact ((inductionHypothesis spilled).bind fun _ => keeps_pure _) between accounted

theorem keeps_finish :
    finish.Keeps fun aggregation => aggregation.input.Accounted others stored inHand :=
  keeps_get.bind fun _ => (keeps_finishInMemory _ _).bind fun _ =>
    (keeps_drain keeps_visit _ _).bind fun _ => keeps_pure _

end Aggregation

/-! ## Operators between requests -/

/-- What can be asked of a join. -/
inductive Join.Request where
  | chargeTo (parent : Nat)
  | addBuildChunk (chunk : Chunk)
  | finishBuild
  | probeChunk (chunk : Chunk)
  | finishProbe

/-- The step that meets the request; what it yields is dropped. -/
def Join.Request.step : Join.Request → Step Join Unit
  | chargeTo parent => onInput (Partitioned.chargeTo parent)
  | addBuildChunk chunk => Join.addBuildChunk chunk
  | finishBuild => do let _ ← Join.finishBuild
  | probeChunk chunk => do let _ ← Join.probeChunk chunk
  | finishProbe => do let _ ← Join.finishProbe

/-- What can be asked of an aggregation. -/
inductive Aggregation.Request where
  | chargeTo (parent : Nat)
  | addChunk (chunk : Chunk)
  | finish

/-- The step that meets the request; what it yields is dropped. -/
def Aggregation.Request.step : Aggregation.Request → Step Aggregation Unit
  | chargeTo parent => onInput (Partitioned.chargeTo parent)
  | addChunk chunk => Aggregation.addChunk chunk
  | finish => do let _ ← Aggregation.finish

/-- An aggregation is made of new input. -/
theorem Aggregation.exists_input_of_make
    {params : Params}
    {schema : Schema}
    {key : String}
    {aggregates : List Aggregate}
    {area : SpillArea}
    {ledger : Ledger}
    {new : Aggregation}
    (made : make params schema key aggregates area ledger = .ok new) :
    ∃ input, Partitioned.make "hash aggregation" params schema key none area ledger = .ok input ∧
      new.input = input := by
  unfold make at made
  obtain ⟨_, _, made⟩ := bind_eq_ok_iff.mp made
  split at made
  · exact absurd made throw_ne_ok
  · obtain ⟨input, makes, yields⟩ := bind_eq_ok_iff.mp made
    cases yields
    exact ⟨input, makes, rfl⟩

theorem Join.Request.keeps (request : Join.Request) :
    request.step.Keeps fun join => join.input.Accounted others stored inHand := by
  cases request with
  | chargeTo parent => exact keeps_onInput (Partitioned.keeps_chargeTo parent)
  | addBuildChunk chunk => exact keeps_addBuildChunk chunk
  | finishBuild => exact keeps_finishBuild.bind fun _ => keeps_pure _
  | probeChunk chunk => exact (keeps_probeChunk chunk).bind fun _ => keeps_pure _
  | finishProbe => exact keeps_finishProbe.bind fun _ => keeps_pure _

theorem Aggregation.Request.keeps (request : Aggregation.Request) :
    request.step.Keeps fun aggregation => aggregation.input.Accounted others stored inHand := by
  cases request with
  | chargeTo parent => exact keeps_onInput (Partitioned.keeps_chargeTo parent)
  | addChunk chunk => exact keeps_addChunk chunk
  | finish => exact keeps_finish.bind fun _ => keeps_pure _

/-- A join or an aggregation. -/
inductive Operator where
  | join (state : Join)
  | aggregation (state : Aggregation)

namespace Operator

/-- The partitioned input of the operator. -/
def input : Operator → Partitioned
  | .join state => state.input
  | .aggregation state => state.input

/-- The operator with other partitioned input. -/
def withInput : Operator → Partitioned → Operator
  | .join state, input => .join { state with input }
  | .aggregation state, input => .aggregation { state with input }

@[simp] theorem input_withInput (operator : Operator) (input : Partitioned) :
    (operator.withInput input).input = input := by
  cases operator <;> rfl

/-- An operator after requests were made of it, each of them met or not, with what the accounts of its
ledger hold for others by then. Between requests the store may change in any way, somebody may cancel
the query, and others may use their accounts. -/
inductive Reached : (Nat → Nat) → Operator → Prop where
  | newJoin
      {params : Params}
      {buildSchema : Schema}
      {buildKey : String}
      {probe : ProbeSide}
      {specs : List FilterSpec}
      {area : SpillArea}
      {ledger : Ledger}
      {new : Join}
      (made : Join.make params buildSchema buildKey probe specs area ledger = .ok new) :
      Reached ledger.used (.join new)
  | newAggregation
      {params : Params}
      {schema : Schema}
      {key : String}
      {aggregates : List Aggregate}
      {area : SpillArea}
      {ledger : Ledger}
      {new : Aggregation}
      (made : Aggregation.make params schema key aggregates area ledger = .ok new) :
      Reached ledger.used (.aggregation new)
  | askJoin
      {others : Nat → Nat}
      {before : Join}
      (reached : Reached others (.join before))
      (request : Join.Request) :
      Reached others (.join (request.step.outcome before).2)
  | askAggregation
      {others : Nat → Nat}
      {before : Aggregation}
      (reached : Reached others (.aggregation before))
      (request : Aggregation.Request) :
      Reached others (.aggregation (request.step.outcome before).2)
  | surroundings
      {others : Nat → Nat}
      {operator : Operator}
      (reached : Reached others operator)
      (area : SpillArea)
      (cancelledAt : Arena → SpillArea → Bool) :
      Reached others (operator.withInput { operator.input with area, cancelledAt })
  | elsewhere
      {others nextOthers : Nat → Nat}
      {operator : Operator}
      {ledger : Ledger}
      (reached : Reached others operator)
      (elsewhere : Ledger.Elsewhere operator.input.account operator.input.ledger others ledger
        nextOthers) :
      Reached nextOthers (operator.withInput { operator.input with ledger })

theorem Reached.accounted
    {operator : Operator}
    (reached : Reached others operator) :
    operator.input.Accounted others [] 0 := by
  induction reached with
  | newJoin made =>
      obtain ⟨input, makes, yields⟩ := bind_eq_ok_iff.mp made
      cases yields
      exact Partitioned.accounted_of_make makes
  | newAggregation made =>
      obtain ⟨input, makes, rfl⟩ := Aggregation.exists_input_of_make made
      exact Partitioned.accounted_of_make makes
  | askJoin _ request inductionHypothesis => exact request.keeps.outcome inductionHypothesis
  | askAggregation _ request inductionHypothesis => exact request.keeps.outcome inductionHypothesis
  | surroundings _ area cancelledAt inductionHypothesis =>
      rw [input_withInput]
      exact inductionHypothesis.transfer rfl rfl rfl rfl
  | elsewhere _ elsewhere inductionHypothesis =>
      rw [input_withInput]
      exact { inductionHypothesis with books := inductionHypothesis.books.elsewhere elsewhere }

/-- Between requests, unless an account was filled up to what can be counted, the account of an operator
holds the bytes of its build sides in memory and of its loaded partitions, to the byte. Every account
above it holds as many beside what it holds for others, and no other account holds any of them. When
they are given back, in part or all of them, no account cuts the release short. -/
theorem used_eq_heldBytes_of_reached
    {operator : Operator}
    (reached : Reached others operator)
    (unfilled : operator.input.ledger.Unfilled) :
    let input := operator.input
    input.ledger.used input.account = input.heldBytes ∧
      (∀ place ∈ input.ledger.chain input.account, place ≠ input.account →
        input.ledger.used place = others place + input.heldBytes) ∧
      (∀ place ∉ input.ledger.chain input.account, input.ledger.used place = others place) ∧
      ∀ bytes ≤ input.heldBytes, ∀ place ∈ input.ledger.chain input.account,
        (input.ledger.release input.account bytes).used place + bytes = input.ledger.used place := by
  intro input
  have books := reached.accounted.books
  have used := books.used unfilled
  refine ⟨?_, fun place above apart => ?_, fun place outside => ?_, fun bytes within place member => ?_⟩
  · rw [used, books.own unfilled, if_pos (Ledger.mem_chain_self _ _)]
    exact Nat.zero_add _
  · rw [used, if_pos above]
    rfl
  · rw [used, if_neg outside]
    rfl
  · have released := Ledger.used_release books.known (books.covers unfilled within) place
    rwa [if_pos member] at released

namespace Sample

/-- One integer column. -/
def probe : ProbeSide :=
  ⟨[{ name := "k", type := .int64 }], "k"⟩

/-- One row. -/
def chunk : Chunk :=
  ⟨probe.schema, [[.int 7]], by decide⟩

/-- A ledger with the account of a query. -/
def ledger : Ledger :=
  (({} : Ledger).openAccount "query" 4096).2

/-- A store that cannot be written. -/
def area : SpillArea :=
  { store := { outageAt := fun _ => { writes := true } } }

/-- A join with room for one row. -/
def new : Join :=
  valueOf (Join.make ⟨2, 10, 3⟩ probe.schema probe.key probe [] area ledger) (by decide +kernel)

/-- The join after it was charged to the query. -/
def charged : Join :=
  ((Join.Request.chargeTo 0).step.outcome new).2

/-- The join after others charged the query. -/
def shared : Join :=
  { charged with input := { charged.input with ledger := charged.input.ledger.reserve 0 100 } }

/-- The join after a row was accepted. -/
def filled : Join :=
  ((Join.Request.addBuildChunk chunk).step.outcome shared).2

/-- The join after no room could be made for another row. -/
def refused : Join :=
  ((Join.Request.addBuildChunk chunk).step.outcome filled).2

end Sample

/-- When the store refuses the rows that are to make room, the row in memory stays charged to the join
and to its query, and the row that was refused is not. -/
theorem used_eq_heldBytes_of_refused :
    ((Join.Request.addBuildChunk Sample.chunk).step.outcome Sample.filled).1.isOk = false ∧
      Sample.refused.input.ledger.Unfilled ∧
      Sample.refused.input.ledger.used Sample.refused.input.account = 8 ∧
      Sample.refused.input.ledger.used 0 = 108 := by
  have made : Join.make ⟨2, 10, 3⟩ Sample.probe.schema Sample.probe.key Sample.probe [] Sample.area
      Sample.ledger = .ok Sample.new :=
    eq_ok_valueOf _ _
  have charged := (Reached.newJoin made).askJoin (.chargeTo 0)
  have shared := charged.elsewhere
    (.reserves (show 0 < Sample.charged.input.ledger.accounts.size by decide +kernel)
      (show Sample.charged.input.account ∉ Sample.charged.input.ledger.chain 0 by decide +kernel) 100)
  have filled := Reached.askJoin (show Reached _ (.join Sample.shared) from shared)
    (.addBuildChunk Sample.chunk)
  have refused := filled.askJoin (.addBuildChunk Sample.chunk)
  have unfilled : Sample.refused.input.ledger.Unfilled := by decide +kernel
  have held : Sample.refused.input.heldBytes = 8 := by decide +kernel
  obtain ⟨own, above, _⟩ := used_eq_heldBytes_of_reached refused unfilled
  refine ⟨by decide +kernel, unfilled, own.trans held, ?_⟩
  refine (above 0 (by decide +kernel) (by decide +kernel)).trans ?_
  decide +kernel

end Operator

end Spillway
