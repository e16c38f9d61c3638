import Spillway.Proofs.Operator.Blocks
import Spillway.Proofs.Operator.Requests

/-!
# Giving everything back

The blocks that an operator has in the store are those that its partitions list, whichever requests were
made of it and wherever they failed, as long as blocks can be deleted. Once its end was reached, and no
request failed on the way, no partition has rows or blocks, the account of the operator holds nothing,
and the other accounts hold what they hold for others.
-/

namespace Spillway

open Step

variable {input : Partitioned} {rest : String → Prop} {met : Bool}

/-! ## When nothing remains -/

namespace Partitioned

theorem Remaining.done
    {partition : Nat}
    {record : PartitionRecord}
    (remaining : input.Remaining [])
    (found : input.arena.records[partition]? = some record) :
    record.Done :=
  (remaining.records partition record found).resolve_right fun left => by simp at left

theorem Remaining.heldBytes_eq (remaining : input.Remaining []) : input.heldBytes = 0 :=
  heldBytes_eq_zero remaining.pinned fun _ _ found => (remaining.done found).build.memoryBytes_eq

theorem Remaining.not_lists
    (remaining : input.Remaining [])
    (path : String) :
    ¬ input.Lists path := by
  rintro ⟨⟨side, partition⟩, part, found, member⟩
  obtain ⟨record, there, same⟩ := Option.bind_eq_some_iff.mp found
  have done := remaining.done there
  have cleared : part.Cleared := by
    cases side with
    | build => exact Option.some.inj same ▸ done.build
    | probe => exact done.probe part same
  simp [cleared.paths_eq] at member

end Partitioned

/-! ## Operators and what surrounds them -/

/-- Whether the request is one that more rows may follow. -/
def Aggregation.Request.continues : Aggregation.Request → Bool
  | .finish => false
  | _ => true

namespace Operator

/-- The tables that the operator has in memory. -/
def tables : Operator → List (Nat × JoinTable)
  | .join state => state.tables
  | .aggregation _ => []

/-- An operator after requests were made of it, with the paths at which the store has blocks for others by
then, what the accounts of its ledger hold for others by then, and whether all requests were met, where
no aggregation was asked for its end yet. Blocks can be deleted. Between requests others may use their
accounts and their blocks, calls of the store may begin to fail or to do damage, and somebody may cancel
the query. -/
inductive Ran : (String → Prop) → (Nat → Nat) → Bool → Operator → Prop where
  | newJoin
      {params : Params}
      {buildSchema : Schema}
      {buildKey : String}
      {probe : ProbeSide}
      {specs : List FilterSpec}
      {area : SpillArea}
      {ledger : Ledger}
      {new : Join}
      (made : Join.make params buildSchema buildKey probe specs area ledger = .ok new)
      (deletes : area.store.Deletes) :
      Ran (fun path => area.store.block? path ≠ none) ledger.used true (.join new)
  | newAggregation
      {params : Params}
      {schema : Schema}
      {key : String}
      {aggregates : List Aggregate}
      {area : SpillArea}
      {ledger : Ledger}
      {new : Aggregation}
      (made : Aggregation.make params schema key aggregates area ledger = .ok new)
      (deletes : area.store.Deletes) :
      Ran (fun path => area.store.block? path ≠ none) ledger.used true (.aggregation new)
  | askJoin
      {rest : String → Prop}
      {others : Nat → Nat}
      {met : Bool}
      {before : Join}
      (ran : Ran rest others met (.join before))
      (request : Join.Request) :
      Ran rest others (met && (request.step.outcome before).1.isOk)
        (.join (request.step.outcome before).2)
  | askAggregation
      {rest : String → Prop}
      {others : Nat → Nat}
      {met : Bool}
      {before : Aggregation}
      (ran : Ran rest others met (.aggregation before))
      (request : Aggregation.Request) :
      Ran rest others (met && (request.step.outcome before).1.isOk && request.continues)
        (.aggregation (request.step.outcome before).2)
  | surroundings
      {rest nextRest : String → Prop}
      {others : Nat → Nat}
      {met : Bool}
      {operator : Operator}
      (ran : Ran rest others met operator)
      (area : SpillArea)
      (cancelledAt : Arena → SpillArea → Bool)
      (deletes : area.store.Deletes)
      (held : ∀ path, area.store.block? path ≠ none ↔
        nextRest path ∨ operator.input.area.store.block? path ≠ none ∧ ¬ rest path)
      (apart : ∀ path, operator.input.area.store.block? path ≠ none → nextRest path → rest path) :
      Ran nextRest others met (operator.withInput { operator.input with area, cancelledAt })
  | elsewhere
      {rest : String → Prop}
      {others nextOthers : Nat → Nat}
      {met : Bool}
      {operator : Operator}
      {ledger : Ledger}
      (ran : Ran rest others met operator)
      (elsewhere : Ledger.Elsewhere operator.input.account operator.input.ledger others ledger
        nextOthers) :
      Ran rest nextOthers met (operator.withInput { operator.input with ledger })

/-- The operator is asked for its end and reaches it. -/
inductive Finishes : Operator → List Chunk → Operator → Prop where
  | join
      {before after : Join}
      {output : List Chunk}
      (succeeds : Join.finishProbe.Succeeds before output after) :
      Finishes (.join before) output (.join after)
  | aggregation
      {before after : Aggregation}
      {output : List Chunk}
      (succeeds : Aggregation.finish.Succeeds before output after) :
      Finishes (.aggregation before) output (.aggregation after)

/-- The operator has given back all that it had: its partitions are closed and have neither rows nor
blocks, it has no tables, its account holds nothing, and what the other accounts hold and what is in the
store is for others. Of the other accounts this is said unless one of the ledger was filled up. -/
structure GivenBack
    (rest : String → Prop)
    (others : Nat → Nat)
    (operator : Operator) : Prop where
  done : ∀ (partition : Nat) (record : PartitionRecord),
    operator.input.arena.records[partition]? = some record → record.Done
  tables : operator.tables = []
  own : operator.input.ledger.used operator.input.account = 0
  used : operator.input.ledger.Unfilled → ∀ place, operator.input.ledger.used place = others place
  held : ∀ path, operator.input.area.store.block? path ≠ none ↔ rest path

variable {others : Nat → Nat} {operator : Operator}

theorem GivenBack.of_remaining
    (remaining : operator.input.Remaining [])
    (tables : operator.tables = [])
    (accounted : operator.input.Accounted others [] 0)
    (tidy : operator.input.Tidy rest) :
    operator.GivenBack rest others := by
  have books := accounted.books
  rw [remaining.heldBytes_eq] at books
  refine ⟨fun partition record found => remaining.done found, tables, ?_, fun unfilled place => ?_,
    fun path => ?_⟩
  · exact Nat.le_zero.mp books.within
  · rw [books.used unfilled]
    simp
  · rw [tidy.held]
    exact or_iff_left (remaining.not_lists path)

end Operator

/-! ## New input -/

namespace Partitioned

section New

variable {operator : String} {params : Params} {buildSchema : Schema} {buildKey : String}
  {probeSide : Option ProbeSide} {area : SpillArea} {ledger : Ledger}

theorem tidy_of_make
    (made : make operator params buildSchema buildKey probeSide area ledger = .ok input) :
    input.area = area ∧ input.Tidy fun path => area.store.block? path ≠ none := by
  obtain ⟨valid, start, new, rfl⟩ := exists_bare_of_make made
  have empty : ∀ slot partition, { start with arena := { records :=
      (start.roots.map (start.newRecord none 0)).toArray } : Partitioned }.arena.part? slot =
        some partition → partition.paths = [] := by
    rintro ⟨side, root⟩ partition found
    obtain ⟨record, there, same⟩ := Option.bind_eq_some_iff.mp found
    dsimp only at there
    rw [getElem?_newRoots] at there
    split at there
    · cases there
      exact paths_newRecord same
    · cases there
  have nothing : ∀ slot partition, { start with arena := { records :=
      (start.roots.map (start.newRecord none 0)).toArray } : Partitioned }.arena.part? slot =
        some partition → ∀ path, path ∉ partition.paths := by
    intro slot partition found path
    simp [empty slot partition found]
  have same : start.area = area := by rw [new]; rfl
  refine ⟨same, fun path => ?_, fun path listed => ?_, fun _ _ partition _ found _ path member => ?_,
    fun slot partition found => ?_⟩
  · rw [same]
    refine (or_iff_left ?_).symm
    rintro ⟨slot, partition, found, member⟩
    exact nothing slot partition found path member
  · obtain ⟨slot, partition, found, member⟩ := listed
    exact absurd member (nothing slot partition found path)
  · exact absurd member (nothing _ partition found path)
  · rw [empty slot partition found]
    exact List.nodup_nil

theorem collecting_of_make
    (made : make operator params buildSchema buildKey probeSide area ledger = .ok input) :
    input.Collecting := by
  obtain ⟨valid, start, new, rfl⟩ := exists_bare_of_make made
  refine ⟨fun root record found => ?_, ?_, fun root record found => ?_⟩
  · dsimp only at found
    rw [getElem?_newRoots] at found
    split at found
    · cases found
      exact fun _ => rfl
    · cases found
  · rw [new]
    rfl
  · dsimp only at found
    rw [getElem?_newRoots] at found
    split at found
    case isTrue known =>
        cases found
        exact ⟨List.mem_range.mpr known, rfl⟩
    case isFalse => cases found

end New

/-! ## What requests keep -/

/-- Blocks can be deleted, and those of the operator are the ones that its partitions list. -/
def Sorted (rest : String → Prop) (input : Partitioned) : Prop :=
  input.area.store.Deletes ∧ input.Tidy rest

theorem Evolves.sorted
    {targets : Nat → Prop}
    {after : Partitioned}
    (evolves : Evolves targets met input after)
    (sorted : input.Sorted rest) :
    after.Sorted rest :=
  ⟨evolves.later.deletes sorted.1, evolves.tidy sorted.1 sorted.2⟩

/-- What others do with their blocks leaves those of the operator listed. -/
theorem Tidy.surround
    {nextRest : String → Prop}
    {area : SpillArea}
    {cancelledAt : Arena → SpillArea → Bool}
    (tidy : input.Tidy rest)
    (held : ∀ path, area.store.block? path ≠ none ↔
      nextRest path ∨ input.area.store.block? path ≠ none ∧ ¬ rest path)
    (apart : ∀ path, input.area.store.block? path ≠ none → nextRest path → rest path) :
    { input with area, cancelledAt }.Tidy nextRest where
  held path := by
    have own : input.area.store.block? path ≠ none ∧ ¬ rest path ↔ input.Lists path := by
      rw [tidy.held path]
      exact ⟨fun mine => mine.1.resolve_left mine.2, fun lists => ⟨.inr lists, tidy.apart path lists⟩⟩
    exact (held path).trans (or_congr_right own)
  apart path lists others :=
    tidy.apart path lists (apart path ((tidy.held path).mpr (.inr lists)) others)
  unique := tidy.unique
  distinct := tidy.distinct

theorem Collecting.surround
    {area : SpillArea}
    {cancelledAt : Arena → SpillArea → Bool}
    {ledger : Ledger}
    {account : Nat}
    (collecting : input.Collecting) :
    { input with area, cancelledAt, ledger, account }.Collecting :=
  ⟨collecting.counts, collecting.pinned, collecting.roots⟩

/-- Only the ledger and the account are changed. -/
theorem ends_chargeTo
    (parent : Nat)
    (input : Partitioned) :
    (chargeTo parent).Ends input
      (fun _ after => ∃ ledger account, after = { input with ledger, account })
      fun _ after => after = input := by
  refine (ends_bind _ _).mpr (ends_get.mpr ?_)
  dsimp only
  split
  · rfl
  · exact ⟨_, _, rfl⟩

theorem sorted_chargeTo (parent : Nat) : (chargeTo parent).Keeps (Sorted rest) := by
  intro input sorted
  refine (ends_chargeTo parent input).mono (fun _ after charged => ?_) fun _ after same => ?_
  · obtain ⟨ledger, account, rfl⟩ := charged
    exact ⟨sorted.1, sorted.2.transfer rfl (fun _ _ => .inl) fun _ _ => id⟩
  · exact same ▸ sorted

theorem collecting_chargeTo (parent : Nat) : (chargeTo parent).Keeps Collecting := by
  intro input collecting
  refine (ends_chargeTo parent input).mono (fun _ after charged => ?_) fun _ after same => ?_
  · obtain ⟨ledger, account, rfl⟩ := charged
    exact collecting.surround
  · exact same ▸ collecting

end Partitioned

namespace Join

theorem Takes.sorted
    {before after : Join}
    (takes : Takes met before after)
    (sorted : before.input.Sorted rest) :
    after.input.Sorted rest :=
  takes.1.evolves.sorted sorted

/-- Whether it is met or not, a request leaves the blocks of the operator listed. -/
theorem Request.sorted (request : Request) :
    request.step.Keeps fun join => join.input.Sorted rest := by
  cases request with
  | chargeTo parent => exact keeps_onInput (Partitioned.sorted_chargeTo parent)
  | addBuildChunk chunk => exact (takes_addBuildChunk chunk).keeps fun _ _ _ => Takes.sorted
  | finishBuild =>
      refine Keeps.bind (fun join sorted => ?_) fun _ => keeps_pure _
      exact (ends_finishBuild join).mono (fun _ _ ended => ended.1.evolves.sorted sorted)
        fun _ _ takes => takes.sorted sorted
  | probeChunk chunk =>
      exact ((takes_probeChunk chunk).keeps fun _ _ _ => Takes.sorted).bind fun _ => keeps_pure _
  | finishProbe =>
      refine Keeps.bind (fun join sorted => ?_) fun _ => keeps_pure _
      exact (ends_finishProbe join).mono (fun _ _ ended => ended.1.sorted sorted)
        fun _ _ evolves => evolves.sorted sorted

/-- Until the join is finished its partitions are roots that accept rows. -/
def Unended (join : Join) : Prop :=
  join.phase ≠ .finished → join.input.Collecting

theorem Takes.unended
    {before after : Join}
    (takes : Takes true before after)
    (unended : before.Unended) :
    after.Unended :=
  fun unfinished => takes.1.collecting (unended (takes.2 ▸ unfinished))

/-- A request that is met closes partitions only if it finishes the join. -/
theorem Request.unended
    {join : Join}
    (unended : join.Unended)
    (request : Request) :
    request.step.Ends join (fun _ after => after.Unended) fun _ _ => True := by
  cases request with
  | chargeTo parent =>
      refine (ends_onInput _).mpr ?_
      by_cases ended : join.phase = .finished
      · exact .of_forall (fun _ _ unfinished => absurd ended unfinished) fun _ _ => trivial
      · exact (Partitioned.collecting_chargeTo parent join.input (unended ended)).mono
          (fun _ _ collecting _ => collecting) fun _ _ _ => trivial
  | addBuildChunk chunk =>
      exact (takes_addBuildChunk chunk join).mono (fun _ _ takes => takes.unended unended)
        fun _ _ _ => trivial
  | finishBuild =>
      refine (ends_bind _ _).mpr ((ends_finishBuild join).mono (fun _ after ended => ?_)
        fun _ _ _ => trivial)
      obtain ⟨feeds, building, _⟩ := ended
      exact fun _ => feeds.collecting (unended (by simp [building]))
  | probeChunk chunk =>
      exact (ends_bind _ _).mpr ((takes_probeChunk chunk join).mono
        (fun _ _ takes => takes.unended unended) fun _ _ _ => trivial)
  | finishProbe =>
      refine (ends_bind _ _).mpr ((ends_finishProbe join).mono (fun _ after ended => ?_)
        fun _ _ _ => trivial)
      exact fun unfinished => absurd ended.2.2.1 unfinished

end Join

namespace Aggregation

/-- Whether it is met or not, a request leaves the blocks of the operator listed. -/
theorem Request.sorted (request : Request) :
    request.step.Keeps fun aggregation => aggregation.input.Sorted rest := by
  cases request with
  | chargeTo parent => exact keeps_onInput (Partitioned.sorted_chargeTo parent)
  | addChunk chunk =>
      exact (follows_addChunk chunk).keeps fun _ _ _ feeds =>
        Partitioned.Evolves.sorted (Partitioned.Feeds.evolves feeds)
  | finish =>
      refine Keeps.bind (fun aggregation sorted => ?_) fun _ => keeps_pure _
      exact (ends_finish aggregation).mono (fun _ _ ended => ended.1.sorted sorted)
        fun _ _ evolves => evolves.sorted sorted

/-- A request that is met and after which more rows may follow closes no partition. -/
theorem Request.collecting
    {aggregation : Aggregation}
    (collecting : aggregation.input.Collecting)
    (request : Request)
    (continues : request.continues = true) :
    request.step.Ends aggregation (fun _ after => after.input.Collecting) fun _ _ => True := by
  cases request with
  | chargeTo parent =>
      exact (keeps_onInput (Partitioned.collecting_chargeTo parent) aggregation collecting).mono
        (fun _ _ => id) fun _ _ _ => trivial
  | addChunk chunk =>
      exact (follows_addChunk chunk aggregation).mono
        (fun _ _ feeds => Partitioned.Feeds.collecting feeds collecting) fun _ _ _ => trivial
  | finish => cases continues

end Aggregation

/-! ## Runs -/

namespace Operator

variable {others : Nat → Nat} {operator : Operator}

theorem Ran.reached (ran : Ran rest others met operator) : Reached others operator := by
  induction ran with
  | newJoin made _ => exact .newJoin made
  | newAggregation made _ => exact .newAggregation made
  | askJoin _ request reached => exact .askJoin reached request
  | askAggregation _ request reached => exact .askAggregation reached request
  | surroundings _ area cancelledAt _ _ _ reached => exact .surroundings reached area cancelledAt
  | elsewhere _ elsewhere reached => exact .elsewhere reached elsewhere

/-- The blocks of an operator that was made in an area are those that its partitions list. -/
theorem Ran.sorted (ran : Ran rest others met operator) : operator.input.Sorted rest := by
  induction ran with
  | newJoin made deletes =>
      obtain ⟨input, makes, yields⟩ := bind_eq_ok_iff.mp made
      cases yields
      obtain ⟨same, tidy⟩ := Partitioned.tidy_of_make makes
      exact ⟨same ▸ deletes, tidy⟩
  | newAggregation made deletes =>
      obtain ⟨input, makes, rfl⟩ := Aggregation.exists_input_of_make made
      obtain ⟨same, tidy⟩ := Partitioned.tidy_of_make makes
      exact ⟨same ▸ deletes, tidy⟩
  | askJoin _ request sorted => exact request.sorted.outcome sorted
  | askAggregation _ request sorted => exact request.sorted.outcome sorted
  | surroundings _ area cancelledAt deletes held apart sorted =>
      rw [input_withInput]
      exact ⟨deletes, sorted.2.surround held apart⟩
  | elsewhere _ _ sorted =>
      rw [input_withInput]
      exact ⟨sorted.1, sorted.2.transfer rfl (fun _ _ => .inl) fun _ _ => id⟩

/-- No partition was closed yet, unless the join is finished. -/
def Unended : Operator → Prop
  | .join state => state.Unended
  | .aggregation state => state.input.Collecting

theorem Ran.unended
    (ran : Ran rest others met operator)
    (all : met = true) :
    operator.Unended := by
  induction ran with
  | newJoin made _ =>
      obtain ⟨input, makes, yields⟩ := bind_eq_ok_iff.mp made
      cases yields
      exact fun _ => Partitioned.collecting_of_make makes
  | newAggregation made _ =>
      obtain ⟨input, makes, rfl⟩ := Aggregation.exists_input_of_make made
      exact Partitioned.collecting_of_make makes
  | askJoin _ request unended =>
      rw [Bool.and_eq_true] at all
      exact (request.unended (unended all.1)).of_succeeds (succeeds_of_isOk _ _ all.2)
  | askAggregation _ request unended =>
      rw [Bool.and_eq_true, Bool.and_eq_true] at all
      exact (request.collecting (unended all.1.1) all.2).of_succeeds (succeeds_of_isOk _ _ all.1.2)
  | @surroundings _ _ _ _ operator _ area cancelledAt _ _ _ unended =>
      cases operator with
      | join state => exact fun unfinished => (unended all unfinished).surround
      | aggregation state => exact (unended all).surround
  | @elsewhere _ _ _ _ operator ledger _ _ unended =>
      cases operator with
      | join state => exact fun unfinished => (unended all unfinished).surround
      | aggregation state => exact (unended all).surround

/-- Whatever was asked of an operator, and whatever failed on the way, it has those blocks in the store
that its partitions list, each listed once by one side of one partition. Once it reaches its end, and all
requests before were met, it has given back everything. -/
theorem givenBack_of_ran (ran : Ran rest others met operator) :
    operator.input.Tidy rest ∧
      (met = true → ∀ output after, operator.Finishes output after → after.GivenBack rest others) := by
  refine ⟨ran.sorted.2, fun all output after finishes => ?_⟩
  have sorted := ran.sorted
  have accounted := ran.reached.accounted
  have unended := ran.unended all
  cases finishes with
  | @join before after output succeeds =>
      obtain ⟨evolves, probing, _, tables, closes⟩ := (Join.ends_finishProbe before).of_succeeds succeeds
      have collecting : before.input.Collecting := unended (by simp [probing])
      exact .of_remaining (closes collecting.remaining) tables
        ((Join.keeps_finishProbe before accounted).of_succeeds succeeds) (evolves.sorted sorted).2
  | @aggregation before after output succeeds =>
      obtain ⟨evolves, closes⟩ := (Aggregation.ends_finish before).of_succeeds succeeds
      exact .of_remaining (closes (Partitioned.Collecting.remaining unended)) rfl
        ((Aggregation.keeps_finish before accounted).of_succeeds succeeds) (evolves.sorted sorted).2

namespace Sample

/-- Two rows of one group. -/
def pair : Chunk :=
  ⟨probe.schema, [[.int 1], [.int 1]], by decide⟩

/-- An area in which every chunk makes a block. -/
def fine : SpillArea :=
  { spiller := { blockSize := 1 } }

/-- An aggregation with room for one row. -/
def counting : Aggregation :=
  valueOf (Aggregation.make ⟨2, 8, 3⟩ probe.schema probe.key [.countStar] fine ledger)
    (by decide +kernel)

/-- The aggregation after two rows were accepted. -/
def counted : Aggregation :=
  ((Aggregation.Request.addChunk pair).step.outcome counting).2

/-- The aggregation after its end. -/
def ended : Aggregation :=
  (Aggregation.finish.outcome counted).2

/-- The aggregation after two more rows were accepted. -/
def resumed : Aggregation :=
  ((Aggregation.addChunk pair).outcome ended).2

/-- A ledger whose account of a query is filled up. -/
def crowded : Ledger :=
  ledger.reserve 0 Account.capacity

/-- A join with room for one row. -/
def tight : Join :=
  valueOf (Join.make ⟨2, 8, 3⟩ probe.schema probe.key probe [] {} crowded) (by decide +kernel)

/-- The join after it was charged to the query. -/
def squeezed : Join :=
  ((Join.Request.chargeTo 0).step.outcome tight).2

/-- The join after a row was accepted on either side. -/
def matched : Join :=
  ((Join.Request.probeChunk chunk).step.outcome ((Join.Request.finishBuild).step.outcome
    ((Join.Request.addBuildChunk chunk).step.outcome squeezed).2).2).2

end Sample

/-- Rows that were written to the store are aggregated, and their block is deleted. -/
theorem givenBack_of_counted :
    Sample.counted.input.area.store.blocks.length = 1 ∧
      (Operator.aggregation Sample.ended).GivenBack (fun path => Sample.fine.store.block? path ≠ none)
        Sample.ledger.used := by
  have made : Aggregation.make ⟨2, 8, 3⟩ Sample.probe.schema Sample.probe.key [.countStar] Sample.fine
      Sample.ledger = .ok Sample.counting :=
    eq_ok_valueOf _ _
  have counted := (Ran.newAggregation made fun _ => rfl).askAggregation (.addChunk Sample.pair)
  have ends : (Operator.aggregation Sample.counted).Finishes _ (.aggregation Sample.ended) :=
    .aggregation (succeeds_of_isOk _ _ (by decide +kernel))
  exact ⟨by decide +kernel, (givenBack_of_ran counted).2 (by decide +kernel) _ _ ends⟩

/-- Charges are counted up to the largest number, so what is given back to an account that was filled up
is more than it was charged. And rows that are accepted after the end of an aggregation are written to
the store, but partitions are not closed a second time. -/
theorem not_givenBack :
    (∃ met output after, Ran (fun path => ({} : Store).block? path ≠ none) Sample.crowded.used met
        (.join Sample.matched) ∧ met = true ∧ Join.finishProbe.Succeeds Sample.matched output after ∧
      after.input.ledger.used 0 ≠ Sample.crowded.used 0) ∧
      (Aggregation.addChunk Sample.pair).Succeeds Sample.counting () Sample.counted ∧
      (∃ output, Aggregation.finish.Succeeds Sample.counted output Sample.ended) ∧
      (Aggregation.addChunk Sample.pair).Succeeds Sample.ended () Sample.resumed ∧
      ∃ output after, Aggregation.finish.Succeeds Sample.resumed output after ∧
        after.input.area.store.blocks.length = 1 := by
  have made : Join.make ⟨2, 8, 3⟩ Sample.probe.schema Sample.probe.key Sample.probe [] {}
      Sample.crowded = .ok Sample.tight :=
    eq_ok_valueOf _ _
  have matched := (((Ran.newJoin made fun _ => rfl).askJoin (.chargeTo 0)).askJoin
    (.addBuildChunk Sample.chunk)).askJoin .finishBuild |>.askJoin (.probeChunk Sample.chunk)
  have joins : (Join.finishProbe.outcome Sample.matched).1.isOk = true ∧
      (Join.finishProbe.outcome Sample.matched).2.input.ledger.used 0 ≠ Sample.crowded.used 0 := by
    decide +kernel
  have aggregates : ((Aggregation.addChunk Sample.pair).outcome Sample.counting).1.isOk = true ∧
      (Aggregation.finish.outcome Sample.counted).1.isOk = true ∧
      ((Aggregation.addChunk Sample.pair).outcome Sample.ended).1.isOk = true ∧
      (Aggregation.finish.outcome Sample.resumed).1.isOk = true ∧
      (Aggregation.finish.outcome Sample.resumed).2.input.area.store.blocks.length = 1 := by
    decide +kernel
  obtain ⟨first, ended, second, again, left⟩ := aggregates
  exact ⟨⟨_, _, _, matched, by decide +kernel, succeeds_of_isOk _ _ joins.1, joins.2⟩,
    succeeds_of_isOk _ _ first, ⟨_, succeeds_of_isOk _ _ ended⟩, succeeds_of_isOk _ _ second,
    _, _, succeeds_of_isOk _ _ again, left⟩

end Operator
end Spillway
