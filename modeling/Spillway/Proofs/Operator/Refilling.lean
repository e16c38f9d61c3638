import Spillway.Proofs.Operator.Requests
import Spillway.Proofs.Operator.Sparing

/-!
# Aggregations that go on after their end

Nothing keeps an aggregation from taking more rows after it has yielded its groups, and from being ended
again. Its roots are closed by then. One in memory is aggregated like an open one, but one that was ever
spilled keeps new rows in the store, where it is not visited any more. As long as the end finds no root
of this kind with rows, it yields the groups of all rows that were accepted since the one before, and
leaves no rows in the roots.
-/

namespace Spillway

open Step

variable {side : ProbeSide} {aggregates : List Aggregate} {rows : List Row}

namespace Partitioned

instance
    {work : List Nat}
    {input : Partitioned} :
    Decidable (input.Awaits work) :=
  inferInstanceAs <| Decidable <| ∀ partition ∈ work, ∀ record ∈ input.arena.records[partition]?,
    record.build.spilled = true → record.build.isEmpty = false → record.state = .opened

end Partitioned

namespace Aggregation

/-- An aggregation whose roots have the rows that were accepted since its last end, each in the root of
its bucket, and none of whose other partitions is closed and has rows. -/
structure Refilled
    (aggregation : Aggregation)
    (side : ProbeSide)
    (aggregates : List Aggregate)
    (rows : List Row) : Prop where
  asks : aggregation.Asks side aggregates
  known : aggregation.input.params.partitionCount ≤ aggregation.input.arena.size
  stored : ∃ contents, aggregation.input.Holds True contents ∧
    aggregation.input.Cleared aggregation.input.roots contents ∧
    ∀ root ∈ aggregation.input.roots,
      contents (.build, root) = rows.filter fun row => aggregation.input.bucketOf .build 0 row = root

theorem Collecting.refilled
    {aggregation : Aggregation}
    (collecting : aggregation.Collecting True side aggregates rows) :
    aggregation.Refilled side aggregates rows := by
  obtain ⟨asks, contents, rooted⟩ := collecting
  exact ⟨asks, Nat.le_of_eq rooted.size.symm, contents, rooted.holds, rooted.cleared,
    fun root member => rooted.build trivial root (List.mem_range.mp member)⟩

/-- Steps that leave the partitions where they stand, and the rows of the roots to be told, keep an
aggregation refilled. -/
theorem Refilled.transfer
    {aggregation : Aggregation}
    {input : Partitioned}
    {more : List Row}
    {contents : Contents}
    (refilled : aggregation.Refilled side aggregates rows)
    (outline : input.outline = aggregation.input.outline)
    (holds : input.Holds True contents)
    (cleared : aggregation.input.Cleared aggregation.input.roots contents)
    (build : ∀ root ∈ aggregation.input.roots,
      contents (.build, root) = more.filter fun row => aggregation.input.bucketOf .build 0 row = root) :
    Refilled { aggregation with input } side aggregates more := by
  have roots : input.roots = aggregation.input.roots := by
    rw [Partitioned.roots, Partitioned.params_of_outline outline, Partitioned.roots]
  have buckets := Partitioned.bucketOf_of_setting (Partitioned.params_of_outline outline)
    (Partitioned.side?_of_outline outline)
  refine ⟨refilled.asks.transfer (Partitioned.side?_of_outline outline), ?_, contents, holds, ?_, ?_⟩
  · rw [Partitioned.params_of_outline outline, Partitioned.size_of_outline outline]
    exact refilled.known
  · rw [roots, Partitioned.Cleared, Partitioned.place?_of_outline outline]
    exact cleared
  · rw [roots, buckets]
    exact build

/-- A chunk that is accepted adds its rows. -/
theorem Refilled.addChunk
    {before after : Aggregation}
    {chunk : Chunk}
    (refilled : before.Refilled side aggregates rows)
    (succeeds : (addChunk chunk).Succeeds before () after)
    (suits : chunk.Suits True side.schema) :
    after.Refilled side aggregates (rows ++ chunk.rows) := by
  obtain ⟨contents, holds, cleared, build⟩ := refilled.stored
  rw [Aggregation.addChunk, succeeds_onInput_iff] at succeeds
  obtain ⟨input, added, rfl⟩ := succeeds
  obtain ⟨filled, held, deals, fills⟩ := Partitioned.succeeds_addBuildChunk added holds
    (refilled.asks.buildSchema ▸ suits)
  obtain rfl := deals.routed trivial
  refine refilled.transfer fills.outline held (fun partition outside place found closed => ?_)
    fun root member => ?_
  · rw [Contents.receive, if_pos rfl, cleared partition outside place found closed,
      List.nil_append, List.filter_eq_nil_iff]
    intro row _ here
    have here : before.input.bucketOf .build 0 row = partition := by simpa using here
    exact outside (List.mem_range.mpr (here ▸ Partitioned.bucketOf_lt _ _ _ _))
  · rw [Contents.receive, if_pos rfl, build root member, List.filter_append]
    simp only [Option.some.injEq]

/-- A chunk that is refused adds nothing, if the input seats it. -/
theorem Refilled.ends_refused
    {aggregation : Aggregation}
    {chunk : Chunk}
    (refilled : aggregation.Refilled side aggregates rows)
    (fits : chunk.schema = side.schema)
    (seats : aggregation.input.Seats chunk) :
    (Aggregation.addChunk chunk).Ends aggregation (fun _ _ => True)
      fun _ after => after.Refilled side aggregates rows := by
  obtain ⟨contents, holds, cleared, build⟩ := refilled.stored
  rw [Aggregation.addChunk, ends_onInput]
  exact (Partitioned.ends_addBuildChunk_spared holds (fits.trans refilled.asks.buildSchema.symm)
    seats).mono (fun _ _ _ => trivial) fun _ input kept =>
      refilled.transfer kept.2 kept.1 cleared build

/-- The end yields the groups of the rows and leaves none, unless a root is out of its reach. -/
theorem Refilled.finish
    {before after : Aggregation}
    {output : List Chunk}
    (refilled : before.Refilled side aggregates rows)
    (succeeds : (finish).Succeeds before output after)
    (awaits : before.input.Awaits before.input.roots) :
    (output.flatMap Chunk.values).Perm (grouped side aggregates rows) ∧
      after.Refilled side aggregates [] := by
  obtain ⟨contents, holds, cleared, build⟩ := refilled.stored
  obtain ⟨left, asks, lastHolds, lastCleared, grown, emptied, yields⟩ :=
    succeeds_finish succeeds refilled.asks holds awaits cleared refilled.known
  have params : after.input.params = before.input.params :=
    ((ends_finish before).of_succeeds succeeds).1.params_eq
  have roots : after.input.roots = before.input.roots := by
    rw [Partitioned.roots, params, Partitioned.roots]
  constructor
  · refine (yields trivial).trans ((List.Perm.of_eq (List.flatMap_congr fun root member => ?_)).trans
      (refilled.asks.perm_buckets 0 rows []))
    rw [groupsOf, build root member]
    rfl
  · refine ⟨asks, ?_, left, lastHolds, lastCleared.mono (List.nil_subset _), ?_⟩
    · rw [params]
      exact Nat.le_trans refilled.known grown
    · rw [roots]
      exact emptied

/-! ## Runs -/

/-- What becomes of an aggregation that takes chunks and is ended again and again: for each end the
chunks that were accepted since the one before, with the output, and the chunks that were accepted since
the last one. There are numbers for the rows of a chunk that is accepted, the input seats a chunk that is
refused, and an end finds no root out of its reach. -/
inductive Refills
    (side : ProbeSide)
    (start : Aggregation) :
    List (List Chunk × List Chunk) → List Chunk → Aggregation → Prop
  | start : Refills side start [] [] start
  | accepted
    {batches : List (List Chunk × List Chunk)}
    {chunks : List Chunk}
    {chunk : Chunk}
    {before after : Aggregation}
    (refills : Refills side start batches chunks before)
    (fits : chunk.schema = side.schema)
    (numbered : chunk.Numbered)
    (adds : (Aggregation.addChunk chunk).Succeeds before () after) :
    Refills side start batches (chunks ++ [chunk]) after
  | refused
    {batches : List (List Chunk × List Chunk)}
    {chunks : List Chunk}
    {chunk : Chunk}
    {before after : Aggregation}
    {status : Status}
    (refills : Refills side start batches chunks before)
    (fits : chunk.schema = side.schema)
    (fails : (Aggregation.addChunk chunk).outcome before = (.error status, after))
    (seats : before.input.Seats chunk) :
    Refills side start batches chunks after
  | finished
    {batches : List (List Chunk × List Chunk)}
    {chunks output : List Chunk}
    {before after : Aggregation}
    (refills : Refills side start batches chunks before)
    (finishes : (Aggregation.finish).Succeeds before output after)
    (awaits : before.input.Awaits before.input.roots) :
    Refills side start (batches ++ [(chunks, output)]) [] after

theorem Refills.refilled
    {start last : Aggregation}
    {batches : List (List Chunk × List Chunk)}
    {chunks : List Chunk}
    (refills : Refills side start batches chunks last)
    (new : start.Refilled side aggregates []) :
    last.Refilled side aggregates (chunks.flatMap Chunk.rows) ∧
      ∀ batch ∈ batches, (batch.2.flatMap Chunk.values).Perm
        (grouped side aggregates (batch.1.flatMap Chunk.rows)) := by
  induction refills with
  | start => exact ⟨new, fun _ => (absurd · List.not_mem_nil)⟩
  | accepted _ fits numbered adds inductionHypothesis =>
      obtain ⟨refilled, paid⟩ := inductionHypothesis
      rw [List.flatMap_append, List.flatMap_singleton]
      exact ⟨refilled.addChunk adds ⟨fits, fun _ => numbered⟩, paid⟩
  | refused _ fits fails seats inductionHypothesis =>
      obtain ⟨refilled, paid⟩ := inductionHypothesis
      exact ⟨(refilled.ends_refused fits seats).of_fails fails, paid⟩
  | finished _ finishes awaits inductionHypothesis =>
      obtain ⟨refilled, paid⟩ := inductionHypothesis
      obtain ⟨yields, empty⟩ := refilled.finish finishes awaits
      exact ⟨empty, List.forall_mem_append.mpr ⟨paid, List.forall_mem_singleton.mpr yields⟩⟩

/-- Each end of an aggregation yields the groups of the rows that were accepted since the one before. So
the outputs together account for every row that was accepted once. -/
theorem perm_grouped_of_refills
    {params : Params}
    {area : SpillArea}
    {ledger : Ledger}
    {account : Option Nat}
    {new start last : Aggregation}
    {batches : List (List Chunk × List Chunk)}
    {chunks : List Chunk}
    (made : make params side.schema side.key aggregates area ledger = .ok new)
    (faithful : area.store.damage = [])
    (charged : (onInput (Partitioned.chargeWithin account)).Succeeds new () start)
    (refills : Refills side start batches chunks last) :
    ∀ batch ∈ batches, (batch.2.flatMap Chunk.values).Perm
      (grouped side aggregates (batch.1.flatMap Chunk.rows)) :=
  (refills.refilled (Collecting.refilled
    ((collecting_of_make made faithful).chargeWithin charged))).2

namespace Refilling.Sample

/-- An aggregation that may keep one row. -/
def new : Aggregation :=
  valueOf (make ⟨2, 8, 3⟩ Sparing.Sample.side.schema Sparing.Sample.side.key [.countStar]
    (Sparing.Sample.area 100) {}) (by decide +kernel)

/-- The aggregation that holds the row that it may keep. -/
def full : Aggregation :=
  ((Aggregation.addChunk Sparing.Sample.one).outcome new).2

/-- The aggregation that failed to make room for another row. -/
def refusing : Aggregation :=
  ((Aggregation.addChunk Sparing.Sample.two).outcome full).2

/-- The aggregation that has yielded the group of the row that it kept. -/
def ended : Aggregation :=
  (finish.outcome refusing).2

/-- The aggregation that has taken the other row after that. -/
def refilled : Aggregation :=
  ((Aggregation.addChunk Sparing.Sample.two).outcome ended).2

/-- The aggregation that has yielded the group of this one, too. -/
def last : Aggregation :=
  (finish.outcome refilled).2

def firstOutput : List Chunk :=
  valueOf (finish.outcome refusing).1 (by decide +kernel)

def secondOutput : List Chunk :=
  valueOf (finish.outcome refilled).1 (by decide +kernel)

theorem refills : Refills Sparing.Sample.side new
    [([Sparing.Sample.one], firstOutput), ([Sparing.Sample.two], secondOutput)] [] last := by
  have holdsOne : Refills Sparing.Sample.side new [] [Sparing.Sample.one] full :=
    Refills.start.accepted rfl (by decide) (succeeds_of_isOk _ _ (by decide +kernel))
  have seats : full.input.Seats Sparing.Sample.two := ⟨1, by decide +kernel, by decide +kernel⟩
  have fails : (Aggregation.addChunk Sparing.Sample.two).outcome full =
      (.error (.storage "write spill block mem://b0.ipc failed: storage unavailable"), refusing) :=
    Prod.ext (by decide +kernel) rfl
  have endsOnce : Refills Sparing.Sample.side new [([Sparing.Sample.one], firstOutput)] [] ended :=
    (holdsOne.refused rfl fails seats).finished (succeeds_of_isOk _ _ (by decide +kernel))
      (by decide +kernel)
  have holdsTwo : Refills Sparing.Sample.side new [([Sparing.Sample.one], firstOutput)]
      [Sparing.Sample.two] refilled :=
    endsOnce.accepted rfl (by decide) (succeeds_of_isOk _ _ (by decide +kernel))
  exact holdsTwo.finished (succeeds_of_isOk _ _ (by decide +kernel)) (by decide +kernel)

/-- An aggregation that may keep no row. -/
def tight : Aggregation :=
  valueOf (make ⟨2, 4, 3⟩ Sparing.Sample.side.schema Sparing.Sample.side.key [.countStar] {} {})
    (by decide +kernel)

/-- The aggregation that has yielded the group of a row. -/
def spent : Aggregation :=
  (finish.outcome ((Aggregation.addChunk Sparing.Sample.one).outcome tight).2).2

/-- The aggregation whose next row was spilled. -/
def clogged : Aggregation :=
  ((Aggregation.addChunk Sparing.Sample.one).outcome spent).2

end Refilling.Sample

/-- A row that is refused at first is yielded at the second end, as it was accepted by then. -/
theorem perm_grouped_of_refilled :
    make ⟨2, 8, 3⟩ Sparing.Sample.side.schema Sparing.Sample.side.key [.countStar]
        (Sparing.Sample.area 100) {} = .ok Refilling.Sample.new ∧
      Refills Sparing.Sample.side Refilling.Sample.new
        [([Sparing.Sample.one], Refilling.Sample.firstOutput),
          ([Sparing.Sample.two], Refilling.Sample.secondOutput)] [] Refilling.Sample.last ∧
      (Refilling.Sample.firstOutput.flatMap Chunk.values).Perm [[.number 1, .number 1]] ∧
      (Refilling.Sample.secondOutput.flatMap Chunk.values).Perm [[.number 2, .number 1]] := by
  have made : make ⟨2, 8, 3⟩ Sparing.Sample.side.schema Sparing.Sample.side.key [.countStar]
      (Sparing.Sample.area 100) {} = .ok Refilling.Sample.new :=
    eq_ok_valueOf _ _
  have charged : (onInput (Partitioned.chargeWithin none)).Succeeds Refilling.Sample.new ()
      Refilling.Sample.new := rfl
  have paid := perm_grouped_of_refills made rfl charged Refilling.Sample.refills
  exact ⟨made, Refilling.Sample.refills, paid _ List.mem_cons_self,
    paid _ (List.mem_cons_of_mem _ List.mem_cons_self)⟩

/-- A row that is spilled after the end is accepted, and the next end succeeds without it. -/
theorem not_perm_grouped_refilled :
    (Aggregation.addChunk Sparing.Sample.one).Succeeds Refilling.Sample.spent ()
        Refilling.Sample.clogged ∧
      ∃ after, (finish).Succeeds Refilling.Sample.clogged [] after := by
  have accepted : (Aggregation.addChunk Sparing.Sample.one).Succeeds Refilling.Sample.spent ()
      Refilling.Sample.clogged :=
    succeeds_of_isOk _ _ (by decide +kernel)
  have nothing : ((finish).outcome Refilling.Sample.clogged).1 = .ok [] := by decide +kernel
  exact ⟨accepted, _, Prod.ext nothing rfl⟩

end Aggregation
end Spillway
