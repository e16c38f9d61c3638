import Spillway.Operator.Aggregation
import Spillway.Operator.Join
import Spillway.Proofs.Operator.Charging

/-!
# How visits end

A visit looks for a cancellation, reads the record of its partition, and then goes one of a few ways. How it
ends follows from how each of these ends, which is all that is left to be shown of a visit: `VisitEnds` lists
the ways, once for joins and once for aggregations.
-/

namespace Spillway

open Step

variable {partition : Nat} {record : PartitionRecord} {α : Type}

namespace Partitioned

variable {input : Partitioned}

/-- Looking for a cancellation changes nothing. -/
theorem ends_checkCancelled_of
    {ok : Unit → Partitioned → Prop}
    {failed : Status → Partitioned → Prop}
    (cancelled : checkCancelled.Ends input (fun _ _ => True) fun status _ => failed status input)
    (goesOn : ok () input) :
    checkCancelled.Ends input ok failed := by
  have checks : checkCancelled.Ends input (fun _ after => after = input) fun _ after => after = input :=
    keeps_checkCancelled input rfl
  refine (checks.and cancelled).mono (fun _ _ same => ?_) fun _ _ stopped => ?_
  · exact same.1 ▸ goesOn
  · exact stopped.1 ▸ stopped.2

/-- Whether a partition is split is decided by what it has and by what is left of the account. -/
theorem ends_needsRepartition_of
    {ok : Bool → Partitioned → Prop}
    {failed : Status → Partitioned → Prop}
    (found : input.arena.records[partition]? = some record) :
    (needsRepartition partition).Ends input ok failed ↔
      ok (record.build.spilled && 1 < record.build.rowCount &&
        input.ledger.available input.account < record.build.estimatedSize) input := by
  rw [needsRepartition, ends_bind, ends_record_of found, ends_bind, ends_get, ends_pure]

end Partitioned

/-! ## Joins -/

namespace Join

variable {join : Join} {Condition : Partitioned → Prop}

theorem keeps_onInput
    {step : Step Partitioned α}
    (keeps : step.Keeps Condition) :
    (onInput step).Keeps fun join => Condition join.input :=
  keeps.focus fun _ _ => rfl

theorem ends_onInput
    {ok : α → Join → Prop}
    {failed : Status → Join → Prop}
    (step : Step Partitioned α) :
    (onInput step).Ends join ok failed ↔
      step.Ends join.input (fun value input => ok value { join with input })
        fun status input => failed status { join with input } :=
  ends_focus _ _ _

/-- The visit of a partition ends so on each way that it may go. -/
structure VisitEnds
    (partition : Nat)
    (record : PartitionRecord)
    (join : Join)
    (ok : Visit Chunk → Join → Prop)
    (failed : Status → Join → Prop) : Prop where
  cancelled : Partitioned.checkCancelled.Ends join.input (fun _ _ => True)
    fun status _ => failed status join
  closed : record.state ≠ .opened → ok (.done []) join
  completed : record.state = .opened →
    (record.build.isEmpty || record.probe.all Partition.isEmpty) = true →
    (Partitioned.complete partition).Ends join.input
      (fun _ input => ok (.done []) { join with input })
      fun status input => failed status { join with input }
  split : record.state = .opened →
    ¬ (record.build.isEmpty || record.probe.all Partition.isEmpty) = true →
    record.build.spilled = true → 1 < record.build.rowCount →
    join.input.ledger.available join.input.account < record.build.estimatedSize →
    (Partitioned.repartition partition).Ends join.input
      (fun kept input => ∀ order, (Partitioned.processingOrder kept).Succeeds input order input →
        ok (.split order) { join with input })
      fun status input => failed status { join with input }
  joined : record.state = .opened →
    ¬ (record.build.isEmpty || record.probe.all Partition.isEmpty) = true →
    ¬ (record.build.spilled = true ∧ 1 < record.build.rowCount ∧
      join.input.ledger.available join.input.account < record.build.estimatedSize) →
    (joinPartition partition).Ends join (fun output after => ok (.done output) after) failed

variable {ok : Visit Chunk → Join → Prop} {failed : Status → Join → Prop}

/-- A partition that does not exist cannot be visited. -/
theorem ends_visit_of_missing
    (missing : join.input.arena.records[partition]? = none)
    (stopped : ∀ status, failed status join) :
    (visit partition).Ends join ok failed := by
  have cancelled : Partitioned.checkCancelled.Ends join.input (fun _ _ => True)
      fun status _ => failed status join :=
    .of_forall (fun _ _ => trivial) fun status _ => stopped status
  rw [visit, ends_bind, ends_onInput]
  refine Partitioned.ends_checkCancelled_of cancelled ?_
  rw [ends_bind, ends_onInput]
  refine Partitioned.ends_record (fun record found => ?_) stopped
  exact absurd (missing.symm.trans found) (Option.some_ne_none record).symm

theorem VisitEnds.ends
    (ends : VisitEnds partition record join ok failed)
    (found : join.input.arena.records[partition]? = some record) :
    (visit partition).Ends join ok failed := by
  rw [visit, ends_bind, ends_onInput]
  refine Partitioned.ends_checkCancelled_of ends.cancelled ?_
  rw [ends_bind, ends_onInput, Partitioned.ends_record_of found, ends_ite]
  refine ⟨ends.closed, fun opened => ?_⟩
  rw [ne_eq, not_not] at opened
  rw [ends_ite]
  refine ⟨fun empty => ?_, fun some => ?_⟩
  · rw [ends_bind, ends_onInput]
    exact ends.completed opened empty
  rw [ends_bind, ends_onInput]
  rw [Partitioned.ends_needsRepartition_of found, ends_ite]
  simp only [Bool.and_eq_true, decide_eq_true_eq, and_assoc]
  refine ⟨fun large => ?_, fun small => ?_⟩
  · rw [ends_bind, ends_onInput]
    refine (ends.split opened some large.1 large.2.1 large.2.2).mono (fun kept input splits => ?_)
      fun _ _ fails => fails
    rw [ends_bind, ends_onInput, Partitioned.processingOrder, ends_bind, ends_get]
    exact splits _ rfl
  · rw [ends_bind]
    exact ends.joined opened some small

/-- Where the partition may be missing, that has to be an end too. -/
theorem ends_visit_of
    (stopped : ∀ status, failed status join)
    (ends : ∀ record, join.input.arena.records[partition]? = some record →
      VisitEnds partition record join ok failed) :
    (visit partition).Ends join ok failed := by
  cases found : join.input.arena.records[partition]? with
  | none => exact ends_visit_of_missing found stopped
  | some record => exact (ends record found).ends found

end Join

/-! ## Aggregations -/

namespace Aggregation

variable {aggregation : Aggregation} {Condition : Partitioned → Prop}

theorem keeps_onInput
    {step : Step Partitioned α}
    (keeps : step.Keeps Condition) :
    (onInput step).Keeps fun aggregation => Condition aggregation.input :=
  keeps.focus fun _ _ => rfl

theorem ends_onInput
    {ok : α → Aggregation → Prop}
    {failed : Status → Aggregation → Prop}
    (step : Step Partitioned α) :
    (onInput step).Ends aggregation ok failed ↔
      step.Ends aggregation.input (fun value input => ok value { aggregation with input })
        fun status input => failed status { aggregation with input } :=
  ends_focus _ _ _

/-- The visit of a partition ends so on each way that it may go. -/
structure VisitEnds
    (partition : Nat)
    (record : PartitionRecord)
    (aggregation : Aggregation)
    (ok : Visit Chunk → Aggregation → Prop)
    (failed : Status → Aggregation → Prop) : Prop where
  cancelled : Partitioned.checkCancelled.Ends aggregation.input (fun _ _ => True)
    fun status _ => failed status aggregation
  closed : record.state ≠ .opened → ok (.done []) aggregation
  inMemory : record.state = .opened → ¬ record.build.spilled = true →
    (aggregateInMemory partition).Ends aggregation (fun output after => ok (.done output) after) failed
  spilled : record.state = .opened → record.build.spilled = true →
    (addBlocks partition {} (List.range record.build.blockCount)).Ends aggregation
      (fun taken between =>
        (∀ table, taken = some table → (emit table).Ends between
          (fun output emitted => (Partitioned.complete partition).Ends emitted.input
            (fun _ input => ok (.done output) { emitted with input })
            fun status input => failed status { emitted with input })
          failed) ∧
        (taken = none → (Partitioned.repartition partition).Ends between.input
          (fun kept input => ∀ order, (Partitioned.processingOrder kept).Succeeds input order input →
            ok (.split order) { between with input })
          fun status input => failed status { between with input }))
      failed

variable {ok : Visit Chunk → Aggregation → Prop} {failed : Status → Aggregation → Prop}

theorem VisitEnds.ends
    (ends : VisitEnds partition record aggregation ok failed)
    (found : aggregation.input.arena.records[partition]? = some record) :
    (visit partition).Ends aggregation ok failed := by
  rw [visit, ends_bind, ends_onInput]
  refine Partitioned.ends_checkCancelled_of ends.cancelled ?_
  rw [ends_bind, ends_onInput, Partitioned.ends_record_of found, ends_ite]
  refine ⟨ends.closed, fun opened => ?_⟩
  rw [ne_eq, not_not] at opened
  rw [ends_ite]
  refine ⟨fun inMemory => ?_, fun inStore => ?_⟩
  · rw [ends_bind]
    exact ends.inMemory opened inMemory
  rw [not_not] at inStore
  rw [ends_bind]
  refine (ends.spilled opened inStore).mono (fun taken between reads => ?_) fun _ _ fails => fails
  cases taken with
  | some table =>
      rw [ends_bind]
      refine (reads.1 table rfl).mono (fun output emitted completes => ?_) fun _ _ fails => fails
      rw [ends_bind, ends_onInput]
      exact completes
  | none =>
      rw [ends_bind, ends_onInput]
      refine (reads.2 rfl).mono (fun kept input splits => ?_) fun _ _ fails => fails
      rw [ends_bind, ends_onInput, Partitioned.processingOrder, ends_bind, ends_get]
      exact splits _ rfl

/-- Where the partition may be missing, that has to be an end too. -/
theorem ends_visit_of
    (stopped : ∀ status, failed status aggregation)
    (ends : ∀ record, aggregation.input.arena.records[partition]? = some record →
      VisitEnds partition record aggregation ok failed) :
    (visit partition).Ends aggregation ok failed := by
  cases found : aggregation.input.arena.records[partition]? with
  | some record => exact (ends record found).ends found
  | none =>
      have cancelled : Partitioned.checkCancelled.Ends aggregation.input (fun _ _ => True)
          fun status _ => failed status aggregation :=
        .of_forall (fun _ _ => trivial) fun status _ => stopped status
      rw [visit, ends_bind, ends_onInput]
      refine Partitioned.ends_checkCancelled_of cancelled ?_
      rw [ends_bind, ends_onInput]
      refine Partitioned.ends_record (fun record present => ?_) stopped
      exact absurd (found.symm.trans present) (Option.some_ne_none record).symm

end Aggregation
end Spillway
