import Spillway.Proofs.Operator.Layers
import Spillway.Proofs.Operator.Requests
import Spillway.Proofs.Operator.Serving
import Spillway.Proofs.Operator.WorkStack

/-!
# Joins between two visits

Whatever the store does, between two visits at the end of a join the partitions in memory lie on top of
those that are still to be visited, and the account of the join holds their bytes and no others. A visit
that is met leaves the join so. Whenever a spilled partition is visited, nothing is held.
-/

namespace Spillway
namespace Join

open Step

variable {others : Nat → Nat} {join before after : Join} {partition : Nat} {record : PartitionRecord}
  {rest : List Nat}

/-- The join of one partition leaves all others as they are. -/
theorem spares_joinPartition :
    (joinPartition partition).Follows (Within (Partitioned.Spares partition)) := by
  have reads : ∀ block, (Partitioned.restoreProbeBlock partition block).Follows
      (Partitioned.Spares partition) :=
    fun block => Partitioned.spares_onProbe (follows_pure _) _
  exact within_joinPartition Partitioned.spares_loadBuild reads Partitioned.spares_complete

/-- A join between two visits, with the partitions that are still to be visited on a stack, whether the
store serves it or not. -/
structure Poised
    (others : Nat → Nat)
    (stack : List Nat)
    (join : Join) : Prop where
  accounted : join.input.Accounted others [] 0
  remaining : join.input.Remaining stack
  layered : join.input.Layered stack
  distinct : stack.Nodup
  known : ∀ partition ∈ stack, partition < join.input.arena.size

section Poised

variable (poised : Poised others (partition :: rest) join)
include poised

/-- Whenever a spilled partition is visited, nothing is held. -/
theorem Poised.heldBytes_eq
    (found : join.input.arena.records[partition]? = some record)
    (spilled : record.build.spilled = true) :
    join.input.heldBytes = 0 :=
  Partitioned.heldBytes_eq_zero poised.remaining.pinned (poised.layered.unloaded found spilled)

theorem Poised.used_eq
    (found : join.input.arena.records[partition]? = some record)
    (spilled : record.build.spilled = true) :
    join.input.ledger.used join.input.account = 0 := by
  have within := poised.accounted.books.within
  rw [poised.heldBytes_eq found spilled] at within
  exact Nat.le_zero.mp within

/-- All accounts hold what they hold for others then. -/
theorem Poised.used_eq_others
    (found : join.input.arena.records[partition]? = some record)
    (spilled : record.build.spilled = true)
    (unfilled : join.input.ledger.Unfilled)
    (place : Nat) :
    join.input.ledger.used place = others place := by
  have used := poised.accounted.books.used unfilled place
  rwa [poised.heldBytes_eq found spilled, ite_self, Nat.add_zero] at used

/-- After a partition was completed the partitions in memory lie on top still. -/
theorem Poised.completed
    {after : Partitioned}
    (completes : Partitioned.Completes partition join.input after)
    (spares : Partitioned.Spares partition true join.input after) :
    after.Layered rest := by
  obtain ⟨closed, there, done⟩ := completes.done
  refine poised.layered.tail spares (fun record found => ?_) (List.nodup_cons.mp poised.distinct).1
  rw [there, Option.some.injEq] at found
  exact found ▸ done.build.memoryBytes_eq

/-- Whatever becomes of its partition, the partitions in memory lie on top after a visit. -/
theorem Poised.ends_visit_layered
    (found : join.input.arena.records[partition]? = some record) :
    (visit partition).Ends join (fun result after => after.input.Layered (result.left ++ rest))
      fun _ _ => True := by
  refine VisitEnds.ends
    { cancelled := .of_forall (fun _ _ => trivial) fun _ _ => trivial
      closed := fun closed => ?closed
      completed := fun _ _ => ((Partitioned.ends_complete join.input).and
        (Partitioned.spares_complete join.input)).mono
          (fun _ _ completed => poised.completed completed.1 completed.2) fun _ _ _ => trivial
      split := fun _ _ spilled _ _ => ?split
      joined := fun _ _ _ => ((ends_joinPartition_completes join).and (spares_joinPartition join)).mono
        (fun _ _ joined => poised.completed joined.1.1 joined.2.1) fun _ _ _ => trivial } found
  case closed =>
    have done := (poised.remaining.records _ _ found).resolve_right fun left => closed left.2
    refine poised.layered.tail (Composes.refl true _) (fun now there => ?_)
      (List.nodup_cons.mp poised.distinct).1
    rw [found, Option.some.injEq] at there
    exact there ▸ done.build.memoryBytes_eq
  case split =>
    refine ((Partitioned.ends_repartition_splits join.input).and
      (Partitioned.keeps_repartition _ (poised.accounted.store found spilled))).mono
      (fun kept split served order succeeds => ?_) fun _ _ _ => trivial
    obtain ⟨splits, accounted⟩ := served
    obtain ⟨-, permuted, top, bottom, same, layers⟩ :=
      (Partitioned.ends_processingOrder_layers kept).of_succeeds succeeds
    exact poised.layered.split found spilled splits (splits.evolves.counts poised.remaining.counts)
      accounted.unloaded same permuted layers

/-- A visit that is met leaves the join as it found it, with what the partition was split into on top of
the stack. -/
theorem Poised.next
    {result : Visit Chunk}
    (succeeds : (visit partition).Succeeds join result after) :
    Poised others (result.left ++ rest) after := by
  obtain ⟨record, found⟩ := Arena.exists_record_of_lt (poised.known partition List.mem_cons_self)
  obtain ⟨leaves, -⟩ := (ends_visit_leaves join).of_succeeds succeeds
  have evolves := leaves.evolves
  obtain ⟨apart, distinct⟩ := List.nodup_cons.mp poised.distinct
  have old : ∀ other ∈ rest, other < join.input.arena.size :=
    fun other member => poised.known other (List.mem_cons_of_mem _ member)
  refine
    { accounted := (keeps_visit partition join poised.accounted).of_succeeds succeeds
      remaining := leaves.remaining poised.remaining
        (fun other member different => List.mem_append_right _
          ((List.mem_cons.mp member).resolve_left different))
        fun child => List.mem_append_left _
      layered := (poised.ends_visit_layered found).of_succeeds succeeds
      distinct := leaves.distinct.append distinct fun child isNew isOld => ?_
      known := fun other member => ?_ }
  · exact Nat.not_lt_of_le (leaves.opened child isNew).1 (old child isOld)
  · obtain child | other := List.mem_append.mp member
    · obtain ⟨-, record, there, -⟩ := leaves.opened _ child
      exact (Array.getElem?_eq_some_iff.mp there).1
    · exact Nat.lt_of_lt_of_le (old _ other) evolves.size_le

end Poised

theorem Poised.turns
    {config next : WorkStack Join}
    (poised : Poised others config.stack config.state)
    (turns : Turns visit config next) :
    Poised others next.stack next.state := by
  induction turns with
  | refl => exact poised
  | tail _ turn inductionHypothesis =>
      cases turn with
      | visit succeeds => exact inductionHypothesis.next succeeds

end Join
end Spillway
