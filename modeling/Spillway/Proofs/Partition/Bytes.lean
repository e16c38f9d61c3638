import Spillway.Partition.Partition
import Spillway.Proofs.Outcome

/-!
# Bytes of a partition

What becomes of the bytes in memory when a step of a partition succeeds or fails. Only appending to a
partition in memory, spilling it and releasing it move any, and a spilled partition has none.
-/

namespace Spillway
namespace Partition

open Step

/-- What is left of a partition that had bytes in memory, next to bytes in hand: every byte is still in
memory or in hand. A spilled partition stays so and has no bytes in memory. -/
structure Settles
    (before : Partition)
    (inHand : Nat)
    (after : Partition)
    (left : Nat) : Prop where
  spilled : before.spilled → after.spilled
  unloaded : after.spilled → after.memoryBytes = 0
  balance : after.memoryBytes + left = before.memoryBytes + inHand

/-- The partition has the memory of another one and is spilled if that is. -/
structure Rests (before after : Partition) : Prop where
  spilled : after.spilled = before.spilled
  memoryBytes : after.memoryBytes = before.memoryBytes

theorem Rests.refl (partition : Partition) : partition.Rests partition :=
  ⟨rfl, rfl⟩

theorem Rests.settles
    {before after : Partition}
    (rests : before.Rests after)
    (unloaded : before.spilled → before.memoryBytes = 0)
    (inHand : Nat) :
    before.Settles inHand after inHand where
  spilled spilled := rests.spilled.trans spilled
  unloaded spilled := rests.memoryBytes.trans (unloaded (rests.spilled.symm.trans spilled))
  balance := by rw [rests.memoryBytes]

/-! ## Steps that move no bytes -/

/-- The store is no part of the partition. -/
theorem keeps_onArea
    {α : Type}
    {Condition : Partition → Prop}
    (step : Step SpillArea α) :
    (onArea step).Keeps fun holding => Condition holding.partition := by
  intro before condition
  unfold onArea
  rw [ends_focus]
  unfold Ends
  split <;> exact condition

theorem keeps_change
    {Condition : Partition → Prop}
    {update : Partition → Partition}
    (kept : ∀ partition, Condition partition → Condition (update partition)) :
    (change update).Keeps fun holding => Condition holding.partition :=
  keeps_modify fun holding condition => kept holding.partition condition

theorem keeps_current {Invariant : Holding → Prop} : current.Keeps Invariant :=
  keeps_get.bind fun _ => keeps_pure _

variable (before : Partition)

theorem keeps_flush : flush.Keeps fun holding => before.Rests holding.partition := by
  refine keeps_current.bind fun partition => ?_
  split
  · exact keeps_pure _
  · exact (keeps_onArea _).bind fun _ => keeps_change fun _ rests => ⟨rests.spilled, rests.memoryBytes⟩

theorem keeps_appendPending
    (chunk : Chunk) :
    (appendPending chunk).Keeps fun holding => before.Rests holding.partition := by
  refine (keeps_change fun _ rests => ⟨rests.spilled, rests.memoryBytes⟩).bind fun _ => ?_
  refine keeps_get.bind fun holding => ?_
  split
  · exact keeps_flush before
  · exact keeps_pure _

theorem keeps_reload : reload.Keeps fun holding => before.Rests holding.partition :=
  keeps_current.bind fun _ => (keeps_onArea _).bind fun _ => keeps_pure _

theorem keeps_restoreBlock
    (position : Nat) :
    (restoreBlock position).Keeps fun holding => before.Rests holding.partition := by
  refine keeps_current.bind fun partition => ?_
  split
  · exact keeps_pure _
  · split
    · exact keeps_onArea _
    · exact keeps_fail _

/-! ## Steps that move bytes -/

variable {holding : Holding}

theorem ends_current
    {ok : Partition → Holding → Prop}
    {failed : Status → Holding → Prop} :
    current.Ends holding ok failed ↔ ok holding.partition holding :=
  Iff.rfl

/-- What is appended to a spilled partition goes to the store, or stays pending if that fails. -/
theorem ends_append_of_spilled
    (spilled : holding.partition.spilled)
    (chunk : Chunk) :
    (append chunk).Ends holding (fun _ after => holding.partition.Rests after.partition)
      fun _ after => holding.partition.Rests after.partition := by
  unfold append
  split
  · exact Rests.refl _
  · rw [ends_bind, ends_current]
    dsimp only
    rw [if_pos spilled, ends_bind]
    refine (keeps_appendPending holding.partition chunk holding (Rests.refl _)).mono
      (fun _ between rests => ?_) fun _ _ rests => rests
    exact ⟨rests.spilled, rests.memoryBytes⟩

/-- What is appended to a partition in memory takes its bytes there, and that cannot fail. -/
theorem ends_append_in_memory
    {chunk : Chunk}
    (inMemory : holding.partition.spilled = false)
    (rows : chunk.isEmpty = false) :
    (append chunk).Ends holding
      (fun _ after => after.partition.spilled = false ∧
        after.partition.memoryBytes = holding.partition.memoryBytes + chunk.logicalBytes)
      fun _ _ => False := by
  unfold append
  rw [if_neg (by simp [rows]), ends_bind, ends_current]
  dsimp only
  rw [if_neg (by simp [inMemory])]
  exact ⟨inMemory, rfl⟩

/-- Spilling yields the bytes that were in memory, and changes nothing of them if it fails. -/
theorem ends_spill
    (inMemory : holding.partition.spilled = false) :
    spill.Ends holding
      (fun freed after => after.partition.spilled ∧ after.partition.memoryBytes = 0 ∧
        freed = holding.partition.memoryBytes)
      fun _ after => holding.partition.Rests after.partition := by
  unfold spill
  rw [ends_bind, ends_current, if_neg (by simp [inMemory])]
  dsimp only
  split
  · exact ⟨rfl, rfl, rfl⟩
  · rw [ends_bind]
    refine (keeps_onArea _ holding (Rests.refl holding.partition)).mono
      (fun _ between rests => ?_) fun _ _ rests => rests
    exact ⟨rfl, rfl, rfl⟩

/-- Blocks that cannot be deleted are no failure. -/
theorem ends_deleteBlocks
    (blocks : List Block)
    (area : SpillArea) :
    (deleteBlocks blocks).Ends area (fun _ _ => True) fun _ _ => False := by
  induction blocks generalizing area with
  | nil => trivial
  | cons block rest inductionHypothesis =>
      rw [deleteBlocks, ends_bind, ends_attempt]
      unfold Ends
      split <;> exact inductionHypothesis _

/-- A release gives up all bytes in memory and cannot fail. -/
theorem ends_release :
    release.Ends holding
      (fun _ after => after.partition.spilled = holding.partition.spilled ∧
        after.partition.memoryBytes = 0)
      fun _ _ => False := by
  unfold release releaseBlocks
  simp only [ends_bind]
  refine (ends_focus _ _ _).mpr ((ends_deleteBlocks _ _).mono (fun _ _ _ => ?_) fun _ _ => id)
  exact ⟨rfl, rfl⟩

end Partition
end Spillway
