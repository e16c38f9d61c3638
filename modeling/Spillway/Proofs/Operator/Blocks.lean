import Spillway.Proofs.Operator.Closing

/-!
# Blocks of partitioned input

Partitions list the blocks that the operator has in the store: every block of the operator is listed by
one side of one partition, once, and every block that is listed is there. A store may have blocks of
others, which are no concern of the operator.
-/

namespace Spillway
namespace Partitioned

open Step Relation

/-- A side of a partition lists the block at the path. -/
def Lists (input : Partitioned) (path : String) : Prop :=
  ∃ slot partition, input.arena.part? slot = some partition ∧ path ∈ partition.paths

/-- The store has the blocks that the partitions list, each listed by one side of one partition and only
once there, and those for the rest. -/
structure Tidy (rest : String → Prop) (input : Partitioned) : Prop where
  held : ∀ path, input.area.store.block? path ≠ none ↔ rest path ∨ input.Lists path
  apart : ∀ path, input.Lists path → ¬ rest path
  unique : ∀ slot other partition another, input.arena.part? slot = some partition →
    input.arena.part? other = some another →
    ∀ path ∈ partition.paths, path ∈ another.paths → slot = other
  distinct : ∀ slot partition, input.arena.part? slot = some partition → partition.paths.Nodup

variable {rest : String → Prop} {targets : Nat → Prop} {met : Bool} {before after input : Partitioned}
  {slot : Slot} {partition : Partition}

/-- What the store has but for the blocks of one side of a partition. -/
def Beside (rest : String → Prop) (input : Partitioned) (slot : Slot) (path : String) : Prop :=
  rest path ∨ ∃ other partition, other ≠ slot ∧ input.arena.part? other = some partition ∧
    path ∈ partition.paths

theorem lists_iff
    (found : input.arena.part? slot = some partition)
    (path : String) :
    input.Lists path ↔ path ∈ partition.paths ∨ ∃ other another, other ≠ slot ∧
      input.arena.part? other = some another ∧ path ∈ another.paths := by
  constructor
  · rintro ⟨other, another, there, member⟩
    by_cases same : other = slot
    · subst same
      rw [found, Option.some.injEq] at there
      exact .inl (there ▸ member)
    · exact .inr ⟨other, another, same, there, member⟩
  · rintro (member | ⟨other, another, _, there, member⟩)
    · exact ⟨slot, partition, found, member⟩
    · exact ⟨other, another, there, member⟩

/-- A side of a partition owns its blocks beside the others. -/
theorem Tidy.owns
    (tidy : input.Tidy rest)
    (found : input.arena.part? slot = some partition) :
    Partition.Owns (Beside rest input slot) ⟨partition, input.area⟩ where
  held path := by
    rw [tidy.held path, lists_iff found path, Beside]
    exact (or_congr_right or_comm).trans or_assoc.symm
  apart path member beside := by
    obtain mine | ⟨other, another, different, there, listed⟩ := beside
    · exact tidy.apart path ⟨slot, partition, found, member⟩ mine
    · exact different (tidy.unique other slot another partition there found path listed member)
  distinct := tidy.distinct slot partition found

/-- Blocks stay listed when one side of a partition is replaced by one that owns its blocks. -/
theorem Tidy.replace
    {holding : Holding}
    (tidy : before.Tidy rest)
    (found : before.arena.part? slot = some partition)
    (owns : Partition.Owns (Beside rest before slot) holding)
    (area : after.area = holding.area)
    (parts : after.arena.part? = Function.update before.arena.part? slot (some holding.partition)) :
    after.Tidy rest := by
  have here : after.arena.part? slot = some holding.partition := by rw [parts, Function.update_self]
  have there : ∀ other, other ≠ slot → after.arena.part? other = before.arena.part? other :=
    fun other different => by rw [parts, Function.update_of_ne different]
  have lists : ∀ path, after.Lists path ↔ path ∈ holding.partition.paths ∨ ∃ other another,
      other ≠ slot ∧ before.arena.part? other = some another ∧ path ∈ another.paths := by
    intro path
    rw [lists_iff here path]
    refine or_congr_right (exists_congr fun other => exists_congr fun another => ?_)
    exact and_congr_right fun different => by rw [there other different]
  have new : ∀ other another, other ≠ slot → after.arena.part? other = some another →
      ∀ path ∈ holding.partition.paths, path ∉ another.paths := by
    intro other another different found path member listed
    rw [there other different] at found
    exact owns.apart path member (.inr ⟨other, another, different, found, listed⟩)
  refine ⟨fun path => ?_, fun path listed mine => ?_, fun one other first second isFirst isSecond path
    inFirst inSecond => ?_, fun other another isOther => ?_⟩
  · rw [area, owns.held path, lists path, Beside]
    exact or_assoc.trans (or_congr_right or_comm)
  · obtain member | ⟨other, another, different, found, member⟩ := (lists path).mp listed
    · exact owns.apart path member (.inl mine)
    · exact tidy.apart path ⟨other, another, found, member⟩ mine
  · by_cases oneHere : one = slot <;> by_cases otherHere : other = slot
    · exact oneHere.trans otherHere.symm
    · subst oneHere
      rw [here, Option.some.injEq] at isFirst
      exact absurd inSecond (new other second otherHere isSecond path (isFirst ▸ inFirst))
    · subst otherHere
      rw [here, Option.some.injEq] at isSecond
      exact absurd inFirst (new one first oneHere isFirst path (isSecond ▸ inSecond))
    · rw [there one oneHere] at isFirst
      rw [there other otherHere] at isSecond
      exact tidy.unique one other first second isFirst isSecond path inFirst inSecond
  · by_cases otherHere : other = slot
    · subst otherHere
      rw [here, Option.some.injEq] at isOther
      exact isOther ▸ owns.distinct
    · rw [there other otherHere] at isOther
      exact tidy.distinct other another isOther

/-- Only the store and the sides that have blocks are looked at. -/
theorem Tidy.transfer
    (tidy : before.Tidy rest)
    (area : after.area = before.area)
    (parts : ∀ slot partition, after.arena.part? slot = some partition →
      before.arena.part? slot = some partition ∨ partition.paths = [])
    (stays : ∀ slot partition, before.arena.part? slot = some partition →
      after.arena.part? slot = some partition) :
    after.Tidy rest := by
  have found : ∀ slot partition, after.arena.part? slot = some partition → ∀ path ∈ partition.paths,
      before.arena.part? slot = some partition := by
    intro slot partition there path member
    refine (parts slot partition there).resolve_right fun empty => ?_
    simp [empty] at member
  have lists : ∀ path, after.Lists path ↔ before.Lists path := fun path =>
    ⟨fun ⟨slot, partition, there, member⟩ => ⟨slot, partition, found _ _ there path member, member⟩,
      fun ⟨slot, partition, there, member⟩ => ⟨slot, partition, stays _ _ there, member⟩⟩
  refine ⟨fun path => ?_, fun path listed => ?_, fun one other first second isFirst isSecond path
    inFirst inSecond => ?_, fun slot partition there => ?_⟩
  · rw [area, lists]
    exact tidy.held path
  · exact tidy.apart path ((lists path).mp listed)
  · exact tidy.unique one other first second (found _ _ isFirst path inFirst)
      (found _ _ isSecond path inSecond) path inFirst inSecond
  · obtain same | empty := parts slot partition there
    · exact tidy.distinct slot partition same
    · rw [empty]
      exact List.nodup_nil

/-- New partitions have no blocks. -/
theorem paths_newRecord
    {parent : Option Nat}
    {level bucket : Nat}
    {side : Side}
    (found : (input.newRecord parent level bucket).side side = some partition) :
    partition.paths = [] := by
  cases side with
  | build =>
      cases found
      rfl
  | probe =>
      obtain ⟨declared, _, rfl⟩ := Option.map_eq_some_iff.mp found
      rfl

theorem Feed.tidy
    (feed : Feed targets met before after)
    (deletes : before.area.store.Deletes)
    (tidy : before.Tidy rest) :
    after.Tidy rest := by
  cases feed with
  | build found _ changes =>
      have slot := Arena.part?_build found
      refine tidy.replace slot (changes.owns deletes _ (tidy.owns slot)) rfl ?_
      exact Arena.part?_modify found rfl fun side different => by cases side <;> trivial
  | probe found has _ changes =>
      have slot := (Arena.part?_probe found).trans has
      refine tidy.replace slot (changes.owns deletes _ (tidy.owns slot)) rfl ?_
      exact Arena.part?_modify found rfl fun side different => by cases side <;> trivial
  | books => exact tidy.transfer rfl (fun _ _ => .inl) fun _ _ => id

theorem Change.tidy
    (change : Change targets met before after)
    (deletes : before.area.store.Deletes)
    (tidy : before.Tidy rest) :
    after.Tidy rest := by
  cases change with
  | feed feed => exact feed.tidy deletes tidy
  | @close partition state _ _ =>
      have same := Arena.part?_modify_of_sides before.arena partition
        (fun record => show ({ record with state } : PartitionRecord).side = record.side by
          funext side
          cases side <;> rfl)
      exact tidy.transfer rfl (fun _ _ => .inl ∘ (same ▸ ·)) fun _ _ => (same ▸ ·)
  | child _ _ added =>
      obtain ⟨_, _, slots, _⟩ := Arena.of_add rfl added
      refine tidy.transfer rfl (fun slot partition found => ?_) fun slot partition found => ?_
      · dsimp only at found
        rw [slots] at found
        split at found
        · exact .inr (paths_newRecord found)
        · exact .inl found
      · dsimp only
        rw [slots, if_neg, found]
        intro last
        rw [part?_of_size_le (Nat.le_of_eq last.symm)] at found
        cases found
  | notes pinned repartitions => exact tidy.transfer rfl (fun _ _ => .inl) fun _ _ => id

/-- Whatever becomes of the input, its partitions list its blocks, as long as blocks can be deleted. -/
theorem Evolves.tidy
    (evolves : Evolves targets met before after)
    (deletes : before.area.store.Deletes)
    (tidy : before.Tidy rest) :
    after.Tidy rest := by
  induction evolves with
  | refl => exact tidy
  | tail evolved change inductionHypothesis =>
      exact change.tidy (Evolves.later evolved |>.deletes deletes) inductionHypothesis

end Partitioned
end Spillway
