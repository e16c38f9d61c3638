import Mathlib.Logic.Function.Basic
import Spillway.Operator.Partitioned
import Spillway.Proofs.Partition.Routing
import Spillway.Proofs.Partition.Rows

/-!
# The rows in every partition

A partition has a slot for its build side and one for its probe side. Partitioned input holds given
contents when the partition in every slot holds the rows that the contents name for it. The slots own
different blocks, so a step on the partition in one slot leaves the rows in all others as they are.
What a step does to the places of the partitions is kept apart from what it does to their rows.
-/

namespace Spillway

/-- One of the two inputs of an operator. -/
inductive Side where
  | build
  | probe
  deriving DecidableEq

/-- One side of a partition. -/
abbrev Slot : Type := Side × Nat

/-- The rows in every slot, in the order in which they arrived. -/
abbrev Contents : Type := Slot → List Row

/-- The partition on a side of a record. -/
def PartitionRecord.side (record : PartitionRecord) : Side → Option Partition
  | .build => some record.build
  | .probe => record.probe

@[simp] theorem PartitionRecord.side_build (record : PartitionRecord) :
    record.side .build = some record.build := rfl

@[simp] theorem PartitionRecord.side_probe (record : PartitionRecord) :
    record.side .probe = record.probe := rfl

/-- Where a partition stands, whatever it holds. -/
structure PartitionPlace where
  parent : Option Nat
  level : Nat
  bucket : Nat
  state : PartitionState

/-- The place of a record. -/
def PartitionRecord.place (record : PartitionRecord) : PartitionPlace where
  parent := record.parent
  level := record.level
  bucket := record.bucket
  state := record.state

namespace Arena

/-- The partition in a slot. -/
def part?
    (arena : Arena)
    (slot : Slot) : Option Partition :=
  arena.records[slot.2]?.bind fun record => record.side slot.1

/-- The place of a partition. -/
def place?
    (arena : Arena)
    (partition : Nat) : Option PartitionPlace :=
  arena.records[partition]?.map PartitionRecord.place

theorem record_eq_ok_iff
    {arena : Arena}
    {partition : Nat}
    {record : PartitionRecord} :
    arena.record partition = .ok record ↔ arena.records[partition]? = some record := by
  unfold Arena.record
  cases arena.records[partition]? <;> simp

theorem exists_record_of_lt
    {arena : Arena}
    {partition : Nat}
    (known : partition < arena.size) :
    ∃ record, arena.records[partition]? = some record :=
  ⟨_, Array.getElem?_eq_getElem known⟩

theorem part?_build
    {arena : Arena}
    {partition : Nat}
    {record : PartitionRecord}
    (found : arena.records[partition]? = some record) :
    arena.part? (.build, partition) = some record.build := by
  simp [part?, found, PartitionRecord.side]

theorem part?_probe
    {arena : Arena}
    {partition : Nat}
    {record : PartitionRecord}
    (found : arena.records[partition]? = some record) :
    arena.part? (.probe, partition) = record.probe := by
  simp [part?, found, PartitionRecord.side]

/-- The build side of a partition is that of its record. -/
theorem exists_record_of_part?_build
    {arena : Arena}
    {partition : Nat}
    {build : Partition}
    (found : arena.part? (.build, partition) = some build) :
    ∃ record, arena.records[partition]? = some record ∧ record.build = build := by
  obtain ⟨record, there, same⟩ := Option.bind_eq_some_iff.mp found
  exact ⟨record, there, Option.some.inj same⟩

theorem place?_of_record
    {arena : Arena}
    {partition : Nat}
    {record : PartitionRecord}
    (found : arena.records[partition]? = some record) :
    arena.place? partition = some record.place := by
  simp [place?, found]

theorem lt_size_of_place?
    {arena : Arena}
    {partition : Nat}
    {place : PartitionPlace}
    (found : arena.place? partition = some place) :
    partition < arena.size := by
  obtain ⟨record, there, _⟩ := Option.map_eq_some_iff.mp found
  exact (Array.getElem?_eq_some_iff.mp there).1

/-- A change of a record that keeps its place keeps all places. -/
theorem place?_modify
    (arena : Arena)
    (partition : Nat)
    {change : PartitionRecord → PartitionRecord}
    (same : ∀ record, (change record).place = record.place) :
    (arena.modify partition change).place? = arena.place? := by
  funext other
  simp only [place?, modify, Array.getElem?_modify]
  split
  · cases arena.records[other]? <;> simp [same]
  · rfl

/-- A change of a record that only replaces the partition on one side replaces the partition in one
slot. -/
theorem part?_modify
    {arena : Arena}
    {partition : Nat}
    {record : PartitionRecord}
    {side : Side}
    {replacement : Partition}
    {change : PartitionRecord → PartitionRecord}
    (found : arena.records[partition]? = some record)
    (here : (change record).side side = some replacement)
    (there : ∀ other, other ≠ side → (change record).side other = record.side other) :
    (arena.modify partition change).part? =
      Function.update arena.part? (side, partition) (some replacement) := by
  funext slot
  obtain ⟨other, place⟩ := slot
  simp only [part?, modify, Array.getElem?_modify]
  by_cases same : partition = place
  · subst same
    by_cases equal : other = side
    · subst equal
      simp [found, here]
    · rw [Function.update_of_ne (by simp [equal])]
      simp [part?, found, there other equal]
  · rw [if_neg same, Function.update_of_ne (by simp [Ne.symm same])]
    rfl

/-- A change of a record that keeps both sides keeps the partitions in all slots. -/
theorem part?_modify_of_sides
    (arena : Arena)
    (partition : Nat)
    {change : PartitionRecord → PartitionRecord}
    (same : ∀ record, (change record).side = record.side) :
    (arena.modify partition change).part? = arena.part? := by
  funext slot
  simp only [part?, modify, Array.getElem?_modify]
  split
  · cases arena.records[slot.2]? <;> simp [same]
  · rfl

@[simp] theorem size_modify
    (arena : Arena)
    (partition : Nat)
    (change : PartitionRecord → PartitionRecord) :
    (arena.modify partition change).size = arena.size := by
  simp [size, modify]

end Arena

/-- The partition in every slot holds the rows of the slot, under the declared schema of its side.
Partitions in different slots share no block, and those on the probe side are in the store. -/
structure Kept
    (precise : Prop)
    (store : Store)
    (side? : Side → Option ProbeSide)
    (part? : Slot → Option Partition)
    (contents : Contents) : Prop where
  faithful : store.damage = []
  holds : ∀ slot partition, part? slot = some partition →
    ∃ declared, side? slot.1 = some declared ∧
      partition.Holds precise store declared.schema (contents slot)
  absent : ∀ slot, part? slot = none → contents slot = []
  apart : ∀ slot other partition another, slot ≠ other →
    part? slot = some partition → part? other = some another →
    ∀ path ∈ partition.paths, path ∉ another.paths
  spilled : ∀ number partition, part? (.probe, number) = some partition → partition.spilled = true

namespace Kept

variable {precise : Prop} {store : Store} {side? : Side → Option ProbeSide}
  {part? : Slot → Option Partition}
variable {contents : Contents}

/-- An operation on the partition in one slot that gives up no blocks but its own changes the rows of
that slot alone. -/
theorem replace
    {slot : Slot}
    {before after : Holding}
    {rows : List Row}
    {givenUp : List String}
    (kept : Kept precise before.area.store side? part? contents)
    (found : part? slot = some before.partition)
    (moves : before.Moves after givenUp)
    (own : ∀ path ∈ givenUp, path ∈ before.partition.paths)
    (held : ∀ declared, side? slot.1 = some declared →
      after.partition.Holds precise after.area.store declared.schema rows) :
    Kept precise after.area.store side? (Function.update part? slot (some after.partition))
      (Function.update contents slot rows) := by
  refine ⟨moves.keeps.damage.trans kept.faithful, ?_, ?_, ?_, ?_⟩
  · intro other partition there
    by_cases same : other = slot
    · subst same
      rw [Function.update_self, Option.some.injEq] at there
      obtain ⟨declared, declares, _⟩ := kept.holds _ _ found
      rw [Function.update_self]
      exact ⟨declared, declares, there ▸ held declared declares⟩
    · rw [Function.update_of_ne same] at there ⊢
      obtain ⟨declared, declares, holds⟩ := kept.holds _ _ there
      refine ⟨declared, declares, holds.keeps moves.keeps ?_⟩
      intro path member lost
      exact kept.apart other slot _ _ same there found path member (own path lost)
  · intro other missing
    by_cases same : other = slot
    · subst same
      simp at missing
    · rw [Function.update_of_ne same] at missing ⊢
      exact kept.absent other missing
  · -- A new block took a path that was free, so no other partition has it.
    have fresh : ∀ other partition, other ≠ slot → part? other = some partition →
        ∀ path ∈ partition.paths, path ∉ after.partition.paths := by
      intro other partition different there path member inside
      obtain old | free := moves.fresh path inside
      · exact kept.apart other slot _ _ different there found path member old
      · obtain ⟨_, _, holds⟩ := kept.holds _ _ there
        exact holds.block?_ne_none member free
    intro first second partition another different one two path member inside
    by_cases firstHere : first = slot
    · subst firstHere
      rw [Function.update_self, Option.some.injEq] at one
      subst one
      rw [Function.update_of_ne (Ne.symm different)] at two
      exact fresh second another (Ne.symm different) two path inside member
    · rw [Function.update_of_ne firstHere] at one
      by_cases secondHere : second = slot
      · subst secondHere
        rw [Function.update_self, Option.some.injEq] at two
        subst two
        exact fresh first partition firstHere one path member inside
      · rw [Function.update_of_ne secondHere] at two
        exact kept.apart first second _ _ different one two path member inside
  · intro number partition there
    by_cases same : (Side.probe, number) = slot
    · subst same
      rw [Function.update_self, Option.some.injEq] at there
      exact there ▸ moves.spilled (kept.spilled number _ found)
    · rw [Function.update_of_ne same] at there
      exact kept.spilled number _ there

/-- What is known of contents whose rows have different numbers is known of any. -/
theorem relax (kept : Kept precise store side? part? contents) :
    Kept False store side? part? contents :=
  { kept with
    holds := fun slot partition found => by
      obtain ⟨declared, declares, holds⟩ := kept.holds slot partition found
      exact ⟨declared, declares, holds.relax⟩ }

/-- Contents outlast steps that keep all blocks and all partitions. -/
theorem keeps
    {after : Store}
    (kept : Kept precise store side? part? contents)
    (keeps : store.Keeps after []) :
    Kept precise after side? part? contents where
  faithful := keeps.damage.trans kept.faithful
  holds := by
    intro slot partition found
    obtain ⟨declared, declares, holds⟩ := kept.holds slot partition found
    exact ⟨declared, declares, holds.keeps keeps fun _ _ => List.not_mem_nil⟩
  absent := kept.absent
  apart := kept.apart
  spilled := kept.spilled

/-- Empty partitions without blocks can be put in slots that were free. -/
theorem insert
    {slot : Slot}
    {declared : ProbeSide}
    {partition : Partition}
    (kept : Kept precise store side? part? contents)
    (free : part? slot = none)
    (declares : side? slot.1 = some declared)
    (holds : partition.Holds precise store declared.schema [])
    (blocks : partition.blocks = [])
    (spilled : slot.1 = .probe → partition.spilled = true) :
    Kept precise store side? (Function.update part? slot (some partition)) contents := by
  have none : partition.paths = [] := by rw [Partition.paths, blocks, List.map_nil]
  refine ⟨kept.faithful, ?_, ?_, ?_, ?_⟩
  · intro other another there
    by_cases same : other = slot
    · subst same
      rw [Function.update_self, Option.some.injEq] at there
      rw [kept.absent _ free]
      exact ⟨declared, declares, there ▸ holds⟩
    · rw [Function.update_of_ne same] at there
      exact kept.holds _ _ there
  · intro other missing
    by_cases same : other = slot
    · exact kept.absent other (same ▸ free)
    · rw [Function.update_of_ne same] at missing
      exact kept.absent other missing
  · intro first second one another different there elsewhere path member inside
    by_cases firstHere : first = slot
    · subst firstHere
      rw [Function.update_self, Option.some.injEq] at there
      simp [← there, none] at member
    · by_cases secondHere : second = slot
      · subst secondHere
        rw [Function.update_self, Option.some.injEq] at elsewhere
        simp [← elsewhere, none] at inside
      · rw [Function.update_of_ne firstHere] at there
        rw [Function.update_of_ne secondHere] at elsewhere
        exact kept.apart first second _ _ different there elsewhere path member inside
  · intro number another there
    by_cases same : (Side.probe, number) = slot
    · subst same
      rw [Function.update_self, Option.some.injEq] at there
      exact there ▸ spilled rfl
    · rw [Function.update_of_ne same] at there
      exact kept.spilled number _ there

end Kept

/-- Key of a row of a side. -/
def ProbeSide.keyOf
    (side : ProbeSide)
    (row : Row) : Option Key :=
  side.schema.keyOf side.key row

/-- Rows of the side can be told apart by its key. -/
def ProbeSide.Keyed (side : ProbeSide) : Prop :=
  ∃ position field, side.schema.position? side.key = some position ∧
    side.schema[position]? = some field ∧ field.type.isKey = true

theorem ProbeSide.Keyed.keyPosition
    {side : ProbeSide}
    {chunk : Chunk}
    (keyed : side.Keyed)
    (fits : chunk.schema = side.schema) :
    ∃ position, chunk.keyPosition side.key = .ok position := by
  obtain ⟨position, field, named, found, key⟩ := keyed
  rw [← fits] at named found
  exact ⟨position, Chunk.keyPosition_eq_ok_iff.mpr ⟨named, field, found, key⟩⟩

theorem ProbeSide.Keyed.of_keyPosition
    {side : ProbeSide}
    {chunk : Chunk}
    {position : Nat}
    (located : chunk.keyPosition side.key = .ok position)
    (fits : chunk.schema = side.schema) :
    side.Keyed := by
  obtain ⟨named, field, found, key⟩ := Chunk.keyPosition_eq_ok_iff.mp located
  rw [fits] at named found
  exact ⟨position, field, named, found, key⟩

/-- What partitioned input is set up for, and where its partitions stand. -/
structure Outline where
  params : Params
  side? : Side → Option ProbeSide
  size : Nat
  place? : Nat → Option PartitionPlace

namespace Partitioned

/-- The declared schema and key of a side. -/
def side? (input : Partitioned) : Side → Option ProbeSide
  | .build => some ⟨input.buildSchema, input.buildKey⟩
  | .probe => input.probeSide

/-- Key of a row of a side. -/
def keyOf
    (input : Partitioned)
    (side : Side)
    (row : Row) : Option Key :=
  (input.side? side).bind fun declared => declared.keyOf row

/-- Bucket of a row of a side at a level. -/
def bucketOf
    (input : Partitioned)
    (side : Side)
    (level : Nat)
    (row : Row) : Nat :=
  (input.directory level).bucketOfKey (input.keyOf side row)

theorem bucketOf_of_side?
    {input : Partitioned}
    {side : Side}
    {declared : ProbeSide}
    (declares : input.side? side = some declared)
    (level : Nat)
    (row : Row) :
    input.bucketOf side level row = (input.directory level).bucketOfKey (declared.keyOf row) := by
  rw [bucketOf, keyOf, declares, Option.bind_some]

theorem bucketOf_lt
    (input : Partitioned)
    (side : Side)
    (level : Nat)
    (row : Row) :
    input.bucketOf side level row < input.params.partitionCount :=
  Directory.bucketOfKey_lt _ _

/-- The outline of partitioned input. -/
def outline (input : Partitioned) : Outline where
  params := input.params
  side? := input.side?
  size := input.arena.size
  place? := input.arena.place?

/-- The partition in every slot holds the rows that the contents name. -/
def Holds
    (input : Partitioned)
    (precise : Prop)
    (contents : Contents) : Prop :=
  Kept precise input.area.store input.side? input.arena.part? contents

/-- Changing a record apart from its place keeps the outline. -/
theorem outline_modify
    (input : Partitioned)
    (area : SpillArea)
    (partition : Nat)
    {change : PartitionRecord → PartitionRecord}
    (same : ∀ record, (change record).place = record.place) :
    outline { input with area, arena := input.arena.modify partition change } = input.outline := by
  simp only [outline, Arena.size_modify, Arena.place?_modify _ _ same]
  rfl

/-! ## Inputs that are set up alike -/

section Setting

variable {before after : Partitioned}
variable (params : after.params = before.params) (side? : after.side? = before.side?)

include params

theorem directory_of_params (level : Nat) : after.directory level = before.directory level := by
  simp only [directory, params]

include side?

theorem bucketOf_of_setting : after.bucketOf = before.bucketOf := by
  funext side level row
  rw [bucketOf, bucketOf, keyOf, keyOf, directory_of_params params, side?]

end Setting

section Outline

variable {before after : Partitioned} (same : after.outline = before.outline)

include same

theorem params_of_outline : after.params = before.params :=
  congrArg Outline.params same

theorem side?_of_outline : after.side? = before.side? :=
  congrArg Outline.side? same

theorem place?_of_outline : after.arena.place? = before.arena.place? :=
  congrArg Outline.place? same

theorem size_of_outline : after.arena.size = before.arena.size :=
  congrArg Outline.size same

end Outline

end Partitioned

end Spillway
