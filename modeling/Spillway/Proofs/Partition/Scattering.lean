import Mathlib.Data.List.Basic
import Spillway.Partition.Directory
import Spillway.Proofs.Data.Numbers

/-!
# Rows noted by their numbers

A directory goes through the rows of a chunk once and notes the number of each under the bucket of its key.
When it is done, the numbers under a bucket are those of the rows of the bucket, in order. So every part of a
split chunk has as many rows as its bucket, and all of them are rows of the chunk. If the rows have different
numbers, the part has exactly the rows of the bucket, in order, and splitting a chunk is the same as keeping
the rows of one bucket after the other.
-/

namespace Spillway

namespace Directory

variable {directory : Directory} {chunk : Chunk} {position bucket : Nat}

/-! ## Numbers -/

/-- Noting one row adds its number to those of its bucket and to no others. -/
theorem getElem?_note
    (directory : Directory)
    (position : Nat)
    (noted : List (List UInt32))
    (found : Row × Nat)
    (bucket : Nat) :
    (directory.note position noted found)[bucket]? =
      noted[bucket]?.map fun numbers =>
        if directory.bucketOfKey (Chunk.rowKey position found.1) = bucket then
          found.2.toUInt32 :: numbers
        else numbers := by
  rw [note, bucketOfRow_eq, List.getElem?_modify]
  by_cases here : directory.bucketOfKey (Chunk.rowKey position found.1) = bucket <;> simp [here]

/-- Noting rows one after the other puts the numbers of a bucket in front of those already noted, the last
one first. -/
theorem getElem?_foldl_note
    (directory : Directory)
    (position : Nat)
    (noted : List (List UInt32))
    (found : List (Row × Nat))
    (bucket : Nat) :
    (found.foldl (directory.note position) noted)[bucket]? =
      noted[bucket]?.map fun numbers =>
        (numbersOf (fun row => directory.bucketOfKey (Chunk.rowKey position row) = bucket)
          found).reverse ++ numbers := by
  induction found generalizing noted with
  | nil => simp [numbersOf]
  | cons first found inductionHypothesis =>
      rw [List.foldl_cons, inductionHypothesis, getElem?_note, Option.map_map]
      refine congrArg (Option.map · _) (funext fun numbers => ?_)
      by_cases here : directory.bucketOfKey (Chunk.rowKey position first.1) = bucket <;>
        simp [numbersOf, here]

/-- The numbers under a bucket are those of the rows of the bucket, in order. -/
theorem numbers_eq
    (directory : Directory)
    (chunk : Chunk)
    (position : Nat) :
    directory.numbers chunk position =
      (List.range directory.fanOut).map fun bucket =>
        numbersOf (fun row => directory.bucketOfKey (Chunk.rowKey position row) = bucket)
          chunk.rows.zipIdx := by
  apply List.ext_getElem?
  intro bucket
  rw [numbers, List.getElem?_map, getElem?_foldl_note, List.getElem?_map]
  by_cases inside : bucket < directory.fanOut
  · simp [inside]
  · simp [inside]

/-! ## Rows by number -/

/-- The part of a chunk for the rows that satisfy a condition: it has as many rows, and only rows of the
chunk. If the rows have different numbers, it has these rows, in order. -/
structure PartOf
    (chunk : Chunk)
    (keep : Row → Bool)
    (part : Chunk) : Prop where
  schema : part.schema = chunk.schema
  occupied : part.isEmpty = false
  length : part.length = (chunk.rows.filter keep).length
  within : ∀ row ∈ part.rows, row ∈ chunk.rows
  exact : chunk.Numbered → part.rows = chunk.rows.filter keep

/-- What is taken by the numbers of some rows is the part for these rows, also where it is the chunk as it
is. -/
theorem partOf_of_part
    {keep : Row → Bool}
    {taken : Chunk}
    (parts : part chunk (numbersOf keep chunk.rows.zipIdx) = some taken) :
    PartOf chunk keep taken := by
  rw [part] at parts
  split at parts
  · cases parts
  next occupied =>
  have present : (chunk.rows.filter keep).length ≠ 0 := by
    rw [← length_numbersOf]
    exact fun none => occupied (List.isEmpty_iff_length_eq_zero.mpr none)
  have some_of : ∀ {other : Chunk}, other.length = (chunk.rows.filter keep).length →
      other.isEmpty = false := by
    intro other length
    rw [Chunk.isEmpty, ← Bool.not_eq_true, List.isEmpty_iff_length_eq_zero, ← Chunk.length, length]
    exact present
  split at parts
  case isTrue all =>
    cases parts
    rw [length_numbersOf] at all
    refine ⟨rfl, some_of all.symm, all.symm, fun _ => id, fun _ => ?_⟩
    exact (List.filter_eq_self.mpr (List.length_filter_eq_length_iff.mp all)).symm
  case isFalse =>
    cases parts
    have rows : (chunk.take ((numbersOf keep chunk.rows.zipIdx).map UInt32.toNat)).rows =
        (numbersOf keep chunk.rows.zipIdx).filterMap fun number => chunk.rows[number.toNat]? := by
      rw [Chunk.rows_take, List.filterMap_map]
      rfl
    have length : (chunk.take ((numbersOf keep chunk.rows.zipIdx).map UInt32.toNat)).length =
        (chunk.rows.filter keep).length := by
      rw [Chunk.length, rows, length_filterMap_numbersOf]
    refine ⟨rfl, some_of length, length, fun row member => ?_, fun short => ?_⟩
    · rw [rows] at member
      obtain ⟨number, -, found⟩ := List.mem_filterMap.mp member
      exact List.mem_of_getElem? found
    · rw [rows, filterMap_numbersOf short]

/-- There is no part for the rows that satisfy a condition exactly if there are no such rows. -/
theorem part_eq_none_iff {keep : Row → Bool} :
    part chunk (numbersOf keep chunk.rows.zipIdx) = none ↔ chunk.rows.filter keep = [] := by
  have vacant : (numbersOf keep chunk.rows.zipIdx).isEmpty = true ↔ chunk.rows.filter keep = [] := by
    rw [List.isEmpty_iff_length_eq_zero, length_numbersOf, List.length_eq_zero_iff]
  rw [← vacant, part]
  split
  · next empty => exact ⟨fun _ => empty, fun _ => rfl⟩
  · next occupied =>
    refine ⟨fun none => ?_, fun empty => absurd empty occupied⟩
    split at none <;> cases none

/-- Where all rows satisfy the condition, their part is the chunk as it is. -/
theorem part_of_all
    {keep : Row → Bool}
    (present : chunk.rows ≠ [])
    (all : ∀ row ∈ chunk.rows, keep row = true) :
    part chunk (numbersOf keep chunk.rows.zipIdx) = some chunk := by
  have length : (numbersOf keep chunk.rows.zipIdx).length = chunk.length := by
    rw [length_numbersOf, List.filter_eq_self.mpr all, Chunk.length]
  rw [part, if_neg, if_pos length]
  rw [List.isEmpty_iff_length_eq_zero, length]
  exact mt List.length_eq_zero_iff.mp present

/-- What a slot gets for the rows that satisfy a condition: their part, or nothing if there are none, or the
chunk as it is if these are all rows. -/
structure Gets
    (chunk : Chunk)
    (keep : Row → Bool)
    (slot : Option Chunk) : Prop where
  vacant : slot = none ↔ chunk.rows.filter keep = []
  partOf : ∀ part, slot = some part → PartOf chunk keep part
  whole : chunk.rows ≠ [] → (∀ row ∈ chunk.rows, keep row = true) → slot = some chunk

/-- A chunk is split into one slot for each bucket. -/
structure Deals
    (directory : Directory)
    (key : String)
    (chunk : Chunk)
    (slots : List (Option Chunk)) : Prop where
  length_eq : slots.length = directory.fanOut
  gets : ∀ bucket slot, slots[bucket]? = some slot →
    Gets chunk (fun row => directory.bucketOfKey (chunk.schema.keyOf key row) = bucket) slot

theorem deals_of_split
    {key : String}
    {slots : List (Option Chunk)}
    (splits : directory.split chunk key = .ok slots) :
    directory.Deals key chunk slots := by
  rw [split] at splits
  split at splits
  case isTrue empty =>
    cases splits
    have none : chunk.rows = [] := List.isEmpty_iff.mp empty
    refine ⟨List.length_replicate, fun bucket slot found => ?_⟩
    obtain ⟨_, rfl⟩ := List.mem_replicate.mp (List.mem_of_getElem? found)
    exact ⟨by simp [none], nofun, fun present => absurd none present⟩
  case isFalse =>
    simp only [bind_eq_ok_iff, pure_eq_ok_iff] at splits
    obtain ⟨position, located, rfl⟩ := splits
    obtain ⟨named, _⟩ := Chunk.keyPosition_eq_ok_iff.mp located
    rw [numbers_eq, List.map_map]
    refine ⟨by rw [List.length_map, List.length_range], fun bucket slot found => ?_⟩
    obtain ⟨inside, rfl⟩ := List.getElem?_eq_some_iff.mp found
    rw [List.getElem_map, List.getElem_range, Function.comp_apply]
    simp only [Schema.keyOf_of_position? named]
    exact ⟨part_eq_none_iff, fun _ => partOf_of_part, part_of_all⟩

namespace Deals

variable {key : String} {slots : List (Option Chunk)} {part : Chunk}
  (deals : directory.Deals key chunk slots)
include deals

/-- Every part is that of some bucket. -/
theorem exists_partOf (member : some part ∈ slots) :
    ∃ bucket, PartOf chunk (fun row => directory.bucketOfKey (chunk.schema.keyOf key row) = bucket)
      part := by
  obtain ⟨bucket, inside, found⟩ := List.getElem_of_mem member
  exact ⟨bucket, (deals.gets bucket _ (List.getElem?_eq_some_iff.mpr ⟨inside, found⟩)).partOf part rfl⟩

theorem schema_eq (member : some part ∈ slots) : part.schema = chunk.schema :=
  (deals.exists_partOf member).elim fun _ => PartOf.schema

/-- The parts of a split chunk have rows. -/
theorem isEmpty_eq_false (member : some part ∈ slots) : part.isEmpty = false :=
  (deals.exists_partOf member).elim fun _ => PartOf.occupied

/-- If all rows belong to one bucket, its slot gets the chunk as it is, and the others get nothing. -/
theorem slot_eq
    {index : Nat}
    {slot : Option Chunk}
    (occupied : chunk.isEmpty = false)
    (together : ∀ row ∈ chunk.rows, directory.bucketOfKey (chunk.schema.keyOf key row) = bucket)
    (found : slots[index]? = some slot) :
    slot = if index = bucket then some chunk else none := by
  have gets := deals.gets index slot found
  split
  · next same =>
    exact gets.whole (List.isEmpty_eq_false_iff.mp occupied) fun row member =>
      decide_eq_true (same ▸ together row member)
  · next different =>
    refine gets.vacant.mpr (List.filter_eq_nil_iff.mpr fun row member here => different ?_)
    exact (of_decide_eq_true here).symm.trans (together row member)

/-- The parts are no longer than the chunk. -/
theorem numbered
    (numbered : chunk.Numbered)
    (member : some part ∈ slots) :
    part.Numbered := by
  obtain ⟨bucket, taken⟩ := deals.exists_partOf member
  exact Nat.le_trans (Nat.le_of_eq taken.length) (Nat.le_trans (List.length_filter_le _ _) numbered)

/-- The parts suit what the chunk suits. -/
theorem suits
    {precise : Prop}
    {schema : Schema}
    (suits : chunk.Suits precise schema)
    (member : some part ∈ slots) :
    part.Suits precise schema :=
  ⟨(deals.schema_eq member).trans suits.schema_eq, fun is => deals.numbered (suits.numbered is) member⟩

end Deals

end Directory
end Spillway
