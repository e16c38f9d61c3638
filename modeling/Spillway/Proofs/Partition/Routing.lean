import Mathlib.Data.List.Flatten
import Mathlib.Data.List.Nodup
import Spillway.Proofs.Data.Chunk
import Spillway.Proofs.Partition.Scattering

/-!
# Rows by bucket

A directory deals every row of a chunk to the bucket of its key, so each part of a split chunk whose rows
have different numbers is the run of the rows of one bucket, in order, and the parts together are the rows of
the chunk. Rows of equal keys share their bucket.
-/

namespace Spillway

namespace Directory

/-- The rows of a part of a split chunk; a part that is missing has none. -/
def partRows (part : Option Chunk) : List Row :=
  part.elim [] Chunk.rows

theorem bucketOfKey_lt
    (directory : Directory)
    (key : Option Key) :
    directory.bucketOfKey key < directory.fanOut :=
  directory.bucketOf_lt _

/-- If the rows of the chunk have different numbers, each slot gets the rows of its bucket, in order. -/
theorem Deals.rows_eq
    {directory : Directory}
    {key : String}
    {chunk : Chunk}
    {parts : List (Option Chunk)}
    (deals : directory.Deals key chunk parts)
    (numbered : chunk.Numbered)
    (bucket : Nat)
    (part : Option Chunk)
    (found : parts[bucket]? = some part) :
    partRows part =
      chunk.rows.filter fun row => directory.bucketOfKey (chunk.schema.keyOf key row) = bucket := by
  have gets := deals.gets bucket part found
  cases part with
  | none => exact (gets.vacant.mp rfl).symm
  | some part => exact (gets.partOf part rfl).exact numbered

/-- Places that are counted from an offset, after the first one is taken off. -/
theorem getElem?_cons_sub_iff
    {α : Type}
    {first value : α}
    {rest : List α}
    {offset index : Nat} :
    (offset ≤ index ∧ (first :: rest)[index - offset]? = some value) ↔
      (index = offset ∧ first = value) ∨
        (offset + 1 ≤ index ∧ rest[index - (offset + 1)]? = some value) := by
  by_cases here : index = offset
  · subst here
    simp only [Nat.le_refl, Nat.sub_self, List.getElem?_cons_zero, Option.some.injEq, true_and,
      Nat.not_succ_le_self, false_and, or_false]
  · by_cases later : offset + 1 ≤ index
    · have shifted : index - offset = index - (offset + 1) + 1 := by omega
      simp only [here, later, shifted, List.getElem?_cons_succ, Nat.le_of_succ_le later, true_and,
        false_and, false_or]
    · simp only [here, later, show ¬ offset ≤ index by omega, false_and, or_self]

/-- What a target gets of parts that are dealt to different targets: the rows of its bucket. -/
theorem flatMap_partRows_zip
    {rows : List Row}
    {bucket : Row → Nat}
    {targets : List Nat}
    {parts : List (Option Chunk)}
    (distinct : targets.Nodup)
    (matching : parts.length = targets.length)
    (rows_eq : ∀ index part, parts[index]? = some part →
      partRows part = rows.filter fun row => bucket row = index)
    (target : Nat) :
    ((targets.zip parts).flatMap fun pair =>
        if pair.1 = target then partRows pair.2 else []) =
      rows.filter fun row => targets[bucket row]? = some target := by
  -- The buckets are counted from an offset, so that the first part can be taken off.
  suffices counted : ∀ offset, (∀ index part, parts[index]? = some part →
      partRows part = rows.filter fun row => bucket row = offset + index) →
      ((targets.zip parts).flatMap fun pair =>
          if pair.1 = target then partRows pair.2 else []) =
        rows.filter fun row =>
          offset ≤ bucket row ∧ targets[bucket row - offset]? = some target by
    simpa using counted 0 (by simpa using rows_eq)
  clear rows_eq
  induction targets generalizing parts with
  | nil => simp
  | cons first targets inductionHypothesis =>
      intro offset rows_eq
      cases parts with
      | nil => simp at matching
      | cons part parts =>
          rw [List.nodup_cons] at distinct
          have rest := inductionHypothesis distinct.2 (by simpa using matching) (offset + 1)
            fun index part found => by
              rw [rows_eq (index + 1) part (by simpa using found)]
              simp only [Nat.add_assoc, Nat.add_comm 1]
          have head := rows_eq 0 part rfl
          rw [List.zip_cons_cons, List.flatMap_cons, rest]
          simp only [getElem?_cons_sub_iff]
          by_cases here : first = target
          · have nowhere : ∀ index, targets[index]? ≠ some target := fun index found =>
              distinct.1 (here ▸ List.mem_of_getElem? found)
            rw [if_pos here, head]
            simp [nowhere, here]
          · rw [if_neg here, List.nil_append]
            simp [here]

/-- Parts that are dealt to the buckets themselves. -/
theorem flatMap_zip_range
    {α : Type}
    {count : Nat}
    {rows : List Row}
    {bucket : Row → Nat}
    {parts : List (Option Chunk)}
    (function : Nat → List Row → List α)
    (matching : parts.length = count)
    (rows_eq : ∀ index part, parts[index]? = some part →
      partRows part = rows.filter fun row => bucket row = index) :
    (((List.range count).zip parts).flatMap fun pair => function pair.1 (partRows pair.2)) =
      (List.range count).flatMap fun index =>
        function index (rows.filter fun row => bucket row = index) := by
  rw [List.flatMap_def, List.flatMap_def]
  congr 1
  apply List.ext_getElem
  · simp [matching]
  · intro index here there
    have inside : index < parts.length := by
      simp only [List.length_map, List.length_zip, List.length_range] at here
      omega
    simp only [List.getElem_map, List.getElem_zip, List.getElem_range]
    rw [rows_eq index _ (List.getElem?_eq_getElem inside)]

end Directory

/-- Filtering a list before mapping its members to lists, where the others are mapped to the empty
list. -/
theorem flatMap_filter
    {α β : Type}
    {keep : α → Bool}
    {function : α → List β}
    {values : List α}
    (empty : ∀ value ∈ values, keep value = false → function value = []) :
    (values.filter keep).flatMap function = values.flatMap function := by
  induction values with
  | nil => rfl
  | cons value values inductionHypothesis =>
      have rest := inductionHypothesis fun other member => empty other (List.mem_cons_of_mem _ member)
      cases kept : keep value with
      | false => rw [List.filter_cons_of_neg (by simp [kept]), List.flatMap_cons, rest,
          empty value List.mem_cons_self kept, List.nil_append]
      | true => rw [List.filter_cons_of_pos kept, List.flatMap_cons, List.flatMap_cons, rest]

/-- More values for one member of a list are more values for the list. -/
theorem perm_flatMap_add
    {α β : Type}
    {function more : α → List β}
    {extra : List β}
    {member : α}
    {values : List α}
    (distinct : values.Nodup)
    (inside : member ∈ values)
    (here : more member = function member ++ extra)
    (others : ∀ value, value ≠ member → more value = function value) :
    (values.flatMap more).Perm (values.flatMap function ++ extra) := by
  induction values with
  | nil => exact absurd inside List.not_mem_nil
  | cons value values inductionHypothesis =>
      rw [List.nodup_cons] at distinct
      rw [List.flatMap_cons, List.flatMap_cons, List.append_assoc]
      by_cases same : value = member
      · subst same
        have rest : values.flatMap more = values.flatMap function :=
          List.flatMap_congr fun other inside => others other fun equal => distinct.1 (equal ▸ inside)
        rw [here, rest, List.append_assoc]
        exact List.perm_append_comm.append_left _
      · rw [others value same]
        have later : member ∈ values := (List.mem_cons.mp inside).resolve_left (Ne.symm same)
        exact (inductionHypothesis distinct.2 later).append_left _

/-- Only one of the indices contributes. -/
theorem flatMap_range_single
    {α : Type}
    {function : Nat → List α}
    {count index : Nat}
    (known : index < count) :
    ((List.range count).flatMap fun other => if other = index then function other else []) =
      function index := by
  have once : (List.range count).filter (· = index) = [index] := by
    rw [List.filter_eq, List.count_eq_one_of_mem List.nodup_range (List.mem_range.mpr known)]
    rfl
  have same : ((List.range count).filter (· = index)).flatMap
        (fun other => if other = index then function other else []) =
      (List.range count).flatMap fun other => if other = index then function other else [] :=
    flatMap_filter fun other _ different => if_neg (of_decide_eq_false different)
  rw [← same, once, List.flatMap_singleton, if_pos rfl]

/-- Values dealt to buckets are a rearrangement of the values. -/
theorem perm_flatMap_filter_range
    {α : Type}
    {values : List α}
    {bucket : α → Nat}
    {count : Nat}
    (bounded : ∀ value ∈ values, bucket value < count) :
    ((List.range count).flatMap fun index =>
      values.filter fun value => bucket value = index).Perm values := by
  induction count generalizing values with
  | zero =>
      cases values with
      | nil => exact .refl _
      | cons value values => exact absurd (bounded value List.mem_cons_self) (Nat.not_lt_zero _)
  | succ count inductionHypothesis =>
      have below : ∀ value ∈ values.filter fun value => bucket value ≠ count,
          bucket value < count := by
        intro value member
        obtain ⟨inside, different⟩ := List.mem_filter.mp member
        have bound := bounded value inside
        have different : bucket value ≠ count := by simpa using different
        omega
      have same : ∀ index ∈ List.range count,
          (values.filter fun value => bucket value = index) =
            (values.filter fun value => bucket value ≠ count).filter
              fun value => bucket value = index := by
        intro index member
        rw [List.filter_filter]
        apply List.filter_congr
        intro value _
        have bound := List.mem_range.mp member
        by_cases here : bucket value = index
        · simp [here, show index ≠ count by omega]
        · simp [here]
      rw [List.range_succ, List.flatMap_append, List.flatMap_singleton,
        List.flatMap_congr same]
      have halves := List.filter_append_perm (fun value => decide (bucket value ≠ count)) values
      simp only [ne_eq, decide_not, Bool.not_not] at halves ⊢
      exact ((inductionHypothesis (by simpa using below)).append_right _).trans halves

end Spillway
