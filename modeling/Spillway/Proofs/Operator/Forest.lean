import Spillway.Proofs.Operator.Changes
import Spillway.Proofs.Operator.Leaves

/-!
# Forests of partitions

Every partition but the roots was added below one that was there before it, one level deeper, and its number
was put at the end of the children of that one. So a child comes after its parent, and whoever climbs from a
partition to its parent, and on from there, is at a root after as many steps as there are levels above the
partition. An addition that is refused changes nothing.
-/

namespace Spillway
namespace Arena

variable {arena grown : Arena} {record old : PartitionRecord} {partition number : Nat}

/-- The parent of a partition, if it has one. -/
def parent? (arena : Arena) (partition : Nat) : Option Nat :=
  arena.records[partition]?.bind PartitionRecord.parent

/-- The bucket of a partition. -/
def bucket? (arena : Arena) (partition : Nat) : Option Nat :=
  arena.records[partition]?.map PartitionRecord.bucket

/-- The partitions that name a partition as their parent, in order of creation. -/
def naming (arena : Arena) (partition : Nat) : List Nat :=
  (List.range arena.size).filter fun other => arena.parent? other = some partition

/-! ## Additions -/

/-- A record with a further child, if it is the parent of that. -/
def adopt (arena : Arena) (child : PartitionRecord) (partition : Nat) (record : PartitionRecord) :
    PartitionRecord :=
  { record with
    children := record.children ++ if child.parent = some partition then [arena.size] else [] }

theorem adopt_of_ne
    (apart : record.parent ≠ some partition)
    (arena : Arena) :
    arena.adopt record partition = id := by
  funext old
  simp [adopt, apart]

/-- A partition is added if there is room for one more and its parent, if it names one, is there, one level
above it. It gets the next number. -/
theorem of_add_eq_ok (added : arena.add record = .ok (number, grown)) :
    number = arena.size ∧ arena.size < capacity ∧ grown.size = arena.size + 1 ∧
      (∀ parent, record.parent = some parent →
        ∃ above, arena.records[parent]? = some above ∧ record.level = above.level + 1) ∧
      ∀ other, grown.records[other]? =
        if other = arena.size then some record
        else arena.records[other]?.map (arena.adopt record other) := by
  cases child : record.parent with
  | none =>
      simp only [add, child] at added
      split at added
      · obtain ⟨_, thrown, _⟩ := bind_eq_ok_iff.mp added
        exact absurd thrown throw_ne_ok
      rename_i room
      rw [pure_eq_ok_iff, Prod.mk.injEq] at added
      obtain ⟨rfl, rfl⟩ := added
      refine ⟨rfl, Nat.lt_of_not_le room, Array.size_push _, fun _ named => ?_, fun other => ?_⟩
      · exact absurd named.symm (Option.some_ne_none _)
      rw [push, Array.getElem?_push, adopt_of_ne (by simp [child]), Option.map_id]
      rfl
  | some parent =>
      simp only [add, child] at added
      split at added
      · obtain ⟨_, thrown, _⟩ := bind_eq_ok_iff.mp added
        exact absurd thrown throw_ne_ok
      rename_i room
      obtain ⟨above, there, added⟩ := bind_eq_ok_iff.mp added
      rw [record_eq_ok_iff] at there
      split at added
      · obtain ⟨_, thrown, _⟩ := bind_eq_ok_iff.mp added
        exact absurd thrown throw_ne_ok
      rename_i level
      rw [pure_eq_ok_iff, Prod.mk.injEq] at added
      obtain ⟨rfl, rfl⟩ := added
      refine ⟨rfl, Nat.lt_of_not_le room, by simp [size, push, modify], fun _ same => ?_, fun other => ?_⟩
      · cases same
        exact ⟨above, there, (not_not.mp level).symm⟩
      · rw [push, modify, Array.getElem?_push, Array.size_modify, Array.getElem?_modify]
        by_cases here : parent = other
        · have same : arena.adopt record other =
              fun above => { above with children := above.children ++ [arena.size] } := by
            funext above
            simp [adopt, child, here]
          rw [if_pos here, same]
          rfl
        · rw [if_neg here, adopt_of_ne (by simp [child, here]), Option.map_id]
          rfl

/-- After an addition a record is the new one, or it was there before. -/
theorem cases_of_add
    {other : Nat}
    {found : PartitionRecord}
    (added : arena.add record = .ok (number, grown))
    (there : grown.records[other]? = some found) :
    (other = arena.size ∧ found = record) ∨
      ∃ old, arena.records[other]? = some old ∧ found = arena.adopt record other old := by
  obtain ⟨-, -, -, -, records⟩ := of_add_eq_ok added
  rw [records] at there
  split at there
  · next here => exact .inl ⟨here, (Option.some.inj there).symm⟩
  · obtain ⟨old, was, same⟩ := Option.map_eq_some_iff.mp there
    exact .inr ⟨old, was, same.symm⟩

/-- Records stay where they are when another one is added. -/
theorem getElem?_of_add
    {other : Nat}
    (added : arena.add record = .ok (number, grown))
    (found : arena.records[other]? = some old) :
    grown.records[other]? = some (arena.adopt record other old) := by
  obtain ⟨-, -, -, -, records⟩ := of_add_eq_ok added
  have different : other ≠ arena.size := Nat.ne_of_lt (Array.getElem?_eq_some_iff.mp found).1
  rw [records, if_neg different, found]
  rfl

theorem parent?_of_add
    (added : arena.add record = .ok (number, grown))
    (other : Nat) :
    grown.parent? other = if other = arena.size then record.parent else arena.parent? other := by
  obtain ⟨-, -, -, -, records⟩ := of_add_eq_ok added
  rw [parent?, records]
  split
  · rfl
  · rw [parent?]
    cases arena.records[other]? <;> rfl

theorem bucket?_of_add
    (added : arena.add record = .ok (number, grown))
    (other : Nat) :
    grown.bucket? other = if other = arena.size then some record.bucket else arena.bucket? other := by
  obtain ⟨-, -, -, -, records⟩ := of_add_eq_ok added
  rw [bucket?, records]
  split
  · rfl
  · rw [bucket?]
    cases arena.records[other]? <;> rfl

/-- A new partition is named last. -/
theorem naming_of_add
    (added : arena.add record = .ok (number, grown))
    (partition : Nat) :
    grown.naming partition =
      arena.naming partition ++ if record.parent = some partition then [arena.size] else [] := by
  obtain ⟨-, -, size, -, -⟩ := of_add_eq_ok added
  rw [naming, naming, size, List.range_succ, List.filter_append]
  congr 1
  · refine List.filter_congr fun other member => ?_
    rw [parent?_of_add added, if_neg (Nat.ne_of_lt (List.mem_range.mp member))]
  · rw [List.filter_singleton, parent?_of_add added, if_pos rfl]
    split <;> simp_all

/-! ## Forests -/

/-- The roots are at level zero. Every other partition comes after its parent and is one level below it. The
children of a partition are those that name it as their parent, in order of creation. -/
structure Forest (arena : Arena) : Prop where
  root : ∀ {partition : Nat} {record : PartitionRecord},
    arena.records[partition]? = some record → record.parent = none → record.level = 0
  child : ∀ {partition parent : Nat} {record : PartitionRecord},
    arena.records[partition]? = some record → record.parent = some parent →
      parent < partition ∧
        ∃ above, arena.records[parent]? = some above ∧ record.level = above.level + 1
  children : ∀ {partition : Nat} {record : PartitionRecord},
    arena.records[partition]? = some record → record.children = arena.naming partition

/-- Nothing changes where there is no partition. -/
theorem modify_of_none
    (missing : arena.records[partition]? = none)
    (change : PartitionRecord → PartitionRecord) :
    arena.modify partition change = arena := by
  refine congrArg Arena.mk (Array.ext_getElem? fun other => ?_)
  rw [Array.getElem?_modify]
  split
  · next same => rw [← same, missing, Option.map_none]
  · rfl

/-- A change that leaves a record where it is in the forest. -/
def Stays (change : PartitionRecord → PartitionRecord) : Prop :=
  ∀ record, (change record).parent = record.parent ∧ (change record).level = record.level ∧
    (change record).bucket = record.bucket ∧ (change record).children = record.children

section Stays

variable {change : PartitionRecord → PartitionRecord} (stays : Stays change) (arena partition)
include stays

theorem Stays.parent? : (arena.modify partition change).parent? = arena.parent? := by
  funext other
  unfold Arena.parent? modify
  rw [Array.getElem?_modify]
  split
  · cases arena.records[other]? with
    | none => rfl
    | some record => exact (stays record).1
  · rfl

theorem Stays.bucket? : (arena.modify partition change).bucket? = arena.bucket? := by
  funext other
  unfold Arena.bucket? modify
  rw [Array.getElem?_modify]
  split
  · cases arena.records[other]? with
    | none => rfl
    | some record => exact congrArg some (stays record).2.2.1
  · rfl

theorem Stays.naming : (arena.modify partition change).naming = arena.naming := by
  funext other
  rw [Arena.naming, Arena.naming, stays.parent?, size_modify]

/-- A record of a changed arena, and the one before. -/
theorem Stays.exists_old
    {other : Nat}
    (found : (arena.modify partition change).records[other]? = some record) :
    ∃ old, arena.records[other]? = some old ∧ record.parent = old.parent ∧ record.level = old.level ∧
      record.children = old.children ∧ record = if partition = other then change old else old := by
  obtain ⟨old, there, rfl⟩ := Partitioned.exists_of_getElem?_modify found
  refine ⟨old, there, ?_⟩
  split
  · exact ⟨(stays old).1, (stays old).2.1, (stays old).2.2.2, rfl⟩
  · exact ⟨rfl, rfl, rfl, rfl⟩

end Stays

theorem Forest.modify
    {change : PartitionRecord → PartitionRecord}
    (forest : arena.Forest)
    (stays : Stays change)
    (partition : Nat) :
    (arena.modify partition change).Forest where
  root found none := by
    obtain ⟨old, there, parent, level, -, -⟩ := stays.exists_old _ _ found
    exact level.trans (forest.root there (parent ▸ none))
  child {other parent _} found some := by
    obtain ⟨old, there, named, level, -, -⟩ := stays.exists_old _ _ found
    obtain ⟨earlier, above, foundAbove, next⟩ := forest.child there (named ▸ some)
    refine ⟨earlier, _, Partitioned.getElem?_modify foundAbove partition change, level.trans ?_⟩
    split
    · rw [next, (stays above).2.1]
    · exact next
  children found := by
    obtain ⟨old, there, -, -, children, -⟩ := stays.exists_old _ _ found
    rw [stays.naming, children, forest.children there]

/-- A new partition without children stays a forest, wherever it is added. -/
theorem Forest.add
    (forest : arena.Forest)
    (added : arena.add record = .ok (number, grown))
    (root : record.parent = none → record.level = 0)
    (bare : record.children = []) :
    grown.Forest := by
  obtain ⟨-, -, -, admits, -⟩ := of_add_eq_ok added
  -- Nobody names a partition that is not there.
  have unnamed : arena.naming arena.size = [] := by
    refine List.filter_eq_nil_iff.mpr fun other member named => ?_
    obtain ⟨old, there, parent⟩ := Option.bind_eq_some_iff.mp (of_decide_eq_true named)
    exact absurd (forest.child there parent).1 (Nat.not_lt_of_gt (List.mem_range.mp member))
  refine ⟨fun found none => ?_, fun {other parent _} found named => ?_, fun {other _} found => ?_⟩
  · obtain ⟨-, rfl⟩ | ⟨old, was, rfl⟩ := cases_of_add added found
    · exact root none
    · have level := forest.root was none
      exact level
  · obtain ⟨rfl, rfl⟩ | ⟨old, was, rfl⟩ := cases_of_add added found
    · obtain ⟨above, there, level⟩ := admits parent named
      exact ⟨(Array.getElem?_eq_some_iff.mp there).1, _, getElem?_of_add added there, level⟩
    · obtain ⟨earlier, above, there, level⟩ := forest.child was named
      exact ⟨earlier, _, getElem?_of_add added there, level⟩
  · rw [naming_of_add added]
    obtain ⟨rfl, rfl⟩ | ⟨old, was, rfl⟩ := cases_of_add added found
    · rw [unnamed, bare, List.nil_append, if_neg]
      intro own
      obtain ⟨above, there, -⟩ := admits _ own
      exact Nat.lt_irrefl _ (Array.getElem?_eq_some_iff.mp there).1
    · rw [adopt, forest.children was]

/-! ## Climbing -/

/-- Whoever climbs from a partition to its parent, and on from there, passes these partitions and then is at
a root. -/
inductive Climbs (arena : Arena) : Nat → List Nat → Prop where
  | root
      {partition : Nat}
      {record : PartitionRecord}
      (found : arena.records[partition]? = some record)
      (root : record.parent = none) :
      Climbs arena partition []
  | child
      {partition parent : Nat}
      {record : PartitionRecord}
      {above : List Nat}
      (found : arena.records[partition]? = some record)
      (child : record.parent = some parent)
      (climbs : Climbs arena parent above) :
      Climbs arena partition (parent :: above)

/-- In a forest every climb ends, after as many steps as there are levels above. -/
theorem Forest.climbs
    (forest : arena.Forest)
    (found : arena.records[partition]? = some record) :
    arena.ancestors partition = .ok (arena.above partition) ∧
      arena.Climbs partition (arena.above partition) ∧
      (arena.above partition).length = record.level := by
  have known : arena.ancestors partition = .ok (arena.above partition) :=
    bind_eq_ok_iff.mpr ⟨record, record_eq_ok_iff.mpr found, rfl⟩
  refine ⟨known, ?_⟩
  clear known
  induction partition using Nat.strongRecOn generalizing record with
  | ind partition inductionHypothesis =>
      rw [above_of_place? (place?_of_record found), PartitionRecord.place]
      cases named : record.parent with
      | none => exact ⟨.root found named, (forest.root found named).symm⟩
      | some parent =>
          obtain ⟨earlier, next, there, level⟩ := forest.child found named
          obtain ⟨climbs, length⟩ := inductionHypothesis parent earlier there
          dsimp only
          rw [if_pos earlier]
          exact ⟨.child found named climbs, by rw [List.length_cons, length, level]⟩

end Arena
end Spillway
