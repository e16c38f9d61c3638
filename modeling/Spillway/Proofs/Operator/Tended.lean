import Spillway.Proofs.Operator.Forest

/-!
# Forests that are tended

Between the calls of an operator every partition has no children or one for each bucket, in order; those with
children are marked as split; and the counters say how many partitions there are and how many of them are
spilled. While a partition is being split it has the children that were added by then, and only that partition
is an exception.
-/

namespace Spillway
namespace Arena

variable {arena grown : Arena} {record old : PartitionRecord} {partition number : Nat}
  {fanOut spilled count repartitions : Nat} {again : Prop} {busy : Option (Nat × Nat)}
  {free more : Nat → Prop} {change : PartitionRecord → PartitionRecord}

/-- Number of partitions whose build side is spilled. -/
def spilledCount (arena : Arena) : Nat :=
  arena.records.countP fun record => record.build.spilled

/-- The children are one for each bucket, in order. -/
def Brood (arena : Arena) (count : Nat) (children : List Nat) : Prop :=
  children.map arena.bucket? = (List.range count).map some

/-- The partition has all children or none. It has some if it is marked as split, and only then, except that a
root that was split may be closed once more where roots are closed `again`. -/
structure Settled (arena : Arena) (fanOut : Nat) (again : Prop) (record : PartitionRecord) : Prop where
  brood : record.children = [] ∨ arena.Brood fanOut record.children
  split : record.state = .repartitioned → record.children ≠ []
  marked : record.children ≠ [] →
    record.state = .repartitioned ∨ again ∧ record.parent = none ∧ record.state ≠ .opened

/-- The arena is a forest whose roots came first, and all of its partitions are settled but the one that is
being split, of which it is told how many children it has by now. The partitions that are `free` can be
closed. The numbers of splits and of spilled partitions are those that were counted. -/
structure Tended
    (arena : Arena)
    (fanOut spilled repartitions : Nat)
    (again : Prop)
    (busy : Option (Nat × Nat))
    (free : Nat → Prop) : Prop extends arena.Forest where
  first : ∀ {partition : Nat} {record : PartitionRecord},
    arena.records[partition]? = some record → (record.parent = none ↔ partition < fanOut)
  growing : ∀ {partition count : Nat}, busy = some (partition, count) →
    ∃ record, arena.records[partition]? = some record ∧ arena.Brood count record.children
  settled : ∀ {partition : Nat} {record : PartitionRecord}, (∀ count, busy ≠ some (partition, count)) →
    arena.records[partition]? = some record → arena.Settled fanOut again record
  closable : ∀ {partition : Nat} {record : PartitionRecord}, free partition →
    arena.records[partition]? = some record → record.children = [] ∨ again ∧ record.parent = none
  created : arena.size = fanOut * (1 + repartitions) + busy.elim 0 Prod.snd
  counted : arena.spilledCount = spilled

/-! ## Changes of one record -/

theorem spilledCount_modify
    (found : arena.records[partition]? = some old)
    (change : PartitionRecord → PartitionRecord) :
    (arena.modify partition change).spilledCount + old.build.spilled.toNat =
      arena.spilledCount + (change old).build.spilled.toNat := by
  obtain ⟨inside, rfl⟩ := Array.getElem?_eq_some_iff.mp found
  have changed : arena.records.modify partition change =
      arena.records.set partition (change arena.records[partition]) inside := by
    refine Array.ext_getElem? fun other => ?_
    rw [Array.getElem?_modify, Array.getElem?_set]
    split
    · next same => rw [← same, found, Option.map_some]
    · rfl
  have least := Array.boole_getElem_le_countP (p := fun record => record.build.spilled) inside
  rw [spilledCount, spilledCount, modify, changed, Array.countP_set]
  cases was : arena.records[partition].build.spilled <;>
    cases (change arena.records[partition]).build.spilled <;>
    simp only [was, Bool.toNat_true, Bool.toNat_false, if_true, if_false, Bool.false_eq_true]
      at least ⊢ <;> omega

theorem Stays.brood
    (stays : Stays change)
    (arena : Arena)
    (partition : Nat) :
    (arena.modify partition change).Brood = arena.Brood := by
  funext count children
  rw [Brood, Brood, stays.bucket?]

/-- A settled partition stays settled if it stays in its state, or is closed where that does no harm. -/
theorem Settled.move
    (settled : arena.Settled fanOut again old)
    (parent : record.parent = old.parent)
    (children : record.children = old.children)
    (moves : record.state = old.state ∨ (old.children = [] ∨ again ∧ old.parent = none) ∧
      record.state ≠ .opened ∧ record.state ≠ .repartitioned) :
    arena.Settled fanOut again record := by
  refine ⟨children ▸ settled.brood, ?_, ?_⟩
  · intro split
    rw [children]
    obtain same | ⟨-, -, unsplit⟩ := moves
    · exact settled.split (same ▸ split)
    · exact absurd split unsplit
  · intro some
    rw [children] at some
    obtain same | ⟨harmless, closed, -⟩ := moves
    · rw [same, parent]
      exact settled.marked some
    · obtain ⟨allowed, root⟩ := harmless.resolve_left some
      exact .inr ⟨allowed, parent.trans root, closed⟩

/-- A record is changed where it is. Its state is left as it is, or the partition is the one that is being
split, or it can be closed and is. -/
theorem Tended.modify
    (tended : arena.Tended fanOut spilled repartitions again busy free)
    (found : arena.records[partition]? = some old)
    (stays : Stays change)
    (moves : (change old).state = old.state ∨ (∃ count, busy = some (partition, count)) ∨
      free partition ∧ (change old).state ≠ .opened ∧ (change old).state ≠ .repartitioned)
    (counts : count + old.build.spilled.toNat = spilled + (change old).build.spilled.toNat) :
    (arena.modify partition change).Tended fanOut count repartitions again busy free where
  toForest := tended.toForest.modify stays partition
  first found := by
    obtain ⟨old, there, parent, -⟩ := stays.exists_old _ _ found
    rw [parent]
    exact tended.first there
  growing is := by
    obtain ⟨record, there, brood⟩ := tended.growing is
    refine ⟨_, Partitioned.getElem?_modify there partition change, ?_⟩
    rw [stays.brood]
    split
    · rw [(stays record).2.2.2]
      exact brood
    · exact brood
  settled {other _} apart there := by
    obtain ⟨was, thereBefore, parent, -, children, same⟩ := stays.exists_old _ _ there
    have before := tended.settled apart thereBefore
    -- Only the record that is changed moves, and it is not the one that is being split.
    have moved : arena.Settled fanOut again _ := before.move parent children <| by
      by_cases here : partition = other
      · subst here
        obtain rfl := Option.some.inj (found.symm.trans thereBefore)
        rw [same, if_pos rfl]
        obtain stays | ⟨count, is⟩ | ⟨is, closed⟩ := moves
        · exact .inl stays
        · exact absurd is (apart count)
        · exact .inr ⟨tended.closable is found, closed⟩
      · rw [same, if_neg here]
        exact .inl rfl
    exact ⟨by rw [stays.brood]; exact moved.brood, moved.split, moved.marked⟩
  closable is there := by
    obtain ⟨was, before, parent, -, children, -⟩ := stays.exists_old _ _ there
    rw [children, parent]
    exact tended.closable is before
  created := (size_modify ..).trans tended.created
  counted := by
    have modified := spilledCount_modify found change
    have counted := tended.counted
    omega

theorem Tended.mono
    (tended : arena.Tended fanOut spilled repartitions again busy free)
    (fewer : ∀ partition, more partition → free partition) :
    arena.Tended fanOut spilled repartitions again busy more :=
  { tended with closable := fun is found => tended.closable (fewer _ is) found }

/-! ## Splitting -/

/-- While nothing is being split, all partitions are settled. -/
theorem Tended.settled_all
    (tended : arena.Tended fanOut spilled repartitions again none free)
    (found : arena.records[partition]? = some record) :
    arena.Settled fanOut again record :=
  tended.settled (fun _ => nofun) found

/-- A partition that accepts rows has no children. -/
theorem Tended.children_eq_nil
    (tended : arena.Tended fanOut spilled repartitions again none free)
    (found : arena.records[partition]? = some record)
    (opened : record.state = .opened) :
    record.children = [] := by
  by_contra some
  obtain split | ⟨-, -, closed⟩ := (tended.settled_all found).marked some
  · exact absurd (split.symm.trans opened) (by decide)
  · exact closed opened

/-- A partition without children can be closed. -/
theorem Tended.free_of_bare
    (tended : arena.Tended fanOut spilled repartitions again busy free)
    (bare : ∀ (partition : Nat) (record : PartitionRecord), more partition →
      arena.records[partition]? = some record → record.children = []) :
    arena.Tended fanOut spilled repartitions again busy more :=
  { tended with closable := fun is found => .inl (bare _ _ is found) }

/-- A partition without children begins to be split. -/
theorem Tended.begin
    (tended : arena.Tended fanOut spilled repartitions again none free)
    (found : arena.records[partition]? = some record)
    (bare : record.children = []) :
    arena.Tended fanOut spilled repartitions again (some (partition, 0)) fun _ => False := by
  have growing : ∀ {other count : Nat}, some (partition, 0) = some (other, count) →
      ∃ record, arena.records[other]? = some record ∧ arena.Brood count record.children := by
    rintro _ _ ⟨⟩
    exact ⟨record, found, by rw [bare]; rfl⟩
  exact { tended with
    growing := growing
    settled := fun _ there => tended.settled_all there
    closable := False.elim }

/-- Children that were there keep their buckets when another one is added. -/
theorem Forest.brood_of_add
    (forest : arena.Forest)
    (added : arena.add record = .ok (number, grown))
    (found : arena.records[partition]? = some old) :
    grown.Brood count old.children ↔ arena.Brood count old.children := by
  have same : old.children.map grown.bucket? = old.children.map arena.bucket? := by
    refine List.map_congr_left fun child member => ?_
    rw [forest.children found] at member
    rw [bucket?_of_add added, if_neg]
    exact Nat.ne_of_lt (List.mem_range.mp (List.mem_filter.mp member).1)
  rw [Brood, Brood, same]

/-- The partition that is being split gets a child for the next bucket. -/
theorem Tended.add
    (tended : arena.Tended fanOut spilled repartitions again (some (partition, count)) free)
    (added : arena.add record = .ok (number, grown))
    (child : record.parent = some partition)
    (bucket : record.bucket = count)
    (bare : record.children = [])
    (opened : record.state = .opened)
    (unspilled : record.build.spilled = false)
    (growing : ¬ free partition) :
    grown.Tended fanOut spilled repartitions again (some (partition, count + 1)) fun other =>
      free other ∨ other = number := by
  obtain ⟨same, -, size, admits, -⟩ := of_add_eq_ok added
  obtain ⟨above, there, -⟩ := admits _ child
  refine ⟨tended.toForest.add added (by simp [child]) bare, ?_, ?_, ?_, ?_, ?_, ?_⟩
  · intro other found known
    -- All roots are there before any partition is split.
    obtain ⟨rfl, rfl⟩ | ⟨old, was, rfl⟩ := cases_of_add added known
    · rw [child, tended.created]
      simp only [reduceCtorEq, false_iff, Nat.not_lt]
      exact Nat.le_trans (Nat.le_mul_of_pos_right fanOut (by omega)) (Nat.le_add_right _ _)
    · have before := tended.first was
      exact before
  · rintro _ _ ⟨⟩
    obtain ⟨old, was, brood⟩ := tended.growing rfl
    refine ⟨_, getElem?_of_add added was, ?_⟩
    have before := (tended.toForest.brood_of_add added was).mpr brood
    rw [adopt, if_pos child]
    rw [Brood] at before ⊢
    rw [List.map_append, before, List.range_succ, List.map_append, List.map_singleton,
      List.map_singleton, bucket?_of_add added, if_pos rfl, bucket]
  · intro other found idle known
    have apart : partition ≠ other := fun here => idle _ (by rw [here])
    obtain ⟨rfl, rfl⟩ | ⟨old, was, rfl⟩ := cases_of_add added known
    · exact ⟨.inl bare, fun split => absurd (opened.symm.trans split) (by decide), (absurd bare ·)⟩
    · have before := tended.settled (fun count here => apart (by cases here; rfl)) was
      rw [adopt_of_ne (by simp [child, apart])]
      refine ⟨?_, before.split, before.marked⟩
      exact before.brood.imp_right (tended.toForest.brood_of_add added was).mpr
  · intro other found is known
    obtain ⟨rfl, rfl⟩ | ⟨old, was, rfl⟩ := cases_of_add added known
    · exact .inl bare
    · have before : free other :=
        is.resolve_right (same ▸ Nat.ne_of_lt (Array.getElem?_eq_some_iff.mp was).1)
      have apart : partition ≠ other := fun here => growing (here ▸ before)
      rw [adopt_of_ne (by simp [child, apart])]
      exact tended.closable before was
  · rw [size, tended.created]
    rfl
  -- The parent is as spilled as before, and the child has nothing to spill yet.
  · have kept := spilledCount_modify there fun above =>
      { above with children := above.children ++ [arena.size] }
    rw [Nat.add_right_cancel_iff, tended.counted] at kept
    rw [(eq_of_add child added).2, spilledCount, push, Array.countP_push, unspilled]
    exact kept

/-- A partition that was split has all its children. -/
theorem Tended.finish
    (tended : arena.Tended fanOut spilled repartitions again (some (partition, fanOut)) free)
    (found : arena.records[partition]? = some record)
    (split : record.state = .repartitioned)
    (positive : 0 < fanOut) :
    arena.Tended fanOut spilled (repartitions + 1) again none free where
  toForest := tended.toForest
  first := tended.first
  growing := nofun
  settled {other _} _ there := by
    by_cases here : other = partition
    · subst here
      obtain rfl := Option.some.inj (found.symm.trans there)
      obtain ⟨old, was, brood⟩ := tended.growing rfl
      obtain rfl := Option.some.inj (found.symm.trans was)
      refine ⟨.inr brood, fun _ none => ?_, fun _ => .inl split⟩
      have lengths := congrArg List.length brood
      rw [none, List.map_nil, List.length_map, List.length_range, List.length_nil] at lengths
      omega
    · refine tended.settled (fun count same => here ?_) there
      cases same
      rfl
  closable := tended.closable
  created := by
    rw [tended.created, ← Nat.add_assoc, Nat.mul_succ]
    rfl
  counted := tended.counted

end Arena

namespace Partitioned

/-- New roots are tended, whichever of them can be closed. -/
theorem tended_newRoots
    (bare : Partitioned)
    (again : Prop)
    (free : Nat → Prop) :
    ({ records := (bare.roots.map (bare.newRecord none 0)).toArray } : Arena).Tended
      bare.params.partitionCount 0 0 again none free := by
  have roots : ∀ {root : Nat} {record : PartitionRecord},
      (bare.roots.map (bare.newRecord none 0)).toArray[root]? = some record →
        root < bare.params.partitionCount ∧ record = bare.newRecord none 0 root := by
    intro root record found
    rw [getElem?_newRoots] at found
    split at found
    · next inside => exact ⟨inside, (Option.some.inj found).symm⟩
    · cases found
  refine ⟨⟨?_, ?_, ?_⟩, ?_, nofun, ?_, ?_, ?_, ?_⟩
  · intro root record found _
    obtain ⟨-, rfl⟩ := roots found
    rfl
  · intro root parent record found named
    obtain ⟨-, rfl⟩ := roots found
    cases named
  · intro root record found
    obtain ⟨-, rfl⟩ := roots found
    refine (List.filter_eq_nil_iff.mpr fun other _ named => ?_).symm
    obtain ⟨old, there, parent⟩ := Option.bind_eq_some_iff.mp (of_decide_eq_true named)
    obtain ⟨-, rfl⟩ := roots there
    cases parent
  · intro root record found
    obtain ⟨inside, rfl⟩ := roots found
    exact iff_of_true rfl inside
  · intro root record _ found
    obtain ⟨-, rfl⟩ := roots found
    exact ⟨.inl rfl, nofun, (absurd rfl ·)⟩
  · intro root record _ found
    obtain ⟨-, rfl⟩ := roots found
    exact .inl rfl
  · simp [Arena.size, Partitioned.roots]
  · refine Array.countP_eq_zero.mpr fun record member => ?_
    obtain ⟨root, found⟩ := Array.getElem?_of_mem member
    obtain ⟨-, rfl⟩ := roots found
    exact Bool.false_ne_true

end Partitioned
end Spillway
