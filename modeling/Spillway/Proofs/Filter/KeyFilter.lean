import Spillway.Filter.KeyFilter
import Spillway.Proofs.Data.Chunk
import Spillway.Proofs.Filter.Bloom

/-!
# Filters let every inserted key through

A key that was inserted into a filter passes it, and a key that passes a filter still passes it after
more keys were inserted and after it was merged with another filter, in either direction. The rows
that a filter drops from a chunk are those without a key and those whose key does not pass.
-/

namespace Spillway

namespace KeyRange

theorem lower_le_left (a b : Key) : lower a b ≤ a := by
  unfold lower
  split
  · exact Key.le_refl a
  · next notBelow => exact notBelow

theorem lower_le_right (a b : Key) : lower a b ≤ b := by
  unfold lower
  split
  · next below => exact Key.lt_asymm below
  · exact Key.le_refl b

theorem le_higher_left (a b : Key) : a ≤ higher a b := by
  unfold higher
  split
  · exact Key.le_refl a
  · next notAbove => exact notAbove

theorem le_higher_right (a b : Key) : b ≤ higher a b := by
  unfold higher
  split
  · next above => exact Key.lt_asymm above
  · exact Key.le_refl b

theorem sameClass_lower
    {low key : Key}
    (sameClass : low.sameClass key = true)
    (other : Key) :
    (lower key low).sameClass other = low.sameClass other := by
  unfold lower
  split
  · cases low <;> cases key <;> cases other <;> first | rfl | cases sameClass
  · rfl

/-- The range holds a key of its own class. -/
def Holds : KeyRange → Key → Prop
  | empty, _ => False
  | between low high _ _, key => low.sameClass key = true ∧ low ≤ key ∧ key ≤ high

/-- A key passes a range of its own class exactly between the ends. -/
theorem test_between_iff
    {low high key : Key}
    {sameClass : low.sameClass high = true}
    {ordered : low ≤ high} :
    (between low high sameClass ordered).test key = true ↔
      low.sameClass key = false ∨ (low ≤ key ∧ key ≤ high) := by
  simp [test]

theorem test_of_holds
    {range : KeyRange}
    {key : Key}
    (holds : range.Holds key) :
    range.test key = true := by
  cases range with
  | empty => exact holds.elim
  | between => exact test_between_iff.mpr (.inr holds.2)

/-- An extended range holds the new key, and lets every key through that passed before. -/
theorem holds_of_insert
    {range extended : KeyRange}
    {key : Key}
    (inserts : range.insert key = .ok extended) :
    extended.Holds key ∧ (∀ other, range.Holds other → extended.Holds other) ∧
      ∀ other, range.test other = true → extended.test other = true := by
  cases range with
  | empty =>
      cases inserts
      exact ⟨⟨key.sameClass_refl, key.le_refl, key.le_refl⟩, fun _ holds => holds.elim,
        fun _ passes => absurd passes Bool.false_ne_true⟩
  | between low high highClass ordered =>
      rw [insert] at inserts
      split at inserts
      · next keyClass =>
        cases inserts
        have wider : ∀ other, low ≤ other ∧ other ≤ high →
            lower key low ≤ other ∧ other ≤ higher key high := fun other inside =>
          ⟨Key.le_trans (lower_le_right key low) inside.1,
            Key.le_trans inside.2 (le_higher_right key high)⟩
        refine ⟨⟨?_, lower_le_left key low, le_higher_left key high⟩, fun other holds => ?_,
          fun other passes => ?_⟩
        · rw [sameClass_lower keyClass, keyClass]
        · exact ⟨(sameClass_lower keyClass other).trans holds.1, wider other holds.2⟩
        · rw [test_between_iff] at passes ⊢
          rw [sameClass_lower keyClass]
          exact passes.imp_right (wider other)
      · cases inserts

theorem holds_of_insertAll
    {range extended : KeyRange}
    {keys : List Key}
    (inserts : range.insertAll keys = .ok extended) :
    (∀ key ∈ keys, extended.Holds key) ∧ (∀ other, range.Holds other → extended.Holds other) ∧
      ∀ other, range.test other = true → extended.test other = true := by
  induction keys generalizing range with
  | nil =>
      rw [insertAll, List.foldlM_nil, pure_eq_ok_iff] at inserts
      subst inserts
      exact ⟨fun _ member => absurd member List.not_mem_nil, fun _ holds => holds,
        fun _ passes => passes⟩
  | cons key keys inductionHypothesis =>
      simp only [insertAll, List.foldlM_cons, bind_eq_ok_iff] at inserts
      obtain ⟨next, first, rest⟩ := inserts
      obtain ⟨here, kept, passing⟩ := holds_of_insert first
      obtain ⟨there, still, letting⟩ := inductionHypothesis rest
      refine ⟨fun other member => ?_, fun other holds => still other (kept other holds),
        fun other passes => letting other (passing other passes)⟩
      obtain rfl | member := List.mem_cons.mp member
      · exact still other here
      · exact there other member

/-- A merged range lets every key through that passed one of the two. -/
theorem test_of_merge
    {range other merged : KeyRange}
    {key : Key}
    (merges : range.merge other = .ok merged)
    (passes : range.test key = true ∨ other.test key = true) :
    merged.test key = true := by
  cases other with
  | empty =>
      cases merges
      exact passes.resolve_right Bool.false_ne_true
  | between low high sameClass ordered =>
      obtain ⟨ends, _, still⟩ := holds_of_insertAll merges
      obtain here | there := passes
      · exact still key here
      · have lowHeld := ends low List.mem_cons_self
        have highHeld := ends high (List.mem_cons_of_mem _ List.mem_cons_self)
        cases merged with
        | empty => exact lowHeld.elim
        | between first last _ _ =>
            rw [test_between_iff] at there ⊢
            refine there.imp (fun otherClass => ?_) fun inside =>
              ⟨Key.le_trans lowHeld.2.1 inside.1, Key.le_trans inside.2 highHeld.2.2⟩
            have ownClass := lowHeld.1
            cases first <;> cases low <;> cases key <;> simp_all [Key.sameClass]

/-- A key between two keys of the class of a third one is of that class too. -/
theorem sameClass_between
    {first low high key : Key}
    (lowClass : first.sameClass low = true)
    (highClass : first.sameClass high = true)
    (above : low ≤ key)
    (below : key ≤ high) :
    first.sameClass key = true := by
  cases first with
  | int =>
      cases high with
      | text => cases highClass
      | int =>
          cases key with
          | int => rfl
          | text => exact absurd trivial below
  | text =>
      cases low with
      | int => cases lowClass
      | text =>
          cases key with
          | text => rfl
          | int => exact absurd trivial above

/-- A range that excludes an interval holds no key in it. -/
theorem test_of_not_overlaps
    {range : KeyRange}
    {low high key : Key}
    (excluded : range.overlaps low high = false)
    (above : low ≤ key)
    (below : key ≤ high) :
    range.test key = false := by
  cases range with
  | empty => rfl
  | between first last sameClass ordered =>
      simp only [overlaps, Bool.or_eq_false_iff, Bool.not_eq_false', Bool.and_eq_false_iff,
        decide_eq_false_iff_not] at excluded
      obtain ⟨⟨lowClass, highClass⟩, apart⟩ := excluded
      rw [Bool.eq_false_iff, Ne, test_between_iff, not_or, not_and]
      refine ⟨?_, fun inside within => ?_⟩
      · rw [sameClass_between lowClass highClass above below]
        decide
      · exact apart.elim (fun late => late (Key.le_trans above within))
          fun early => early (Key.le_trans inside below)

end KeyRange

namespace KeyFilter

/-- Membership filters are at most as large as the largest that is supported. -/
def Sized : KeyFilter → Prop
  | membership bloom => bloom.logBuckets ≤ Sizing.maxLogSpace
  | range _ => True

theorem sized_empty
    (kind : FilterKind)
    (bloomBytes : Nat) :
    (empty kind bloomBytes).Sized := by
  cases kind with
  | minMax => exact trivial
  | bloom =>
      have bounded : Sizing.logSpaceFor bloomBytes ≤ Sizing.maxLogSpace := by
        unfold Sizing.logSpaceFor
        cases found : Sizing.logSpaces.find? fun logSpace => bloomBytes ≤ 1 <<< logSpace with
        | none => exact Nat.le_refl _
        | some logSpace =>
            have member := List.mem_of_find?_eq_some found
            have all : ∀ logSpace ∈ Sizing.logSpaces, logSpace ≤ Sizing.maxLogSpace := by decide
            exact all logSpace member
      exact Nat.max_le.mpr ⟨Nat.le_trans (Nat.sub_le _ _) bounded, by decide⟩

theorem logBuckets_foldl_insert
    (keys : List Key)
    (bloom : Bloom) :
    (keys.foldl (fun bloom key => bloom.insert (hashOf key)) bloom).logBuckets =
      bloom.logBuckets := by
  induction keys generalizing bloom with
  | nil => rfl
  | cons key keys inductionHypothesis =>
      rw [List.foldl_cons, inductionHypothesis, Bloom.logBuckets_insert]

theorem test_foldl_insert
    (keys : List Key)
    (bloom : Bloom) :
    (∀ key ∈ keys,
        (keys.foldl (fun bloom key => bloom.insert (hashOf key)) bloom).test (hashOf key) = true) ∧
      ∀ hash, bloom.test hash = true →
        (keys.foldl (fun bloom key => bloom.insert (hashOf key)) bloom).test hash = true := by
  induction keys generalizing bloom with
  | nil => exact ⟨fun _ member => absurd member List.not_mem_nil, fun _ passes => passes⟩
  | cons key keys inductionHypothesis =>
      obtain ⟨there, still⟩ := inductionHypothesis (bloom.insert (hashOf key))
      rw [List.foldl_cons]
      refine ⟨fun other member => ?_, fun hash passes =>
        still hash (Bloom.test_insert_of_test passes _)⟩
      obtain rfl | member := List.mem_cons.mp member
      · exact still _ (bloom.test_insert_self _)
      · exact there other member

/-- The hash of a cell that has a key is that of the key. -/
theorem hash_of_key?
    {cell : Cell}
    {key : Key}
    (found : cell.key? = some key) :
    cell.hash Hash.filterSeed = hashOf key := by
  rw [Cell.hash_eq_hashKey, found]
  rfl

/-- Inserting a column inserts its keys, one after the other. -/
theorem insertColumn_eq
    (filter : KeyFilter)
    (cells : List Cell) :
    filter.insertColumn cells = filter.insertAll (cells.filterMap Cell.key?) := by
  cases filter with
  | range bounds => rfl
  | membership bloom =>
      rw [insertColumn, insertAll, Except.ok.injEq, membership.injEq]
      induction cells generalizing bloom with
      | nil => rfl
      | cons cell cells inductionHypothesis =>
          rw [List.foldl_cons, inductionHypothesis, insertCell]
          cases found : cell.key? with
          | none =>
              rw [List.filterMap_cons_none found]
              rfl
          | some key =>
              rw [List.filterMap_cons_some found, List.foldl_cons, hash_of_key? found]
              rfl

/-- Inserting keys keeps the size, lets them through, and every key that passed before. -/
theorem test_of_insertColumn
    {filter filled : KeyFilter}
    {cells : List Cell}
    (inserts : filter.insertColumn cells = .ok filled) :
    (filter.Sized → filled.Sized) ∧
      (∀ cell ∈ cells, ∀ key, cell.key? = some key → filled.test key = true) ∧
      ∀ other, filter.test other = true → filled.test other = true := by
  have present : ∀ {cell key}, cell ∈ cells → cell.key? = some key → key ∈ cells.filterMap Cell.key? :=
    fun member found => List.mem_filterMap.mpr ⟨_, member, found⟩
  rw [insertColumn_eq] at inserts
  cases filter with
  | membership bloom =>
      cases inserts
      obtain ⟨inserted, still⟩ := test_foldl_insert (cells.filterMap Cell.key?) bloom
      refine ⟨fun sized => ?_, fun cell member key found => inserted key (present member found),
        fun other passes => still _ passes⟩
      rw [Sized, logBuckets_foldl_insert]
      exact sized
  | range bounds =>
      simp only [insertAll] at inserts
      split at inserts
      · next extended inserted =>
        cases inserts
        obtain ⟨holds, _, still⟩ := KeyRange.holds_of_insertAll inserted
        exact ⟨fun _ => trivial,
          fun cell member key found => KeyRange.test_of_holds (holds key (present member found)),
          still⟩
      · cases inserts

/-- A merged filter lets every key through that passed one of the two. -/
theorem test_of_merge
    {filter other merged : KeyFilter}
    (merges : filter.merge other = .ok merged) :
    (filter.Sized → merged.Sized) ∧
      ∀ key, filter.test key = true ∨ other.test key = true → merged.test key = true := by
  cases filter with
  | membership bloom =>
      cases other with
      | membership more =>
          simp only [merge] at merges
          split at merges
          · next union merged =>
            cases merges
            refine ⟨fun sized => ?_, fun key passes => Bloom.test_of_merge? merged passes⟩
            rw [Sized, (Bloom.words_of_merge? merged).2.1]
            exact sized
          · cases merges
      | range bounds => cases merges
  | range bounds =>
      cases other with
      | membership more => cases merges
      | range more =>
          simp only [merge] at merges
          split at merges
          · next union merged =>
            cases merges
            exact ⟨fun _ => trivial, fun key passes => KeyRange.test_of_merge merged passes⟩
          · cases merges

/-- A filter that excludes an interval lets no key in it through. -/
theorem test_of_not_overlaps
    {filter : KeyFilter}
    {low high key : Key}
    (excluded : filter.overlaps low high = false)
    (above : low ≤ key)
    (below : key ≤ high) :
    filter.test key = false := by
  cases filter with
  | membership bloom =>
      rw [overlaps] at excluded
      split at excluded
      · next same =>
        subst same
        rw [Key.le_antisymm below above]
        exact excluded
      · cases excluded
  | range bounds => exact KeyRange.test_of_not_overlaps excluded above below

/-- A row passes if it has a key and the key passes. -/
theorem testRow_eq_any
    (filter : KeyFilter)
    (cell : Cell) :
    filter.testRow cell = cell.key?.any filter.test := by
  unfold testRow
  cases found : cell.key? with
  | none => rfl
  | some key =>
      cases filter with
      | membership bloom => rw [hash_of_key? found]; rfl
      | range bounds => rfl

/-- A chunk is filtered row by row. -/
theorem rows_of_filterChunk
    {filter : KeyFilter}
    {chunk kept : Chunk}
    {column : String}
    (filtered : filter.filterChunk chunk column = .ok kept) :
    kept.schema = chunk.schema ∧
      kept.rows = chunk.rows.filter fun row => (chunk.schema.keyOf column row).any filter.test := by
  unfold filterChunk at filtered
  split at filtered
  · next empty =>
    cases filtered
    rw [List.isEmpty_iff.mp empty, List.filter_nil]
    exact ⟨rfl, rfl⟩
  · simp only [bind_eq_ok_iff, pure_eq_ok_iff] at filtered
    obtain ⟨position, keyed, rfl⟩ := filtered
    simp only [Schema.keyOf_of_position? (Chunk.keyPosition_eq_ok_iff.mp keyed).1, testRow_eq_any]
    exact ⟨rfl, rfl⟩

/-- A column that rows can be keyed by can be filtered. -/
theorem exists_filterChunk
    {chunk : Chunk}
    {column : String}
    {position : Nat}
    (filter : KeyFilter)
    (keyed : chunk.keyPosition column = .ok position) :
    ∃ kept, filter.filterChunk chunk column = .ok kept := by
  unfold filterChunk
  split
  · exact ⟨chunk, rfl⟩
  · rw [keyed]
    exact ⟨_, rfl⟩

end KeyFilter

end Spillway
