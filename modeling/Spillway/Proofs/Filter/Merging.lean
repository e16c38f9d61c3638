import Mathlib.Data.List.Induction
import Mathlib.Data.List.Perm.Basic
import Spillway.Proofs.Filter.KeyFilter

/-!
# Merged filters are filters of all keys

A filter depends on the keys that were inserted and not on how they came: in which order, in how many
columns, or through how many filters that were merged afterwards. For directories this is so because
bits are only ever set, and setting bits commutes; a range is determined by the keys between whose
least and greatest it lies.
-/

namespace Spillway

/-- All keys are of one class. -/
def Key.Uniform (keys : List Key) : Prop :=
  ∀ key ∈ keys, ∀ other ∈ keys, key.sameClass other = true

theorem Key.Uniform.mono
    {keys fewer : List Key}
    (uniform : Key.Uniform keys)
    (subset : fewer ⊆ keys) :
    Key.Uniform fewer :=
  fun key member other otherMember => uniform key (subset member) other (subset otherMember)

theorem Key.sameClass_trans
    {first second third : Key}
    (one : first.sameClass second = true)
    (another : second.sameClass third = true) :
    first.sameClass third = true := by
  cases first <;> cases second <;> cases third <;>
    first | rfl | exact absurd one Bool.false_ne_true | exact absurd another Bool.false_ne_true

namespace Bloom

/-! ## Directories -/

theorem modify_or_comm
    (words : Array UInt32)
    (position other : Nat)
    (mask bits : UInt32) :
    (words.modify position (· ||| mask)).modify other (· ||| bits) =
      (words.modify other (· ||| bits)).modify position (· ||| mask) := by
  apply Array.ext_getElem?
  intro index
  simp only [Array.getElem?_modify]
  cases words[index]? with
  | none => split <;> split <;> rfl
  | some word =>
      split <;> split <;> simp only [Option.map_some, Option.some.injEq]
      rw [UInt32.or_assoc, UInt32.or_assoc, UInt32.or_comm mask]

theorem setBits_modify
    (words : Array UInt32)
    (position other : Nat)
    (mask : UInt32)
    (bits : List UInt32) :
    setBits (words.modify position (· ||| mask)) other bits =
      (setBits words other bits).modify position (· ||| mask) := by
  induction bits generalizing words other with
  | nil => rfl
  | cons bit bits inductionHypothesis =>
      rw [setBits, setBits, modify_or_comm, inductionHypothesis]

theorem setBits_comm
    (words : Array UInt32)
    (position other : Nat)
    (masks bits : List UInt32) :
    setBits (setBits words position masks) other bits =
      setBits (setBits words other bits) position masks := by
  induction masks generalizing words position with
  | nil => rfl
  | cons mask masks inductionHypothesis =>
      rw [setBits, setBits, inductionHypothesis, setBits_modify]

/-- It does not matter which of two hashes is added first. -/
theorem insert_comm
    (bloom : Bloom)
    (hash other : UInt64) :
    (bloom.insert hash).insert other = (bloom.insert other).insert hash := by
  apply Bloom.ext
  · rw [logBuckets_insert, logBuckets_insert, logBuckets_insert, logBuckets_insert]
  · simp only [words_insert, base, keyOf, logBuckets_insert]
    exact setBits_comm _ _ _ _ _

theorem zipWith_or_modify
    (words more : Array UInt32)
    (position : Nat)
    (mask : UInt32) :
    Array.zipWith (· ||| ·) words (more.modify position (· ||| mask)) =
      (Array.zipWith (· ||| ·) words more).modify position (· ||| mask) := by
  apply Array.ext_getElem?
  intro index
  rw [Array.getElem?_zipWith, Array.getElem?_modify, Array.getElem?_modify, Array.getElem?_zipWith]
  by_cases here : position = index
  · rw [if_pos here, if_pos here]
    cases words[index]? with
    | none => rfl
    | some word =>
        cases more[index]? with
        | none => rfl
        | some extra => exact congrArg some (UInt32.or_assoc word extra mask).symm
  · rw [if_neg here, if_neg here]

theorem zipWith_or_setBits
    (words more : Array UInt32)
    (position : Nat)
    (bits : List UInt32) :
    Array.zipWith (· ||| ·) words (setBits more position bits) =
      setBits (Array.zipWith (· ||| ·) words more) position bits := by
  induction bits generalizing more position with
  | nil => rfl
  | cons bit bits inductionHypothesis =>
      rw [setBits, setBits, inductionHypothesis, zipWith_or_modify]

theorem merge?_eq_some_iff {bloom other merged : Bloom} :
    bloom.merge? other = some merged ↔
      bloom.logBuckets = other.logBuckets ∧ merged.logBuckets = bloom.logBuckets ∧
        merged.words = Array.zipWith (· ||| ·) bloom.words other.words := by
  unfold merge?
  split
  · next same =>
    rw [Option.some.injEq]
    constructor
    · rintro rfl
      exact ⟨same, rfl, rfl⟩
    · rintro ⟨_, log, words⟩
      exact Bloom.ext log.symm words.symm
  · next different => simp [different]

theorem merge?_empty (bloom : Bloom) : bloom.merge? (empty bloom.logBuckets) = some bloom := by
  refine merge?_eq_some_iff.mpr ⟨rfl, rfl, Array.ext_getElem? fun index => ?_⟩
  rw [Array.getElem?_zipWith, empty, Array.getElem?_replicate]
  by_cases inside : index < bloom.words.size
  · rw [Array.getElem?_eq_getElem inside, if_pos (bloom.size_words ▸ inside)]
    exact congrArg some UInt32.or_zero.symm
  · rw [Array.getElem?_eq_none (Nat.not_lt.mp inside)]

/-- A hash added to the second of two directories is added to their union. -/
theorem merge?_insert
    {bloom other merged : Bloom}
    (merges : bloom.merge? other = some merged)
    (hash : UInt64) :
    bloom.merge? (other.insert hash) = some (merged.insert hash) := by
  obtain ⟨same, log, words⟩ := merge?_eq_some_iff.mp merges
  refine merge?_eq_some_iff.mpr ⟨?_, ?_, ?_⟩
  · rw [logBuckets_insert, same]
  · rw [logBuckets_insert, log]
  · rw [words_insert, words_insert, words, zipWith_or_setBits, base, base, keyOf, keyOf, log, same]

/-- The directory with the hashes of keys added. -/
def insertKeys (bloom : Bloom) (keys : List Key) : Bloom :=
  keys.foldl (fun bloom key => bloom.insert (KeyFilter.hashOf key)) bloom

theorem insertKeys_perm
    {keys others : List Key}
    (permuted : keys.Perm others)
    (bloom : Bloom) :
    bloom.insertKeys keys = bloom.insertKeys others :=
  permuted.foldl_eq' (fun _ _ _ _ bloom => bloom.insert_comm _ _) bloom

/-- Merging a directory of keys is adding the keys. -/
theorem merge?_insertKeys
    {bloom : Bloom}
    {logBuckets : Nat}
    (same : bloom.logBuckets = logBuckets)
    (keys : List Key) :
    bloom.merge? ((empty logBuckets).insertKeys keys) = some (bloom.insertKeys keys) := by
  induction keys using List.reverseRecOn with
  | nil => exact same ▸ bloom.merge?_empty
  | append_singleton keys key inductionHypothesis =>
      rw [insertKeys, insertKeys, List.foldl_append, List.foldl_append]
      exact merge?_insert inductionHypothesis _

end Bloom

namespace KeyRange

/-! ## Ranges -/

/-- The range is the smallest one that holds the keys. -/
def Spans : KeyRange → List Key → Prop
  | empty, keys => keys = []
  | between low high _ _, keys =>
    low ∈ keys ∧ high ∈ keys ∧ ∀ key ∈ keys, low.sameClass key = true ∧ low ≤ key ∧ key ≤ high

theorem Spans.unique
    {range other : KeyRange}
    {keys more : List Key}
    (spans : range.Spans keys)
    (otherSpans : other.Spans more)
    (same : ∀ key, key ∈ keys ↔ key ∈ more) :
    range = other := by
  cases range with
  | empty =>
      cases other with
      | empty => rfl
      | between low =>
          have member := (same low).mpr otherSpans.1
          rw [show keys = [] from spans] at member
          exact absurd member List.not_mem_nil
  | between low high =>
      cases other with
      | empty =>
          have member := (same low).mp spans.1
          rw [show more = [] from otherSpans] at member
          exact absurd member List.not_mem_nil
      | between first last =>
          obtain ⟨lowMember, highMember, within⟩ := spans
          obtain ⟨firstMember, lastMember, otherWithin⟩ := otherSpans
          have lowest : low = first := Key.le_antisymm
            (within first ((same first).mpr firstMember)).2.1
            (otherWithin low ((same low).mp lowMember)).2.1
          have highest : high = last := Key.le_antisymm
            (otherWithin high ((same high).mp highMember)).2.2
            (within last ((same last).mpr lastMember)).2.2
          subst lowest highest
          rfl

theorem lower_eq_or (a b : Key) : lower a b = a ∨ lower a b = b := by
  unfold lower
  split
  · exact .inl rfl
  · exact .inr rfl

theorem higher_eq_or (a b : Key) : higher a b = a ∨ higher a b = b := by
  unfold higher
  split
  · exact .inl rfl
  · exact .inr rfl

theorem spans_insert
    {range : KeyRange}
    {keys : List Key}
    {key : Key}
    (spans : range.Spans keys)
    (uniform : Key.Uniform (keys ++ [key])) :
    ∃ extended, range.insert key = .ok extended ∧ extended.Spans (keys ++ [key]) := by
  have keyMember : key ∈ keys ++ [key] := List.mem_append_right _ (List.mem_singleton_self key)
  cases range with
  | empty =>
      refine ⟨_, rfl, keyMember, keyMember, fun other member => ?_⟩
      rw [show keys = [] from spans] at member
      obtain rfl := List.mem_singleton.mp member
      exact ⟨other.sameClass_refl, other.le_refl, other.le_refl⟩
  | between low high highClass ordered =>
      obtain ⟨lowMember, highMember, within⟩ := spans
      have lowMember' : low ∈ keys ++ [key] := List.mem_append_left _ lowMember
      have highMember' : high ∈ keys ++ [key] := List.mem_append_left _ highMember
      have keyClass := uniform low lowMember' key keyMember
      refine ⟨_, dif_pos keyClass, ?_, ?_, fun other member => ?_⟩
      · obtain same | same := lower_eq_or key low <;> rw [same] <;> assumption
      · obtain same | same := higher_eq_or key high <;> rw [same] <;> assumption
      · rw [sameClass_lower keyClass]
        obtain old | new := List.mem_append.mp member
        · obtain ⟨otherClass, above, below⟩ := within other old
          exact ⟨otherClass, Key.le_trans (lower_le_right key low) above,
            Key.le_trans below (le_higher_right key high)⟩
        · obtain rfl := List.mem_singleton.mp new
          exact ⟨keyClass, lower_le_left _ low, le_higher_left _ high⟩

theorem spans_insertAll
    {range : KeyRange}
    {keys : List Key}
    (spans : range.Spans keys)
    (more : List Key)
    (uniform : Key.Uniform (keys ++ more)) :
    ∃ extended, range.insertAll more = .ok extended ∧ extended.Spans (keys ++ more) := by
  induction more generalizing range keys with
  | nil => exact ⟨range, rfl, (List.append_nil keys).symm ▸ spans⟩
  | cons key more inductionHypothesis =>
      rw [List.append_cons] at uniform ⊢
      obtain ⟨next, inserts, nextSpans⟩ :=
        spans_insert spans (uniform.mono (List.subset_append_left _ _))
      obtain ⟨extended, rest, extendedSpans⟩ := inductionHypothesis nextSpans uniform
      refine ⟨extended, ?_, extendedSpans⟩
      rw [insertAll, List.foldlM_cons, inserts]
      exact rest

/-- The union of the smallest ranges of keys is the smallest range of all these keys. -/
theorem spans_merge
    {range other : KeyRange}
    {keys more : List Key}
    (spans : range.Spans keys)
    (otherSpans : other.Spans more)
    (uniform : Key.Uniform (keys ++ more)) :
    ∃ merged, range.merge other = .ok merged ∧ merged.Spans (keys ++ more) := by
  cases other with
  | empty =>
      rw [show more = [] from otherSpans, List.append_nil]
      exact ⟨range, rfl, spans⟩
  | between low high =>
      obtain ⟨lowMember, highMember, within⟩ := otherSpans
      have ends : [low, high] ⊆ more := by
        intro key member
        simp only [List.mem_cons, List.not_mem_nil, or_false] at member
        obtain rfl | rfl := member <;> assumption
      have narrower : keys ++ [low, high] ⊆ keys ++ more := by
        simpa using List.Subset.trans ends (List.subset_append_right keys more)
      obtain ⟨merged, inserts, mergedSpans⟩ := spans_insertAll spans [low, high] (uniform.mono narrower)
      refine ⟨merged, inserts, ?_⟩
      cases merged with
      | empty => exact absurd mergedSpans (by simp [Spans])
      | between first last =>
          obtain ⟨firstMember, lastMember, mergedWithin⟩ := mergedSpans
          refine ⟨narrower firstMember, narrower lastMember, fun key member => ?_⟩
          obtain old | new := List.mem_append.mp member
          · exact mergedWithin key (List.mem_append_left _ old)
          · have lowWithin := mergedWithin low (by simp)
            have highWithin := mergedWithin high (by simp)
            obtain ⟨keyClass, above, below⟩ := within key new
            exact ⟨Key.sameClass_trans lowWithin.1 keyClass, Key.le_trans lowWithin.2.1 above,
              Key.le_trans below highWithin.2.2⟩

end KeyRange

namespace KeyFilter

/-! ## Filters of keys -/

/-- The filter of keys. -/
def ofKeys (kind : FilterKind) (bloomBytes : Nat) (keys : List Key) : Except FilterFault KeyFilter :=
  (empty kind bloomBytes).insertAll keys

/-- The filter of the keys of columns. -/
def ofColumns
    (kind : FilterKind)
    (bloomBytes : Nat)
    (columns : List (List Cell)) :
    Except FilterFault KeyFilter :=
  columns.foldlM insertColumn (empty kind bloomBytes)

/-- The keys of columns, in their order; cells without a key are passed over. -/
def keysOf (columns : List (List Cell)) : List Key :=
  columns.flatMap fun column => column.filterMap Cell.key?

theorem insertAll_append
    (filter : KeyFilter)
    (keys more : List Key) :
    filter.insertAll (keys ++ more) = filter.insertAll keys >>= fun filled => filled.insertAll more := by
  cases filter with
  | membership bloom =>
      show Except.ok (membership (bloom.insertKeys (keys ++ more))) = _
      rw [Bloom.insertKeys, List.foldl_append]
      rfl
  | range bounds =>
      simp only [insertAll, KeyRange.insertAll, List.foldlM_append]
      cases List.foldlM KeyRange.insert bounds keys <;> rfl

theorem insertAll_nil (filter : KeyFilter) : filter.insertAll [] = .ok filter := by
  cases filter <;> rfl

/-- Columns are inserted key by key. -/
theorem foldlM_insertColumn
    (columns : List (List Cell))
    (filter : KeyFilter) :
    columns.foldlM insertColumn filter = filter.insertAll (keysOf columns) := by
  induction columns generalizing filter with
  | nil => exact filter.insertAll_nil.symm
  | cons column columns inductionHypothesis =>
      rw [List.foldlM_cons, keysOf, List.flatMap_cons, insertAll_append, insertColumn_eq]
      exact congrArg _ (funext inductionHypothesis)

theorem ofColumns_eq_ofKeys
    (kind : FilterKind)
    (bloomBytes : Nat)
    (columns : List (List Cell)) :
    ofColumns kind bloomBytes columns = ofKeys kind bloomBytes (keysOf columns) :=
  foldlM_insertColumn columns _

theorem ofKeys_bloom
    (bloomBytes : Nat)
    (keys : List Key) :
    ofKeys .bloom bloomBytes keys = .ok (membership ((Bloom.withSize bloomBytes).insertKeys keys)) :=
  rfl

theorem exists_ofKeys_minMax
    (bloomBytes : Nat)
    {keys : List Key}
    (uniform : Key.Uniform keys) :
    ∃ bounds, ofKeys .minMax bloomBytes keys = .ok (range bounds) ∧ bounds.Spans keys := by
  obtain ⟨bounds, inserts, spans⟩ :=
    KeyRange.spans_insertAll (show KeyRange.empty.Spans [] from rfl) keys uniform
  refine ⟨bounds, ?_, spans⟩
  simp only [ofKeys, empty, insertAll, inserts]

theorem kind_of_ofKeys
    {kind : FilterKind}
    {bloomBytes : Nat}
    {keys : List Key}
    {filter : KeyFilter}
    (made : ofKeys kind bloomBytes keys = .ok filter) :
    filter.kind = kind := by
  cases kind with
  | bloom =>
      rw [ofKeys_bloom] at made
      cases made
      rfl
  | minMax =>
      simp only [ofKeys, empty, insertAll] at made
      split at made
      · cases made
        rfl
      · cases made

/-- Keys of one class have a filter. -/
theorem exists_ofKeys
    (kind : FilterKind)
    (bloomBytes : Nat)
    {keys : List Key}
    (uniform : Key.Uniform keys) :
    ∃ filter, ofKeys kind bloomBytes keys = .ok filter := by
  cases kind with
  | bloom => exact ⟨_, ofKeys_bloom bloomBytes keys⟩
  | minMax =>
      obtain ⟨bounds, made, _⟩ := exists_ofKeys_minMax bloomBytes uniform
      exact ⟨_, made⟩

/-- The order of keys does not matter. -/
theorem ofKeys_perm
    (kind : FilterKind)
    (bloomBytes : Nat)
    {keys others : List Key}
    (uniform : Key.Uniform keys)
    (permuted : keys.Perm others) :
    ofKeys kind bloomBytes keys = ofKeys kind bloomBytes others := by
  cases kind with
  | bloom => rw [ofKeys_bloom, ofKeys_bloom, Bloom.insertKeys_perm permuted]
  | minMax =>
      obtain ⟨bounds, made, spans⟩ := exists_ofKeys_minMax bloomBytes uniform
      obtain ⟨others, otherMade, otherSpans⟩ :=
        exists_ofKeys_minMax bloomBytes (uniform.mono permuted.symm.subset)
      rw [made, otherMade, spans.unique otherSpans fun _ => permuted.mem_iff]

/-- The union of filters of keys is the filter of all these keys. -/
theorem merge_ofKeys
    {kind : FilterKind}
    {bloomBytes : Nat}
    {keys more : List Key}
    {filter other : KeyFilter}
    (uniform : Key.Uniform (keys ++ more))
    (made : ofKeys kind bloomBytes keys = .ok filter)
    (otherMade : ofKeys kind bloomBytes more = .ok other) :
    filter.merge other = ofKeys kind bloomBytes (keys ++ more) := by
  cases kind with
  | bloom =>
      rw [ofKeys_bloom] at made otherMade
      cases made
      cases otherMade
      have same : ((Bloom.withSize bloomBytes).insertKeys keys).logBuckets =
          (Bloom.withSize bloomBytes).logBuckets := logBuckets_foldl_insert keys _
      have union := Bloom.merge?_insertKeys same more
      have whole : (Bloom.withSize bloomBytes).insertKeys (keys ++ more) =
          ((Bloom.withSize bloomBytes).insertKeys keys).insertKeys more := List.foldl_append
      rw [ofKeys_bloom, whole, merge]
      exact union ▸ rfl
  | minMax =>
      obtain ⟨bounds, madeBounds, spans⟩ :=
        exists_ofKeys_minMax bloomBytes (uniform.mono (List.subset_append_left keys more))
      obtain ⟨others, madeOthers, otherSpans⟩ :=
        exists_ofKeys_minMax bloomBytes (uniform.mono (List.subset_append_right keys more))
      obtain ⟨whole, madeWhole, wholeSpans⟩ := exists_ofKeys_minMax bloomBytes uniform
      rw [madeBounds] at made
      rw [madeOthers] at otherMade
      cases made
      cases otherMade
      obtain ⟨merged, merges, mergedSpans⟩ := KeyRange.spans_merge spans otherSpans uniform
      rw [madeWhole, wholeSpans.unique mergedSpans fun _ => Iff.rfl]
      simp only [merge, merges]

/-! ## Any number of filters -/

/-- What was merged so far together with one filter more. -/
def mergeInto (merged : Option KeyFilter) (filter : KeyFilter) : Except FilterFault KeyFilter :=
  match merged with
  | none => .ok filter
  | some merged => merged.merge filter

/-- All filters merged, one after the other. Of no filters there is none. -/
def mergeAll (filters : List KeyFilter) : Except FilterFault (Option KeyFilter) :=
  filters.foldlM (fun merged filter => do return some (← mergeInto merged filter)) none

theorem mergeAll_concat_eq_ok_iff
    {filters : List KeyFilter}
    {filter : KeyFilter}
    {merged : Option KeyFilter} :
    mergeAll (filters ++ [filter]) = .ok merged ↔
      ∃ before, mergeAll filters = .ok before ∧
        ∃ union, mergeInto before filter = .ok union ∧ some union = merged := by
  simp only [mergeAll, List.foldlM_append, List.foldlM_cons, List.foldlM_nil, bind_pure,
    bind_eq_ok_iff, pure_eq_ok_iff]

/-- Something was merged exactly where a filter was given. -/
theorem isSome_of_mergeAll
    {filters : List KeyFilter}
    {merged : Option KeyFilter}
    (merges : mergeAll filters = .ok merged) :
    merged.isSome = true ↔ filters ≠ [] := by
  cases filters using List.reverseRecOn with
  | nil =>
      cases merges
      simp
  | append_singleton filters filter =>
      obtain ⟨_, _, union, _, rfl⟩ := mergeAll_concat_eq_ok_iff.mp merges
      simp

/-- Filters of keys, merged one after the other, are the filter of all these keys. -/
theorem mergeAll_ofKeys
    {kind : FilterKind}
    {bloomBytes : Nat}
    {parts : List (List Key × KeyFilter)}
    (made : ∀ part ∈ parts, ofKeys kind bloomBytes part.1 = .ok part.2)
    (uniform : Key.Uniform (parts.flatMap Prod.fst))
    (some : parts ≠ []) :
    ∃ whole, mergeAll (parts.map Prod.snd) = .ok (.some whole) ∧
      ofKeys kind bloomBytes (parts.flatMap Prod.fst) = .ok whole := by
  induction parts using List.reverseRecOn with
  | nil => exact absurd rfl some
  | append_singleton parts part inductionHypothesis =>
      have last := made part (List.mem_append_right _ (List.mem_singleton_self part))
      rw [List.flatMap_append, List.flatMap_singleton] at uniform ⊢
      rw [List.map_append, List.map_singleton]
      by_cases first : parts = []
      · subst first
        exact ⟨part.2, rfl, last⟩
      · obtain ⟨before, merges, whole⟩ := inductionHypothesis
          (fun part member => made part (List.mem_append_left _ member))
          (uniform.mono (List.subset_append_left _ _)) first
        obtain ⟨union, unionMade⟩ := exists_ofKeys kind bloomBytes uniform
        refine ⟨union, mergeAll_concat_eq_ok_iff.mpr ⟨_, merges, union, ?_, rfl⟩, unionMade⟩
        exact (merge_ofKeys uniform whole last).trans unionMade

end KeyFilter
end Spillway
