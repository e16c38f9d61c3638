import Spillway.Proofs.Filter.InPlace

/-!
# Filters form a partial semilattice

Two filters have a union unless they differ in kind or in size or bound keys of different classes. Where
there is a union, it does not matter in which order and in which grouping filters are merged, a filter
adds nothing to itself, and the filter of no keys adds nothing to any other.
-/

namespace Spillway

theorem Key.sameClass_comm (first second : Key) : first.sameClass second = second.sameClass first := by
  cases first <;> cases second <;> rfl

theorem Key.Uniform.append
    {keys more : List Key}
    (uniform : Key.Uniform keys)
    (moreUniform : Key.Uniform more)
    (across : ∀ key ∈ keys, ∀ other ∈ more, key.sameClass other = true) :
    Key.Uniform (keys ++ more) := by
  intro key member other otherMember
  rcases List.mem_append.mp member with here | there
  · rcases List.mem_append.mp otherMember with otherHere | otherThere
    · exact uniform key here other otherHere
    · exact across key here other otherThere
  · rcases List.mem_append.mp otherMember with otherHere | otherThere
    · exact (Key.sameClass_comm key other).trans (across other otherHere key there)
    · exact moreUniform key there other otherThere

namespace Bloom

/-! ## Directories -/

theorem merge?_comm (bloom other : Bloom) : bloom.merge? other = other.merge? bloom := by
  apply Option.ext
  intro merged
  rw [merge?_eq_some_iff, merge?_eq_some_iff]
  have words : Array.zipWith (· ||| ·) bloom.words other.words =
      Array.zipWith (· ||| ·) other.words bloom.words :=
    Array.zipWith_comm_of_comm fun _ _ => UInt32.or_comm _ _
  rw [words]
  constructor
  · rintro ⟨same, log, union⟩
    exact ⟨same.symm, log.trans same, union⟩
  · rintro ⟨same, log, union⟩
    exact ⟨same.symm, log.trans same, union⟩

theorem zipWith_or_assoc (first second third : Array UInt32) :
    Array.zipWith (· ||| ·) (Array.zipWith (· ||| ·) first second) third =
      Array.zipWith (· ||| ·) first (Array.zipWith (· ||| ·) second third) := by
  apply Array.ext_getElem?
  intro index
  simp only [Array.getElem?_zipWith]
  cases first[index]? <;> cases second[index]? <;> cases third[index]? <;> try rfl
  exact congrArg some (UInt32.or_assoc _ _ _)

theorem merge?_assoc (first second third : Bloom) :
    (first.merge? second).bind (·.merge? third) = (second.merge? third).bind first.merge? := by
  apply Option.ext
  intro merged
  simp only [Option.bind_eq_some_iff, merge?_eq_some_iff]
  constructor
  · rintro ⟨between, ⟨same, log, union⟩, same', log', union'⟩
    have further : second.logBuckets = third.logBuckets := same.symm.trans (log.symm.trans same')
    obtain ⟨rest, merges⟩ : ∃ rest, second.merge? third = some rest := ⟨_, dif_pos further⟩
    have words := merge?_eq_some_iff.mp merges
    refine ⟨rest, words, same.trans words.2.1.symm, log'.trans log, ?_⟩
    rw [union', union, words.2.2, zipWith_or_assoc]
  · rintro ⟨rest, ⟨same, log, union⟩, same', log', union'⟩
    obtain ⟨between, merges⟩ : ∃ between, first.merge? second = some between :=
      ⟨_, dif_pos (same'.trans log)⟩
    have words := merge?_eq_some_iff.mp merges
    refine ⟨between, words, ?_, log'.trans words.2.1.symm, ?_⟩
    · rw [words.2.1, same', log, same]
    · rw [union', union, words.2.2, zipWith_or_assoc]

theorem merge?_self (bloom : Bloom) : bloom.merge? bloom = some bloom := by
  apply merge?_eq_some_iff.mpr
  refine ⟨rfl, rfl, ?_⟩
  apply Array.ext_getElem?
  intro index
  rw [Array.getElem?_zipWith]
  cases bloom.words[index]? with
  | none => rfl
  | some word => exact congrArg some UInt32.or_self.symm

/-- Directories differ in size exactly if they differ in their number of buckets. -/
theorem sizeBytes_eq_iff (bloom other : Bloom) :
    bloom.sizeBytes = other.sizeBytes ↔ bloom.logBuckets = other.logBuckets := by
  simp only [sizeBytes, size_words, bucketCount, Nat.one_shiftLeft]
  constructor
  · intro sizes
    exact (Nat.pow_right_inj (by decide)).mp (show 2 ^ _ = 2 ^ _ by omega)
  · intro same
    rw [same]

theorem merge?_eq_none_iff (bloom other : Bloom) :
    bloom.merge? other = none ↔ bloom.sizeBytes ≠ other.sizeBytes := by
  rw [Ne, sizeBytes_eq_iff]
  unfold merge?
  split
  · next same => simp [same]
  · next different => simp [different]

/-- A directory of no hashes lets none through. -/
theorem test_empty
    (logBuckets : Nat)
    (hash : UInt64) :
    (empty logBuckets).test hash = false := by
  have zeros : ∀ position, (empty logBuckets).words.getD position 0 = 0 := by
    intro position
    simp only [empty, Array.getD_eq_getD_getElem?, Array.getElem?_replicate]
    split <;> rfl
  rw [test, masks, salts, List.map_cons, testBits, zeros, UInt32.zero_and]
  rfl

end Bloom

namespace KeyRange

/-! ## Ranges -/

/-- The ends of a range, as a list. -/
def ends : KeyRange → List Key
  | empty => []
  | between low high _ _ => [low, high]

theorem spans_ends (range : KeyRange) : range.Spans range.ends := by
  cases range with
  | empty => rfl
  | between low high highClass ordered =>
      refine ⟨by simp [ends], by simp [ends], ?_⟩
      intro key member
      simp only [ends, List.mem_cons, List.not_mem_nil, or_false] at member
      rcases member with rfl | rfl
      · exact ⟨key.sameClass_refl, key.le_refl, ordered⟩
      · exact ⟨highClass, ordered, key.le_refl⟩

/-- Which keys there are is all that matters. -/
theorem Spans.congr
    {range : KeyRange}
    {keys more : List Key}
    (same : ∀ key, key ∈ keys ↔ key ∈ more) :
    range.Spans keys ↔ range.Spans more := by
  cases range with
  | empty => simp only [Spans, List.eq_nil_iff_forall_not_mem, same]
  | between low high => simp only [Spans, same]

theorem Spans.holds
    {range : KeyRange}
    {keys : List Key}
    (spans : range.Spans keys)
    {key : Key}
    (member : key ∈ keys) :
    range.Holds key := by
  cases range with
  | empty =>
      rw [show keys = [] from spans] at member
      exact absurd member List.not_mem_nil
  | between low high => exact spans.2.2 key member

/-- Keys that one range holds are of one class. -/
theorem uniform_of_holds
    {range : KeyRange}
    {keys : List Key}
    (holds : ∀ key ∈ keys, range.Holds key) :
    Key.Uniform keys := by
  intro key member other otherMember
  have here := holds key member
  have there := holds other otherMember
  cases range with
  | empty => exact here.elim
  | between low high =>
      exact Key.sameClass_trans ((Key.sameClass_comm key low).trans here.1) there.1

/-- A union holds the ends of both ranges. -/
theorem holds_of_merge
    {range other merged : KeyRange}
    (merges : range.merge other = .ok merged)
    {key : Key}
    (held : range.Holds key ∨ key ∈ other.ends) :
    merged.Holds key := by
  cases other with
  | empty =>
      cases merges
      exact held.resolve_right List.not_mem_nil
  | between low high =>
      obtain ⟨both, kept, _⟩ := holds_of_insertAll merges
      exact held.elim (kept key) (both key)

/-- The union of two ranges, if they have one. -/
def union? (range other : KeyRange) : Option KeyRange :=
  (range.merge other).toOption

theorem merge_eq_ok_iff {range other merged : KeyRange} :
    range.merge other = .ok merged ↔ range.union? other = some merged := by
  rw [union?]
  cases range.merge other <;> simp [Except.toOption]

/-- The union is the range of all keys, and there is one exactly if a range can hold all of them. -/
theorem union?_eq_some_iff
    {range other merged : KeyRange}
    {keys : List Key}
    (spans : range.Spans keys) :
    range.union? other = some merged ↔ merged.Spans (keys ++ other.ends) := by
  rw [← merge_eq_ok_iff]
  constructor
  · intro merges
    have held : ∀ key ∈ keys ++ other.ends, merged.Holds key := by
      intro key member
      exact holds_of_merge merges ((List.mem_append.mp member).imp_left spans.holds)
    have uniform : Key.Uniform (keys ++ other.ends) := uniform_of_holds held
    obtain ⟨union, unites, unionSpans⟩ := spans_merge spans other.spans_ends uniform
    rw [merges] at unites
    cases unites
    exact unionSpans
  · intro mergedSpans
    have uniform : Key.Uniform (keys ++ other.ends) :=
      uniform_of_holds fun _ member => mergedSpans.holds member
    obtain ⟨union, unites, unionSpans⟩ := spans_merge spans other.spans_ends uniform
    rw [unites, unionSpans.unique mergedSpans fun _ => Iff.rfl]

theorem union?_comm (range other : KeyRange) : range.union? other = other.union? range := by
  apply Option.ext
  intro merged
  rw [union?_eq_some_iff range.spans_ends, union?_eq_some_iff other.spans_ends]
  apply Spans.congr
  intro key
  rw [List.mem_append, List.mem_append, or_comm]

/-- Two ranges and then a third one are merged exactly into the range of the ends of all three. -/
theorem union?_bind_eq_some_iff {first second third merged : KeyRange} :
    (first.union? second).bind (·.union? third) = some merged ↔
      merged.Spans (first.ends ++ second.ends ++ third.ends) := by
  rw [Option.bind_eq_some_iff]
  constructor
  · rintro ⟨between, unites, further⟩
    exact (union?_eq_some_iff ((union?_eq_some_iff first.spans_ends).mp unites)).mp further
  · intro spans
    have uniform : Key.Uniform (first.ends ++ second.ends) :=
      uniform_of_holds fun _ member => spans.holds (List.mem_append_left _ member)
    obtain ⟨between, merges, betweenSpans⟩ :=
      spans_merge first.spans_ends second.spans_ends uniform
    exact ⟨between, merge_eq_ok_iff.mp merges, (union?_eq_some_iff betweenSpans).mpr spans⟩

theorem union?_assoc (first second third : KeyRange) :
    (first.union? second).bind (·.union? third) = (second.union? third).bind first.union? := by
  have turned : first.union? = (·.union? first) := funext fun other => first.union?_comm other
  apply Option.ext
  intro merged
  rw [turned, union?_bind_eq_some_iff, union?_bind_eq_some_iff]
  apply Spans.congr
  intro key
  simp only [List.mem_append]
  tauto

theorem union?_self (range : KeyRange) : range.union? range = some range := by
  rw [union?_eq_some_iff range.spans_ends]
  apply (Spans.congr _).mp range.spans_ends
  intro key
  rw [List.mem_append, or_self]

/-- Two ranges have no union exactly if they have ends of different classes. -/
theorem union?_eq_none_iff (range other : KeyRange) :
    range.union? other = none ↔
      ∃ key ∈ range.ends, ∃ further ∈ other.ends, key.sameClass further = false := by
  constructor
  · intro apart
    by_contra alike
    have uniform : Key.Uniform (range.ends ++ other.ends) := by
      apply Key.Uniform.append
      · exact uniform_of_holds fun _ member => range.spans_ends.holds member
      · exact uniform_of_holds fun _ member => other.spans_ends.holds member
      · intro key member further otherMember
        rw [← Bool.not_eq_false]
        exact fun different => alike ⟨key, member, further, otherMember, different⟩
    obtain ⟨merged, merges, _⟩ := spans_merge range.spans_ends other.spans_ends uniform
    rw [merge_eq_ok_iff, apart] at merges
    cases merges
  · rintro ⟨key, member, further, otherMember, different⟩
    apply Option.eq_none_iff_forall_ne_some.mpr
    intro merged unites
    have spans := (union?_eq_some_iff range.spans_ends).mp unites
    have same : key.sameClass further = true :=
      uniform_of_holds (fun _ member => spans.holds member)
        key (List.mem_append_left _ member) further (List.mem_append_right _ otherMember)
    rw [different] at same
    cases same

end KeyRange

namespace KeyFilter

/-! ## Filters -/

/-- The union of two filters, if they have one. -/
def union? (filter other : KeyFilter) : Option KeyFilter :=
  (filter.merge other).toOption

theorem merge_eq_ok_iff {filter other merged : KeyFilter} :
    filter.merge other = .ok merged ↔ filter.union? other = some merged := by
  rw [union?]
  cases filter.merge other <;> simp [Except.toOption]

theorem exists_merge_eq_error_iff {filter other : KeyFilter} :
    (∃ fault, filter.merge other = .error fault) ↔ filter.union? other = none := by
  rw [union?]
  cases filter.merge other <;> simp [Except.toOption]

@[simp] theorem union?_membership (bloom more : Bloom) :
    (membership bloom).union? (membership more) = (bloom.merge? more).map membership := by
  rw [union?, merge]
  cases bloom.merge? more <;> rfl

@[simp] theorem union?_range (bounds more : KeyRange) :
    (range bounds).union? (range more) = (bounds.union? more).map range := by
  rw [union?, merge, KeyRange.union?]
  cases bounds.merge more <;> rfl

@[simp] theorem union?_membership_range (bloom : Bloom) (bounds : KeyRange) :
    (membership bloom).union? (range bounds) = none :=
  rfl

@[simp] theorem union?_range_membership (bounds : KeyRange) (bloom : Bloom) :
    (range bounds).union? (membership bloom) = none :=
  rfl

theorem union?_comm (filter other : KeyFilter) : filter.union? other = other.union? filter := by
  cases filter with
  | membership bloom =>
      cases other with
      | membership more => rw [union?_membership, union?_membership, Bloom.merge?_comm]
      | range more => rfl
  | range bounds =>
      cases other with
      | membership more => rfl
      | range more => rw [union?_range, union?_range, KeyRange.union?_comm]

theorem union?_assoc (first second third : KeyFilter) :
    (first.union? second).bind (·.union? third) = (second.union? third).bind first.union? := by
  cases first with
  | membership bloom =>
      cases second with
      | range bounds => cases third <;> simp [Option.bind_map, Function.comp_def]
      | membership more =>
          cases third with
          | range bounds => simp
          | membership last =>
              have whole := congrArg (Option.map membership) (bloom.merge?_assoc more last)
              simpa only [union?_membership, Option.bind_map, Option.map_bind, Function.comp_def] using whole
  | range bounds =>
      cases second with
      | membership bloom => cases third <;> simp [Option.bind_map, Function.comp_def]
      | range more =>
          cases third with
          | membership bloom => simp
          | range last =>
              have whole := congrArg (Option.map range) (bounds.union?_assoc more last)
              simpa only [union?_range, Option.bind_map, Option.map_bind, Function.comp_def] using whole

theorem union?_self (filter : KeyFilter) : filter.union? filter = some filter := by
  cases filter with
  | membership bloom => rw [union?_membership, Bloom.merge?_self, Option.map_some]
  | range bounds => rw [union?_range, KeyRange.union?_self, Option.map_some]

/-- Why two filters have no union: they are of different kinds or sizes, or both are ranges that hold
keys, of different classes. -/
inductive Clash : KeyFilter → KeyFilter → Prop where
  | kinds
    {filter other : KeyFilter}
    (different : filter.kind ≠ other.kind) :
    Clash filter other
  | sizes
    {bloom more : Bloom}
    (different : bloom.sizeBytes ≠ more.sizeBytes) :
    Clash (membership bloom) (membership more)
  | classes
    {bounds more : KeyRange}
    {key further : Key}
    (held : key ∈ bounds.ends)
    (otherHeld : further ∈ more.ends)
    (different : key.sameClass further = false) :
    Clash (range bounds) (range more)

theorem union?_eq_none_iff (filter other : KeyFilter) :
    filter.union? other = none ↔ Clash filter other := by
  constructor
  · intro apart
    cases filter with
    | membership bloom =>
        cases other with
        | range more => exact .kinds nofun
        | membership more =>
            rw [union?_membership, Option.map_eq_none_iff, Bloom.merge?_eq_none_iff] at apart
            exact .sizes apart
    | range bounds =>
        cases other with
        | membership more => exact .kinds nofun
        | range more =>
            rw [union?_range, Option.map_eq_none_iff, KeyRange.union?_eq_none_iff] at apart
            obtain ⟨key, held, further, otherHeld, different⟩ := apart
            exact .classes held otherHeld different
  · intro clash
    cases clash with
    | kinds different => cases filter <;> cases other <;> first | rfl | exact absurd rfl different
    | sizes different =>
        rw [union?_membership, (Bloom.merge?_eq_none_iff _ _).mpr different, Option.map_none]
    | classes held otherHeld different =>
        rw [union?_range, Option.map_eq_none_iff, KeyRange.union?_eq_none_iff]
        exact ⟨_, held, _, otherHeld, different⟩

/-- The filter of no keys that is of the kind and the size of another one. -/
def blank : KeyFilter → KeyFilter
  | membership bloom => membership (Bloom.empty bloom.logBuckets)
  | range _ => range .empty

theorem union?_blank (filter : KeyFilter) : filter.union? filter.blank = some filter := by
  cases filter with
  | membership bloom => rw [blank, union?_membership, Bloom.merge?_empty, Option.map_some]
  | range bounds => rfl

theorem test_blank
    (filter : KeyFilter)
    (key : Key) :
    filter.blank.test key = false := by
  cases filter with
  | membership bloom => exact Bloom.test_empty _ _
  | range bounds => rfl

/-- Every filter of no keys that a filter can be merged with is the one of its kind and size. -/
theorem empty_eq_blank
    {filter : KeyFilter}
    {kind : FilterKind}
    {bloomBytes : Nat}
    (alike : ¬ Clash (empty kind bloomBytes) filter) :
    empty kind bloomBytes = filter.blank := by
  cases kind with
  | minMax =>
      cases filter with
      | membership bloom => exact absurd (.kinds nofun) alike
      | range bounds => rfl
  | bloom =>
      cases filter with
      | range bounds => exact absurd (.kinds nofun) alike
      | membership bloom =>
          have sizes : (Bloom.withSize bloomBytes).sizeBytes = bloom.sizeBytes :=
            not_not.mp fun different => alike (.sizes different)
          have same := ((Bloom.withSize bloomBytes).sizeBytes_eq_iff bloom).mp sizes
          exact congrArg (fun log => membership (Bloom.empty log)) same

/-- What merging does with any three filters. -/
structure Semilattice (filter other third : KeyFilter) : Prop where
  /-- The order does not matter. -/
  commutes : filter.union? other = other.union? filter
  /-- The grouping does not matter. -/
  associates :
    (filter.union? other).bind (·.union? third) = (other.union? third).bind filter.union?
  /-- A filter adds nothing to itself. -/
  idempotent : filter.merge filter = .ok filter
  /-- The filter of no keys of its kind and size adds nothing to a filter. -/
  blankAfter : filter.merge filter.blank = .ok filter
  /-- Nor does a filter change when it is added to the filter of no keys. -/
  blankBefore : filter.blank.merge filter = .ok filter
  /-- A filter that starts out empty is such a filter of no keys. -/
  blankIs : ∀ kind bloomBytes,
    ¬ Clash (empty kind bloomBytes) filter → empty kind bloomBytes = filter.blank
  /-- No key passes a filter of no keys. -/
  blankTests : ∀ key, filter.blank.test key = false
  /-- Two filters have no union exactly if they differ in kind, in size or in the class of their
  keys. -/
  refuses : (∃ fault, filter.merge other = .error fault) ↔ Clash filter other
  /-- A merge that is refused leaves its target as it was. -/
  unchanged : ∀ fault, filter.merge other = .error fault →
    (absorb other).outcome filter = (.error fault.status, filter)
  /-- A merge that is not refused leaves the union behind. -/
  united : ∀ union, filter.merge other = .ok union →
    (absorb other).outcome filter = (.ok (), union)
  /-- A key that passes one of two filters passes their union. -/
  monotone : ∀ union key, filter.merge other = .ok union →
    filter.test key = true ∨ other.test key = true → union.test key = true

/-- Filters are a partial semilattice, with merging as the join. -/
theorem semilattice (filter other third : KeyFilter) : Semilattice filter other third where
  commutes := filter.union?_comm other
  associates := filter.union?_assoc other third
  idempotent := merge_eq_ok_iff.mpr filter.union?_self
  blankAfter := merge_eq_ok_iff.mpr filter.union?_blank
  blankBefore := merge_eq_ok_iff.mpr ((filter.blank.union?_comm filter).trans filter.union?_blank)
  blankIs := fun _ _ => empty_eq_blank
  blankTests := filter.test_blank
  refuses := exists_merge_eq_error_iff.trans (union?_eq_none_iff filter other)
  unchanged := by
    intro fault refused
    rw [outcome_absorb, refused]
    rfl
  united := by
    intro union unites
    rw [outcome_absorb, unites]
    rfl
  monotone := fun _ key unites => (test_of_merge unites).2 key

end KeyFilter
end Spillway
