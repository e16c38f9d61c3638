import Spillway.Proofs.Filter.Merging
import Spillway.Proofs.Outcome

/-!
# Filters are merged in place

A filter is merged into another one by changing that one: the words of a directory are overwritten one
after the other, and a range is extended by one end and then by the other. A merge that is refused half
way would leave its target changed. It never is: whether two filters can be merged is settled before
anything is overwritten, so a merge in place leaves the union behind, or it leaves its target alone.
-/

namespace Spillway

/-- What a change in place comes to if it is made as a whole or not at all. -/
def settled {σ : Type} (target : σ) : Except FilterFault σ → Except Status Unit × σ
  | .ok changed => (.ok (), changed)
  | .error fault => (.error fault.status, target)

namespace Bloom

/-! ## Directories -/

/-- A word of the run that is set takes the bits that are meant for it. -/
theorem getElem?_setBits_of_inside
    (words : Array UInt32)
    (start index : Nat)
    (bits : List UInt32) :
    (setBits words start bits)[start + index]? =
      words[start + index]?.map fun word => word ||| bits.getD index 0 := by
  induction bits generalizing words start index with
  | nil =>
      rw [setBits]
      cases words[start + index]? with
      | none => rfl
      | some word => exact congrArg some UInt32.or_zero.symm
  | cons mask rest inductionHypothesis =>
      rw [setBits]
      cases index with
      | zero =>
          rw [getElem?_setBits_of_outside (.inl (by omega)), Array.getElem?_modify, if_pos (by omega)]
          exact Option.map_congr fun _ _ => rfl
      | succ index =>
          have shifted : start + (index + 1) = start + 1 + index := by omega
          rw [shifted, inductionHypothesis, Array.getElem?_modify, if_neg (by omega)]
          exact Option.map_congr fun _ _ => rfl

/-- To set the bits of the words of one directory in another, word by word, is to unite them. -/
theorem setBits_words (bloom other : Bloom) (same : bloom.logBuckets = other.logBuckets) :
    setBits bloom.words 0 other.words.toList =
      Array.zipWith (· ||| ·) bloom.words other.words := by
  have sizes : bloom.words.size = other.words.size := by
    rw [bloom.size_words, other.size_words, same]
  apply Array.ext_getElem?
  intro index
  have here := getElem?_setBits_of_inside bloom.words 0 index other.words.toList
  rw [Nat.zero_add] at here
  rw [here, Array.getElem?_zipWith]
  by_cases inside : index < bloom.words.size
  · rw [Array.getElem?_eq_getElem inside, Array.getElem?_eq_getElem (sizes ▸ inside)]
    simp [sizes ▸ inside]
  · rw [Array.getElem?_eq_none (Nat.not_lt.mp inside)]
    rfl

/-- Merges another directory in place: one of another size is refused, the words of any other one are
added one after the other. -/
def absorb (other : Bloom) : Step Bloom Unit := do
  let bloom ← get
  if bloom.logBuckets ≠ other.logBuckets then
    Step.fail (FilterFault.sizes bloom.sizeBytes other.sizeBytes).status
  else
    set { bloom with
      words := setBits bloom.words 0 other.words.toList
      size_words := by rw [size_setBits, bloom.size_words] : Bloom }

theorem outcome_absorb (bloom other : Bloom) :
    (absorb other).outcome bloom =
      settled bloom (match bloom.merge? other with
        | some merged => .ok merged
        | none => .error (.sizes bloom.sizeBytes other.sizeBytes)) := by
  rw [absorb, Step.outcome_bind]
  show (if bloom.logBuckets ≠ other.logBuckets then _ else _ : Step Bloom Unit).outcome bloom = _
  unfold merge?
  by_cases same : bloom.logBuckets = other.logBuckets
  · rw [if_neg (not_not.mpr same), dif_pos same]
    refine Prod.ext rfl ?_
    apply Bloom.ext
    · rfl
    · exact setBits_words bloom other same
  · rw [if_pos same, dif_neg same]
    rfl

end Bloom

namespace KeyRange

/-! ## Ranges -/

/-- Extends a range in place: a key of the other class is refused. -/
def extend (key : Key) : Step KeyRange Unit := do
  match ← get with
  | empty => set (between key key key.sameClass_refl key.le_refl)
  | between low high highClass ordered =>
    if keyClass : low.sameClass key = true then
      set (between (lower key low) (higher key high) (sameClass_lower_higher highClass keyClass)
        (lower_le_higher ordered))
    else Step.fail (FilterFault.range (.insertClass low key)).status

/-- Merges another range in place: its lower end comes first. -/
def absorb (other : KeyRange) : Step KeyRange Unit :=
  match other with
  | empty => return ()
  | between low high _ _ => do
    extend low
    extend high

theorem outcome_extend
    (range : KeyRange)
    (key : Key) :
    (extend key).outcome range = settled range ((range.insert key).mapError .range) := by
  rw [extend, Step.outcome_bind]
  cases range with
  | empty => rfl
  | between low high highClass ordered =>
      show (if keyClass : low.sameClass key = true then _ else _ : Step KeyRange Unit).outcome _ = _
      unfold insert
      by_cases keyClass : low.sameClass key = true
      · rw [dif_pos keyClass]
        simp only [dif_pos keyClass]
        rfl
      · rw [dif_neg keyClass]
        simp only [dif_neg keyClass]
        rfl

/-- A range that has taken a key takes every other one of its class. -/
theorem exists_insert_of_insert
    {range next : KeyRange}
    {key other : Key}
    (inserts : range.insert key = .ok next)
    (same : key.sameClass other = true) :
    ∃ extended, next.insert other = .ok extended := by
  obtain ⟨holds, _, _⟩ := holds_of_insert inserts
  cases next with
  | empty => exact holds.elim
  | between low high highClass ordered =>
      have keyClass : low.sameClass other = true := Key.sameClass_trans holds.1 same
      exact ⟨_, dif_pos keyClass⟩

/-- The first end that is taken decides: the second one is of the same class. -/
theorem outcome_absorb (range other : KeyRange) :
    (absorb other).outcome range = settled range ((range.merge other).mapError .range) := by
  cases other with
  | empty => rfl
  | between low high highClass ordered =>
      have both : range.merge (between low high highClass ordered) =
          range.insert low >>= fun next => next.insert high := by
        simp only [merge, insertAll, List.foldlM_cons, List.foldlM_nil, bind_pure]
      rw [both, absorb, Step.outcome_bind, outcome_extend]
      cases inserts : range.insert low with
      | error cause => rfl
      | ok next =>
          obtain ⟨extended, further⟩ := exists_insert_of_insert inserts highClass
          show (extend high).outcome next = settled range ((next.insert high).mapError .range)
          rw [outcome_extend, further]
          rfl

end KeyRange

namespace KeyFilter

/-! ## Filters -/

/-- Merges another filter in place; one of the other kind is refused. -/
def absorb (other : KeyFilter) : Step KeyFilter Unit := fun filter =>
  match filter, other with
  | membership bloom, membership more =>
    let (result, bloom) := (Bloom.absorb more).outcome bloom
    (result, membership bloom)
  | range bounds, range more =>
    let (result, bounds) := (KeyRange.absorb more).outcome bounds
    (result, range bounds)
  | filter, other => (.error (FilterFault.kinds filter.kind other.kind).status, filter)

/-- A merge in place leaves the union behind, or its target as it was. -/
theorem outcome_absorb (filter other : KeyFilter) :
    (absorb other).outcome filter = settled filter (filter.merge other) := by
  show absorb other filter = _
  cases filter with
  | membership bloom =>
      cases other with
      | range more => rfl
      | membership more =>
          simp only [absorb, merge, Bloom.outcome_absorb]
          cases bloom.merge? more <;> rfl
  | range bounds =>
      cases other with
      | membership more => rfl
      | range more =>
          simp only [absorb, merge, KeyRange.outcome_absorb]
          cases bounds.merge more <;> rfl

end KeyFilter
end Spillway
