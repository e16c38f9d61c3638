import Spillway.Data.Key

/-!
# Key ranges

A range is the smallest interval that holds all keys it was given, or nothing at all. All its keys are
of one class. A key of the other class is never ruled out.
-/

namespace Spillway

/-- An interval of keys of one class, or nothing. -/
inductive KeyRange where
  | empty
  | between
    (low high : Key)
    (sameClass : low.sameClass high = true)
    (ordered : low ≤ high)

/-- Why a range cannot be made or extended. -/
inductive RangeFault where
  | boundsClass (low high : Key)
  | inverted (low high : Key)
  | insertClass (low key : Key)
  deriving DecidableEq, Repr

/-- Description of the fault. -/
def RangeFault.message : RangeFault → String
  | boundsClass low high =>
    "runtime min/max bounds type mismatch: " ++ low.render ++ " vs " ++ high.render
  | inverted low high => "runtime min/max bounds inverted: " ++ low.render ++ " > " ++ high.render
  | insertClass low key =>
    "runtime min/max insert type mismatch: " ++ low.render ++ " vs " ++ key.render

namespace KeyRange

/-- The ends of the interval. -/
def bounds : KeyRange → Option (Key × Key)
  | empty => none
  | between low high _ _ => some (low, high)

theorem bounds_injective {a b : KeyRange} (equal : a.bounds = b.bounds) : a = b := by
  cases a <;> cases b <;> simp_all [bounds]

instance : DecidableEq KeyRange := fun a b =>
  decidable_of_iff (a.bounds = b.bounds) ⟨bounds_injective, fun equal => equal ▸ rfl⟩

/-- Whether the range holds nothing. -/
def isEmpty : KeyRange → Bool
  | empty => true
  | between .. => false

/-- The interval between two keys. -/
def ofBounds (low high : Key) : Except RangeFault KeyRange :=
  if sameClass : low.sameClass high = true then
    if ordered : low ≤ high then .ok (between low high sameClass ordered)
    else .error (.inverted low high)
  else .error (.boundsClass low high)

/-- The smaller of two keys. -/
def lower (a b : Key) : Key :=
  if a < b then a else b

/-- The larger of two keys. -/
def higher (a b : Key) : Key :=
  if b < a then a else b

theorem sameClass_lower_higher
    {low high key : Key}
    (highClass : low.sameClass high = true)
    (keyClass : low.sameClass key = true) :
    (lower key low).sameClass (higher key high) = true := by
  unfold lower higher
  split <;> split <;> cases low <;> cases high <;> cases key <;> simp_all [Key.sameClass]

theorem lower_le_higher {low high key : Key} (ordered : low ≤ high) :
    lower key low ≤ higher key high := by
  unfold lower higher
  split <;> split
  · exact Key.le_refl key
  · next notAbove => exact notAbove
  · next notBelow _ => exact notBelow
  · exact ordered

/-- The smallest interval that also holds a key. -/
def insert (range : KeyRange) (key : Key) : Except RangeFault KeyRange :=
  match range with
  | empty => .ok (between key key key.sameClass_refl key.le_refl)
  | between low high highClass ordered =>
    if keyClass : low.sameClass key = true then
      .ok (between (lower key low) (higher key high) (sameClass_lower_higher highClass keyClass)
        (lower_le_higher ordered))
    else .error (.insertClass low key)

/-- The smallest interval that also holds all of the keys. -/
def insertAll (range : KeyRange) (keys : List Key) : Except RangeFault KeyRange :=
  keys.foldlM insert range

/-- The smallest interval that holds both ranges. -/
def merge (range other : KeyRange) : Except RangeFault KeyRange :=
  match other with
  | empty => .ok range
  | between low high _ _ => range.insertAll [low, high]

/-- Whether a key may have been inserted. A range without keys rules out every key; otherwise a key
of the other class is let through. -/
def test (range : KeyRange) (key : Key) : Bool :=
  match range with
  | empty => false
  | between low high _ _ => !low.sameClass key || (low ≤ key && key ≤ high)

/-- Whether some key between two keys may have been inserted. -/
def overlaps (range : KeyRange) (first last : Key) : Bool :=
  match range with
  | empty => false
  | between low high _ _ =>
    !low.sameClass first || !low.sameClass last || (first ≤ high && low ≤ last)

end KeyRange

end Spillway
