import Spillway.Proofs.Operator.Roots
import Spillway.Proofs.Operator.Tallying

/-!
# Keys that no level tells apart

Rows go to a partition by their keys, first to a root and then, whenever a partition is split, one level
deeper. So the rows of a partition are all rows of certain keys, in the order in which they arrived, and
these keys belong to one bucket at the level of the partition and at every level above it. Rows of
different keys that are in one partition still when it lies on the last level are therefore in one bucket
at all levels that there are.
-/

namespace Spillway
namespace Partitioned

variable {input before after : Partitioned} {side : ProbeSide} {rows : List Row} {contents : Contents}
  {partition levels : Nat} {place : PartitionPlace}

/-- Two rows have different keys that are in one bucket at each of the first levels. -/
def Collides
    (input : Partitioned)
    (side : ProbeSide)
    (rows : List Row)
    (levels : Nat) : Prop :=
  ∃ one ∈ rows, ∃ another ∈ rows, side.keyOf one ≠ side.keyOf another ∧
    ∀ level < levels, (input.directory level).bucketOfKey (side.keyOf one) =
      (input.directory level).bucketOfKey (side.keyOf another)

theorem Collides.mono
    {fewer : Nat}
    (collides : input.Collides side rows levels)
    (le : fewer ≤ levels) :
    input.Collides side rows fewer := by
  obtain ⟨one, inside, another, alsoInside, different, same⟩ := collides
  exact ⟨one, inside, another, alsoInside, different,
    fun level below => same level (Nat.lt_of_lt_of_le below le)⟩

theorem collides_of_params (params : after.params = before.params) :
    after.Collides side rows levels ↔ before.Collides side rows levels := by
  simp only [Collides, directory_of_params params]

/-- The build rows of every partition are all rows of certain keys, which are in one bucket at each level
down to that of the partition. -/
def Routes
    (input : Partitioned)
    (side : ProbeSide)
    (rows : List Row)
    (contents : Contents) : Prop :=
  ∀ partition place, input.arena.place? partition = some place →
    ∃ keys : Option Key → Bool,
      (contents (.build, partition) = rows.filter fun row => keys (side.keyOf row)) ∧
        ∀ one another, keys one = true → keys another = true → ∀ level ≤ place.level,
          (input.directory level).bucketOfKey one = (input.directory level).bucketOfKey another

/-- Build rows of one partition that have different keys collide at all levels down to its own. -/
theorem Routes.collides
    (routes : input.Routes side rows contents)
    (found : input.arena.place? partition = some place)
    (varies : side.Varies (contents (.build, partition))) :
    input.Collides side rows (place.level + 1) := by
  obtain ⟨keys, own, together⟩ := routes partition place found
  obtain ⟨one, inside, another, alsoInside, different⟩ := varies
  rw [own, List.mem_filter] at inside alsoInside
  exact ⟨one, inside.1, another, alsoInside.1, different, fun level below =>
    together _ _ inside.2 alsoInside.2 level (Nat.le_of_lt_succ below)⟩

/-- The roots have the rows of their buckets. -/
theorem Rooted.routes
    (rooted : input.Rooted True rows contents)
    (declares : input.side? .build = some side) :
    input.Routes side rows contents := by
  intro root place found
  have known := Arena.lt_size_of_place? found
  rw [rooted.size] at known
  rw [rooted.place root known, Option.some.injEq] at found
  subst found
  refine ⟨fun key => (input.directory 0).bucketOfKey key = root, ?_, fun one another here there => ?_⟩
  · rw [rooted.build trivial root known]
    simp only [bucketOf_of_side? declares]
  · intro level top
    rw [Nat.le_zero.mp top]
    exact (of_decide_eq_true here).trans (of_decide_eq_true there).symm

theorem Routes.of_quiet
    (routes : before.Routes side rows contents)
    (quiet : before.Quiet after) :
    after.Routes side rows contents := by
  intro partition place found
  rw [place?_of_outline quiet.outline] at found
  simp only [directory_of_params (params_of_outline quiet.outline)]
  exact routes partition place found

/-- A partition that is done with has no rows, and the others have theirs. -/
theorem Routes.of_settles
    {left : Contents}
    (routes : before.Routes side rows contents)
    (settles : before.Settles True after partition contents left) :
    after.Routes side rows left := by
  intro other place found
  simp only [directory_of_params settles.params]
  by_cases same : other = partition
  · refine ⟨fun _ => false, ?_, fun _ _ none => nomatch none⟩
    rw [same, settles.emptied, List.filter_false]
  · rw [settles.places other same] at found
    rw [settles.others .build other same]
    exact routes other place found

/-- A split takes the rows of a partition apart by the bucket of one level more. -/
theorem Routes.of_divides
    {divided : Contents}
    (routes : before.Routes side rows contents)
    (divides : before.Divides True after partition place contents divided)
    (found : before.arena.place? partition = some place)
    (declares : before.side? .build = some side) :
    after.Routes side rows divided := by
  intro other placed there
  simp only [directory_of_params divides.params]
  by_cases same : other = partition
  · refine ⟨fun _ => false, ?_, fun _ _ none => nomatch none⟩
    rw [same, divides.emptied, List.filter_false]
  by_cases old : other < before.arena.size
  · rw [divides.places other old same] at there
    rw [divides.others .build other old same]
    exact routes other placed there
  · have known := Arena.lt_size_of_place? there
    rw [divides.size] at known
    obtain ⟨bucket, rfl⟩ := Nat.exists_eq_add_of_le (Nat.le_of_not_lt old)
    have bounded := Nat.lt_of_add_lt_add_left known
    rw [divides.child bucket bounded, Option.some.injEq] at there
    subst there
    obtain ⟨keys, own, together⟩ := routes partition place found
    let deeper := before.directory (place.level + 1)
    refine ⟨fun key => keys key && deeper.bucketOfKey key = bucket, ?_, ?_⟩
    · rw [divides.build trivial bucket bounded, own, List.filter_filter]
      refine List.filter_congr fun row _ => ?_
      rw [bucketOf_of_side? declares, Bool.and_comm]
    · intro one another here there level above
      simp only [Bool.and_eq_true, decide_eq_true_eq] at here there
      obtain above | rfl := Nat.le_succ_iff.mp above
      -- Above the new level the keys were together before, and on it they are by the split.
      · exact together one another here.1 there.1 level above
      · exact here.2.trans there.2.symm

end Partitioned
end Spillway
