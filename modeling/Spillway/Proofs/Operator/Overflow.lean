import Mathlib.Algebra.Order.BigOperators.Group.List
import Mathlib.Algebra.Order.Group.Int
import Spillway.Proofs.Operator.Supplied

/-!
# Sums in the order of arrival

The end of an aggregation that reaches no limit fails exactly if some sum leaves the range of 64-bit
integers while the rows of its key are added up in the order in which they arrived. Memory, spilled
partitions and splits have no part in that, and neither has the order of rows of different keys. A sum
that is out of the range at the end always counts; one that has left the range and come back counts as
well, which takes numbers of both signs.
-/

namespace Spillway

open Step

variable {side : ProbeSide} {aggregates : List Aggregate} {rows others : List Row} {key : Option Key}
  {column : String}

namespace ProbeSide

/-- The sum of a column over all rows of a key is out of the range. -/
def SumsBeyond
    (side : ProbeSide)
    (rows : List Row)
    (key : Option Key)
    (column : String) : Prop :=
  Accumulator.inRange (numbers side.schema column (side.having key rows)).sum = false

/-- The numbers that a column has for a key are not of both signs. -/
def OneSigned
    (side : ProbeSide)
    (rows : List Row)
    (key : Option Key)
    (column : String) : Prop :=
  (∀ number ∈ numbers side.schema column (side.having key rows), 0 ≤ number) ∨
    ∀ number ∈ numbers side.schema column (side.having key rows), number ≤ 0

theorem SumsBeyond.exceeds
    (beyond : side.SumsBeyond rows key column)
    (asked : .sum column ∈ aggregates) :
    side.Exceeds aggregates rows key :=
  ⟨column, _, asked, List.prefix_rfl, beyond⟩

/-- Numbers of one sign do not lead a sum back. -/
theorem OneSigned.sumsBeyond
    {first : List Int}
    (signed : side.OneSigned rows key column)
    (start : first <+: numbers side.schema column (side.having key rows))
    (out : Accumulator.inRange first.sum = false) :
    side.SumsBeyond rows key column := by
  obtain ⟨later, whole⟩ := start
  rw [SumsBeyond]
  rw [OneSigned] at signed
  rw [← whole] at signed ⊢
  have low : Int64.minValue.toInt ≤ 0 := by decide
  have high : 0 ≤ Int64.maxValue.toInt := by decide
  rw [Accumulator.inRange, Bool.and_eq_false_iff, decide_eq_false_iff_not, decide_eq_false_iff_not]
    at out ⊢
  rw [List.sum_append]
  obtain positive | negative := signed
  · have firstSum : 0 ≤ first.sum :=
      List.sum_nonneg fun number member => positive number (List.mem_append_left _ member)
    have laterSum : 0 ≤ later.sum :=
      List.sum_nonneg fun number member => positive number (List.mem_append_right _ member)
    omega
  · have firstSum := List.sum_le_card_nsmul first 0
      fun number member => negative number (List.mem_append_left _ member)
    have laterSum := List.sum_le_card_nsmul later 0
      fun number member => negative number (List.mem_append_right _ member)
    rw [nsmul_zero] at firstSum laterSum
    omega

/-- It is the rows of the key that matter. -/
theorem exceeds_of_having
    (same : side.having key rows = side.having key others) :
    side.Exceeds aggregates rows key ↔ side.Exceeds aggregates others key := by
  rw [Exceeds, Exceeds, same]

end ProbeSide

namespace Aggregation

variable {aggregation other : Aggregation} {chunks : List Chunk}

/-- The end reaches no limit. -/
def WithinLimits (aggregation : Aggregation) : Prop :=
  aggregation.endCode? ≠ some .resourceLimitExceeded

/-- The end fails because of a sum. -/
def Overflows (aggregation : Aggregation) : Prop :=
  aggregation.endCode? = some .arithmeticOverflow

/-- What is visited at the end is all there is, so that every sum that leaves the range is met. -/
theorem Gathers.overflows_iff
    (gathers : aggregation.Gathers side aggregates rows)
    (within : aggregation.WithinLimits) :
    aggregation.Overflows ↔ ∃ key, side.Exceeds aggregates rows key := by
  rw [WithinLimits] at within
  rw [Overflows]
  obtain ⟨none, -, _, arranged⟩ | ⟨status, found, refuses⟩ := gathers.endCode_cases
  -- Nothing is left to be visited, and so there is no partition where a sum could leave the range.
  · refine iff_of_false (fun fails => ?_) fun ⟨key, exceeds⟩ => ?_
    · cases none.symm.trans fails
    · obtain ⟨_, member, -⟩ := arranged.due key exceeds
      exact List.not_mem_nil member
  · cases refuses with
    | exceeded code exceeds _ => exact iff_of_true (code ▸ found) ⟨_, exceeds⟩
    | tooDeep code _ _ => exact absurd (code ▸ found) within
    | full code => exact absurd (code ▸ found) within

/-- Sums are added up in the order in which rows arrive. -/
structure SumsInOrder
    (aggregation : Aggregation)
    (side : ProbeSide)
    (aggregates : List Aggregate)
    (rows : List Row) : Prop where
  /-- The end fails because of a sum exactly if one leaves the range on the way. -/
  overflows_iff : aggregation.Overflows ↔ ∃ key, side.Exceeds aggregates rows key
  /-- So it does if one is out of the range at the end. -/
  beyond : ∀ key column, .sum column ∈ aggregates → side.SumsBeyond rows key column →
    aggregation.Overflows
  /-- And only then, if no key has numbers of both signs in a column that is summed up. -/
  oneSigned : (∀ key column, .sum column ∈ aggregates → side.OneSigned rows key column) →
    aggregation.Overflows →
      ∃ key column, .sum column ∈ aggregates ∧ side.SumsBeyond rows key column
  /-- Any other aggregation to which the rows of each key were supplied in the same order agrees, whatever
  its sizing and its chunks, and however the keys follow each other. -/
  agrees : ∀ {chunks : List Chunk} {other : Aggregation}, Supplied side aggregates chunks other →
    other.WithinLimits →
    (∀ key, side.having key (chunks.flatMap Chunk.rows) = side.having key rows) →
      (other.Overflows ↔ aggregation.Overflows)

/-- An aggregation that reaches no limit sums up the rows of each key in the order in which they were
supplied, and fails if and only if one of the sums leaves the range on the way. -/
theorem sumsInOrder_of_supplied
    (supplied : Supplied side aggregates chunks aggregation)
    (within : aggregation.WithinLimits) :
    aggregation.SumsInOrder side aggregates (chunks.flatMap Chunk.rows) := by
  have iff := supplied.gathers.overflows_iff within
  refine ⟨iff, fun key column asked beyond => iff.mpr ⟨key, beyond.exceeds asked⟩, ?_, ?_⟩
  · intro signed overflows
    obtain ⟨key, column, first, asked, start, out⟩ := iff.mp overflows
    exact ⟨key, column, asked, (signed key column asked).sumsBeyond start out⟩
  · intro chunks other otherSupplied otherWithin same
    rw [iff, otherSupplied.gathers.overflows_iff otherWithin]
    exact exists_congr fun key => ProbeSide.exceeds_of_having (same key)

namespace Sample

/-- A key and a number of 64 bits. -/
def wide : ProbeSide :=
  ⟨[{ name := "k", type := .int64 }, { name := "v", type := .int64 }], "k"⟩

/-- Numbers of one key that lead a sum out of the range and back. -/
def outAndBack : Chunk :=
  ⟨wide.schema, [[.int 1, .int Int64.maxValue], [.int 1, .int 1], [.int 1, .int (-1)]], by decide⟩

/-- The same numbers in an order that keeps within the range. -/
def backAndForth : Chunk :=
  ⟨wide.schema, [[.int 1, .int Int64.maxValue], [.int 1, .int (-1)], [.int 1, .int 1]], by decide⟩

/-- An aggregation that sums up, and may keep so little that all partitions are spilled. -/
def adding : Aggregation :=
  valueOf (make ⟨2, 2, 3⟩ wide.schema wide.key [.sum "v"] {} {}) (by decide +kernel)

/-- The aggregation after the numbers were added in the first order. -/
def raised : Aggregation :=
  ((addChunk outAndBack).outcome adding).2

/-- The aggregation after they were added in the second order. -/
def lowered : Aggregation :=
  ((addChunk backAndForth).outcome adding).2

theorem supplied_adding : Supplied wide [.sum "v"] [] adding :=
  .new (eq_ok_valueOf _ _) ⟨rfl, fun _ => rfl, fun _ _ => rfl⟩

theorem supplied_raised : Supplied wide [.sum "v"] [outAndBack] raised :=
  supplied_adding.added rfl (by decide) (succeeds_of_isOk _ _ (by decide +kernel))

theorem supplied_lowered : Supplied wide [.sum "v"] [backAndForth] lowered :=
  supplied_adding.added rfl (by decide) (succeeds_of_isOk _ _ (by decide +kernel))

theorem endCode?_raised : raised.endCode? = some .arithmeticOverflow := by
  decide +kernel

theorem endCode?_lowered : lowered.endCode? = none := by
  decide +kernel

end Sample

/-- Numbers are summed up in the order of arrival when they are read back from the store, too. -/
theorem sumsInOrder_raised :
    Supplied Sample.wide [.sum "v"] [Sample.outAndBack] Sample.raised ∧
      Sample.raised.WithinLimits ∧
      (finish.outcome Sample.raised).2.input.partitionsSpilled = 1 ∧
      Sample.raised.SumsInOrder Sample.wide [.sum "v"] Sample.outAndBack.rows := by
  have within : Sample.raised.WithinLimits := by
    rw [WithinLimits, Sample.endCode?_raised]
    decide
  exact ⟨Sample.supplied_raised, within, by decide +kernel,
    sumsInOrder_of_supplied Sample.supplied_raised within⟩

/-- An aggregation fails although its only sum is in the range at the end, and with the same rows in
another order it does not. -/
theorem not_overflows_iff_sumsBeyond :
    Supplied Sample.wide [.sum "v"] [Sample.outAndBack] Sample.raised ∧
      Sample.raised.Overflows ∧
      (¬ ∃ key column, Aggregate.sum column ∈ [Aggregate.sum "v"] ∧
        Sample.wide.SumsBeyond Sample.outAndBack.rows key column) ∧
      Supplied Sample.wide [.sum "v"] [Sample.backAndForth] Sample.lowered ∧
      Sample.lowered.WithinLimits ∧
      Sample.backAndForth.rows.Perm Sample.outAndBack.rows ∧
      ¬ Sample.lowered.Overflows := by
  refine ⟨Sample.supplied_raised, Sample.endCode?_raised, ?_, Sample.supplied_lowered, ?_, by decide, ?_⟩
  · rintro ⟨key, column, asked, beyond⟩
    cases List.mem_singleton.mp asked
    have alike : ∀ row ∈ Sample.outAndBack.rows, Sample.wide.keyOf row = some (.int 1) := by
      decide +kernel
    by_cases here : key = some (.int 1)
    · have whole : Sample.wide.having key Sample.outAndBack.rows = Sample.outAndBack.rows :=
        List.filter_eq_self.mpr fun row member => by simpa [here] using alike row member
      have inside : Accumulator.inRange
          (numbers Sample.wide.schema "v" Sample.outAndBack.rows).sum = true := by
        decide +kernel
      rw [ProbeSide.SumsBeyond, whole, inside] at beyond
      cases beyond
    · have none : Sample.wide.having key Sample.outAndBack.rows = [] :=
        List.filter_eq_nil_iff.mpr fun row member => by simp [alike row member, Ne.symm here]
      rw [ProbeSide.SumsBeyond, none] at beyond
      cases beyond
  · rw [WithinLimits, Sample.endCode?_lowered]
    decide
  · rw [Overflows, Sample.endCode?_lowered]
    decide

end Aggregation
end Spillway
