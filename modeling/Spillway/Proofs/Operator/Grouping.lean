import Mathlib.Algebra.BigOperators.Group.List.Basic
import Mathlib.Algebra.Ring.Int.Defs
import Mathlib.Data.List.Dedup
import Spillway.Operator.Aggregation
import Spillway.Proofs.Operator.Contents

/-!
# Grouped rows

Rows are grouped by key, and each group yields one row: its key, followed by the aggregates of its
rows. Rows of one key are in one bucket, so the groups of the buckets are the groups of all rows. A
table that took in rows has exactly their groups, and its accumulators stand for exact aggregates.
-/

namespace Spillway

/-- The number of a key that is one. -/
def Key.number? : Key → Option Int
  | .int value => some value.toInt
  | .text _ => none

/-- The numbers in a column; rows without a value there have none. -/
def numbers
    (schema : Schema)
    (column : String)
    (rows : List Row) : List Int :=
  rows.filterMap fun row => (schema.keyOf column row).bind Key.number?

/-- A number of rows as it is counted in 64 bits. -/
def counted (rows : Nat) : Int :=
  (Int64.ofNat rows).toInt

/-- The aggregate of rows. Without a value, rows can only be counted. -/
def Aggregate.result
    (schema : Schema)
    (rows : List Row) : Aggregate → Option Int
  | countStar => some (counted rows.length)
  | count column => some (counted (numbers schema column rows).length)
  | sum column =>
    if (numbers schema column rows).isEmpty then none else some (numbers schema column rows).sum
  | min column => (numbers schema column rows).min?
  | max column => (numbers schema column rows).max?

/-- What a cell stands for, integers as such. -/
inductive Value where
  | absent
  | number (value : Int)
  | text (value : String)
  | other (cell : Cell)
  deriving DecidableEq

/-- The value of a cell. -/
def Cell.value : Cell → Value
  | null => .absent
  | int value => .number value.toInt
  | text value => .text value
  | cell => .other cell

/-- The value of a key that may be absent. -/
def Value.ofKey : Option Key → Value
  | none => absent
  | some (.int value) => number value.toInt
  | some (.text value) => text value

/-- The value of a number that may be absent. -/
def Value.ofNumber (found : Option Int) : Value :=
  found.elim absent number

/-- The values in the rows of a chunk. -/
def Chunk.values (chunk : Chunk) : List (List Value) :=
  chunk.rows.map (List.map Cell.value)

/-- The rows of one key. -/
def ProbeSide.having
    (side : ProbeSide)
    (key : Option Key)
    (rows : List Row) : List Row :=
  rows.filter fun row => side.keyOf row = key

/-- The output of a group: its key and the aggregates of its rows. -/
def groupOf
    (side : ProbeSide)
    (aggregates : List Aggregate)
    (rows : List Row)
    (key : Option Key) : List Value :=
  Value.ofKey key :: aggregates.map fun aggregate =>
    Value.ofNumber (aggregate.result side.schema (side.having key rows))

/-- The output of one group for each key among the rows. -/
def grouped
    (side : ProbeSide)
    (aggregates : List Aggregate)
    (rows : List Row) : List (List Value) :=
  (rows.map side.keyOf).dedup.map (groupOf side aggregates rows)

section Grouping

variable {side : ProbeSide} {aggregates : List Aggregate}

theorem grouped_nil : grouped side aggregates [] = [] :=
  rfl

theorem grouped_eq_nil_iff {rows : List Row} : grouped side aggregates rows = [] ↔ rows = [] := by
  rw [grouped, List.map_eq_nil_iff, List.dedup_eq_nil, List.map_eq_nil_iff]

theorem having_concat_self
    (rows : List Row)
    (row : Row) :
    side.having (side.keyOf row) (rows ++ [row]) = side.having (side.keyOf row) rows ++ [row] := by
  rw [ProbeSide.having, List.filter_append, List.filter_cons_of_pos (by simp)]
  rfl

theorem having_concat_of_ne
    {rows : List Row}
    {row : Row}
    {key : Option Key}
    (different : key ≠ side.keyOf row) :
    side.having key (rows ++ [row]) = side.having key rows := by
  rw [ProbeSide.having, List.filter_append,
    List.filter_cons_of_neg (by simpa using Ne.symm different)]
  exact List.append_nil _

/-- The group of a key is the one among the rows of its bucket. -/
theorem groupOf_filter
    {rows : List Row}
    {key : Option Key}
    {bucket : Option Key → Nat} :
    groupOf side aggregates (rows.filter fun row => bucket (side.keyOf row) = bucket key) key =
      groupOf side aggregates rows key := by
  have same : side.having key (rows.filter fun row => bucket (side.keyOf row) = bucket key) =
      side.having key rows := by
    rw [ProbeSide.having, ProbeSide.having, List.filter_filter]
    refine List.filter_congr fun row _ => ?_
    by_cases here : side.keyOf row = key
    · simp [here]
    · simp [here]
  rw [groupOf, groupOf, same]

/-- The groups of the buckets together are the groups of all rows, if the bucket of a row is decided
by its key. -/
theorem perm_grouped_buckets
    {count : Nat}
    {bucket : Option Key → Nat}
    (bounded : ∀ key, bucket key < count)
    (rows : List Row) :
    ((List.range count).flatMap fun index =>
      grouped side aggregates (rows.filter fun row => bucket (side.keyOf row) = index)).Perm
      (grouped side aggregates rows) := by
  have parts : ∀ index ∈ List.range count,
      (grouped side aggregates (rows.filter fun row => bucket (side.keyOf row) = index)).Perm
        (((rows.map side.keyOf).dedup.filter fun key => bucket key = index).map
          (groupOf side aggregates rows)) := by
    intro index _
    have keys : ((rows.filter fun row => bucket (side.keyOf row) = index).map side.keyOf).dedup.Perm
        ((rows.map side.keyOf).dedup.filter fun key => bucket key = index) := by
      rw [List.perm_ext_iff_of_nodup (List.nodup_dedup _) ((List.nodup_dedup _).filter _)]
      intro key
      simp only [List.mem_dedup, List.mem_filter, List.mem_map, decide_eq_true_eq]
      constructor
      · rintro ⟨row, ⟨member, here⟩, rfl⟩
        exact ⟨⟨row, member, rfl⟩, here⟩
      · rintro ⟨⟨row, member, rfl⟩, here⟩
        exact ⟨row, ⟨member, here⟩, rfl⟩
    refine (keys.map _).trans (List.Perm.of_eq (List.map_congr_left fun key member => ?_))
    rw [← of_decide_eq_true (List.mem_filter.mp member).2]
    exact groupOf_filter
  refine (List.Perm.flatMap_left _ parts).trans ?_
  rw [← List.map_flatMap]
  exact (perm_flatMap_filter_range fun key _ => bounded key).map _

end Grouping

/-! ## Accumulators -/

/-- The accumulator of an aggregate that took in rows. -/
def Aggregate.tally
    (schema : Schema)
    (rows : List Row) : Aggregate → Accumulator
  | countStar => .count rows.length
  | count column => .count (numbers schema column rows).length
  | sum column => .sum ((sum column).result schema rows)
  | min column => .min ((min column).result schema rows)
  | max column => .max ((max column).result schema rows)

theorem Aggregate.tally_nil
    (schema : Schema)
    (aggregate : Aggregate) :
    aggregate.tally schema [] = Accumulator.start aggregate := by
  cases aggregate <;> rfl

/-- The sums that an aggregate has are 64-bit integers. -/
def Aggregate.SumInRange
    (schema : Schema)
    (rows : List Row)
    (aggregate : Aggregate) : Prop :=
  ∀ total, aggregate.tally schema rows = .sum (some total) → Accumulator.inRange total = true

/-- A number in a column is a 64-bit integer. -/
theorem toInt_ofInt_of_mem_numbers
    {schema : Schema}
    {column : String}
    {rows : List Row}
    {value : Int}
    (member : value ∈ numbers schema column rows) :
    (Int64.ofInt value).toInt = value := by
  obtain ⟨row, _, found⟩ := List.mem_filterMap.mp member
  obtain ⟨key, _, number⟩ := Option.bind_eq_some_iff.mp found
  cases key with
  | int word =>
      cases number
      rw [Int64.ofInt_toInt]
  | text _ => cases number

/-- The cell of an accumulator shows the aggregate of the rows. -/
theorem Aggregate.value_cell_tally
    {schema : Schema}
    {rows : List Row}
    {aggregate : Aggregate}
    (sums : aggregate.SumInRange schema rows) :
    (aggregate.tally schema rows).cell.value = Value.ofNumber (aggregate.result schema rows) := by
  cases aggregate with
  | countStar => rfl
  | count column => rfl
  | sum column =>
      rw [tally]
      cases found : (sum column).result schema rows with
      | none => rfl
      | some total =>
          have inRange := sums total (by rw [tally, found])
          simp only [Accumulator.inRange, Bool.and_eq_true, decide_eq_true_eq] at inRange
          exact congrArg Value.number
            (Int64.toInt_ofInt_of_le inRange.1 (Int.lt_add_one_of_le inRange.2))
  | min column =>
      rw [tally]
      cases found : (min column).result schema rows with
      | none => rfl
      | some least =>
          exact congrArg Value.number (toInt_ofInt_of_mem_numbers (List.min?_mem found))
  | max column =>
      rw [tally]
      cases found : (max column).result schema rows with
      | none => rfl
      | some greatest =>
          exact congrArg Value.number (toInt_ofInt_of_mem_numbers (List.max?_mem found))

theorem numbers_concat
    (schema : Schema)
    (column : String)
    (rows : List Row)
    (row : Row) :
    numbers schema column (rows ++ [row]) =
      numbers schema column rows ++ ((schema.keyOf column row).bind Key.number?).toList := by
  rw [numbers, numbers, List.filterMap_append]
  cases found : (schema.keyOf column row).bind Key.number? <;> simp [found]

theorem min?_concat
    (values : List Int)
    (value : Int) :
    (values ++ [value]).min? = some (values.min?.elim value (Min.min · value)) := by
  cases values with
  | nil => rfl
  | cons first rest =>
      rw [List.cons_append, List.min?_cons', List.min?_cons', List.foldl_append]
      rfl

theorem max?_concat
    (values : List Int)
    (value : Int) :
    (values ++ [value]).max? = some (values.max?.elim value (Max.max · value)) := by
  cases values with
  | nil => rfl
  | cons first rest =>
      rw [List.cons_append, List.max?_cons', List.max?_cons', List.foldl_append]
      rfl

theorem Aggregate.getD_result_sum
    (schema : Schema)
    (column : String)
    (rows : List Row) :
    ((sum column).result schema rows).getD 0 = (numbers schema column rows).sum := by
  rw [result]
  split
  · next none =>
    rw [List.isEmpty_iff.mp none]
    rfl
  · rfl

/-- An accumulator takes in a number as its aggregate does. -/
theorem Aggregate.tally_of_add?
    {schema : Schema}
    {rows : List Row}
    {row : Row}
    {column : String}
    {aggregate : Aggregate}
    {value : Int}
    {next : Accumulator}
    (added : (aggregate.tally schema rows).add? value = some next)
    (input : aggregate.column? = some column)
    (present : (schema.keyOf column row).bind Key.number? = some value) :
    next = aggregate.tally schema (rows ++ [row]) ∧
      aggregate.SumInRange schema (rows ++ [row]) := by
  have more := numbers_concat schema column rows row
  rw [present, Option.toList_some] at more
  cases aggregate with
  | countStar => cases input
  | count column =>
      cases input
      cases added
      refine ⟨?_, fun total => ?_⟩
      · rw [tally, more, List.length_append, List.length_singleton]
      · simp [tally]
  | sum column =>
      cases input
      have whole : (sum column).result schema (rows ++ [row]) =
          some (((sum column).result schema rows).getD 0 + value) := by
        rw [getD_result_sum, result, more, if_neg (by simp), List.sum_append, List.sum_singleton]
      simp only [tally, Accumulator.add?] at added
      split at added
      · next inRange =>
        cases added
        rw [SumInRange, tally, whole]
        exact ⟨rfl, fun total same => by cases same; exact inRange⟩
      · cases added
  | min column =>
      cases input
      cases added
      refine ⟨?_, fun total => ?_⟩
      · rw [tally, result, result, more, min?_concat]
      · simp [tally]
  | max column =>
      cases input
      cases added
      refine ⟨?_, fun total => ?_⟩
      · rw [tally, result, result, more, max?_concat]
      · simp [tally]

/-- A row without a number makes no difference. -/
theorem Aggregate.tally_of_absent
    {schema : Schema}
    {row : Row}
    {column : String}
    {aggregate : Aggregate}
    (input : aggregate.column? = some column)
    (absent : schema.keyOf column row = none)
    (rows : List Row) :
    aggregate.tally schema (rows ++ [row]) = aggregate.tally schema rows := by
  have same : numbers schema column (rows ++ [row]) = numbers schema column rows := by
    rw [numbers_concat, absent, Option.bind_none, Option.toList_none, List.append_nil]
  cases aggregate with
  | countStar => cases input
  | _ =>
      cases input
      simp only [tally, result, same]

/-- An accumulator takes in a row as its aggregate does. -/
theorem Aggregate.tally_of_addValue
    {chunk : Chunk}
    {schema : Schema}
    {rows : List Row}
    {row : Row}
    {aggregate : Aggregate}
    {column : Option Nat}
    {next : Accumulator}
    (added : GroupTable.addValue (aggregate.tally schema rows) column row = .ok next)
    (located : GroupTable.inputPosition chunk aggregate = .ok column)
    (fits : chunk.schema = schema)
    (sums : aggregate.SumInRange schema rows) :
    next = aggregate.tally schema (rows ++ [row]) ∧
      aggregate.SumInRange schema (rows ++ [row]) := by
  cases input : aggregate.column? with
  | none =>
      cases aggregate with
      | countStar =>
          cases located
          cases added
          refine ⟨?_, fun total => ?_⟩
          · rw [tally, List.length_append, List.length_singleton]
          · simp [tally]
      | _ => cases input
  | some name =>
      simp only [GroupTable.inputPosition, input, bind_eq_ok_iff, pure_eq_ok_iff,
        Chunk.position_eq_ok_iff, fits] at located
      obtain ⟨position, named, rfl⟩ := located
      have key := Schema.keyOf_of_position? named row
      simp only [GroupTable.addValue, ← key] at added
      split at added
      · next absent =>
        cases added
        rw [SumInRange, tally_of_absent input absent]
        exact ⟨rfl, sums⟩
      · next value present =>
        have number : (schema.keyOf name row).bind Key.number? = some value.toInt := by
          rw [present]
          rfl
        split at added
        · next taken =>
          cases added
          exact tally_of_add? taken input number
        · cases added
      · cases added

/-- Accumulators take in a row as their aggregates do. -/
theorem tally_of_addRow
    {chunk : Chunk}
    {schema : Schema}
    {rows : List Row}
    {row : Row}
    {aggregates : List Aggregate}
    {columns : List (Option Nat)}
    {next : List Accumulator}
    (added : GroupTable.addRow row (aggregates.map (Aggregate.tally schema rows)) columns = .ok next)
    (located : List.Forall₂ (fun aggregate column =>
      GroupTable.inputPosition chunk aggregate = .ok column) aggregates columns)
    (fits : chunk.schema = schema)
    (sums : ∀ aggregate ∈ aggregates, aggregate.SumInRange schema rows) :
    next = aggregates.map (Aggregate.tally schema (rows ++ [row])) ∧
      ∀ aggregate ∈ aggregates, aggregate.SumInRange schema (rows ++ [row]) := by
  induction located generalizing next with
  | nil =>
      cases added
      exact ⟨rfl, fun _ member => absurd member List.not_mem_nil⟩
  | cons here _ inductionHypothesis =>
      simp only [List.map_cons, GroupTable.addRow, bind_eq_ok_iff, pure_eq_ok_iff] at added
      obtain ⟨first, head, others, tail, rfl⟩ := added
      obtain ⟨rfl, headInRange⟩ :=
        Aggregate.tally_of_addValue head here fits (sums _ List.mem_cons_self)
      obtain ⟨rfl, tailInRange⟩ :=
        inductionHypothesis tail fun other member => sums other (List.mem_cons_of_mem _ member)
      refine ⟨rfl, fun other member => ?_⟩
      obtain rfl | member := List.mem_cons.mp member
      · exact headInRange
      · exact tailInRange other member

/-! ## Tables -/

/-- A table has one group for each key among the rows, with the aggregates of the rows of the key. -/
structure GroupTable.Tallies
    (table : GroupTable)
    (side : ProbeSide)
    (aggregates : List Aggregate)
    (rows : List Row) : Prop where
  distinct : table.keys.Nodup
  keys : ∀ key, key ∈ table.keys ↔ key ∈ rows.map side.keyOf
  values : ∀ key, table.values[key]? =
    if key ∈ table.keys then
      some (aggregates.map (Aggregate.tally side.schema (side.having key rows)))
    else none
  sums : ∀ key, ∀ aggregate ∈ aggregates,
    aggregate.SumInRange side.schema (side.having key rows)
  admitted : ∀ row ∈ rows, side.schema.admits row = true

namespace GroupTable

variable {side : ProbeSide} {aggregates : List Aggregate}

theorem tallies_empty : Tallies {} side aggregates [] where
  distinct := List.nodup_nil
  keys := fun _ => Iff.rfl
  values := fun key => by simp
  sums := by
    intro key aggregate _ total
    cases aggregate <;> simp [ProbeSide.having, Aggregate.tally, Aggregate.result, numbers]
  admitted := fun _ member => absurd member List.not_mem_nil

/-- Taking in a row changes the accumulators of its key, which are those of no rows if the key is new. -/
theorem Tallies.exists_update_eq
    {table : GroupTable}
    {position : Nat}
    {rows : List Row}
    {row : Row}
    (tallies : table.Tallies side aggregates rows)
    (columns : List (Option Nat))
    (named : side.schema.position? side.key = some position) :
    ∃ put : List Accumulator → GroupTable,
      update aggregates position columns table row = (addRow row (aggregates.map
        (Aggregate.tally side.schema (side.having (side.keyOf row) rows))) columns).map put ∧
      ∀ more, (put more).values = table.values.insert (side.keyOf row) more ∧
        (put more).keys =
          if side.keyOf row ∈ table.keys then table.keys else side.keyOf row :: table.keys := by
  have key : Chunk.rowKey position row = side.keyOf row :=
    (Schema.keyOf_of_position? named row).symm
  have value := tallies.values (side.keyOf row)
  simp only [GroupTable.update, key]
  by_cases old : side.keyOf row ∈ table.keys
  · rw [if_pos old] at value
    rw [value]
    exact ⟨_, rfl, fun _ => ⟨rfl, (if_pos old).symm⟩⟩
  · rw [if_neg old] at value
    have none : side.having (side.keyOf row) rows = [] := by
      rw [tallies.keys] at old
      refine List.filter_eq_nil_iff.mpr fun other member => ?_
      simp only [decide_eq_true_eq]
      exact fun same => old (List.mem_map.mpr ⟨other, member, same⟩)
    rw [value, none, List.map_congr_left fun aggregate _ => aggregate.tally_nil side.schema]
    exact ⟨_, rfl, fun _ => ⟨rfl, (if_neg old).symm⟩⟩

/-- A table takes in a row as the groups do. -/
theorem Tallies.update
    {chunk : Chunk}
    {table next : GroupTable}
    {position : Nat}
    {columns : List (Option Nat)}
    {rows : List Row}
    {row : Row}
    (tallies : table.Tallies side aggregates rows)
    (updated : update aggregates position columns table row = .ok next)
    (fits : chunk.schema = side.schema)
    (named : side.schema.position? side.key = some position)
    (located : List.Forall₂ (fun aggregate column =>
      inputPosition chunk aggregate = .ok column) aggregates columns)
    (admitted : side.schema.admits row = true) :
    next.Tallies side aggregates (rows ++ [row]) := by
  obtain ⟨put, computed, puts⟩ := tallies.exists_update_eq columns named
  rw [computed, map_eq_ok_iff] at updated
  obtain ⟨more, added, same⟩ := updated
  obtain ⟨values, keys⟩ := puts more
  rw [same] at values keys
  obtain ⟨rfl, sums⟩ := tally_of_addRow added located fits (tallies.sums _)
  rw [← having_concat_self] at sums values
  have member : ∀ other, other ∈ next.keys ↔ other = side.keyOf row ∨ other ∈ table.keys := by
    intro other
    rw [keys]
    split
    · next old => exact ⟨.inr, fun held => held.elim (fun same => same ▸ old) id⟩
    · exact List.mem_cons
  refine ⟨?_, fun other => ?_, fun other => ?_, fun other => ?_, fun other inside => ?_⟩
  · rw [keys]
    split
    · exact tallies.distinct
    · next new => exact List.nodup_cons.mpr ⟨new, tallies.distinct⟩
  · rw [member, tallies.keys, List.map_append, List.mem_append, List.map_singleton,
      List.mem_singleton, or_comm]
  · rw [values, Std.TreeMap.getElem?_insert]
    by_cases same : other = side.keyOf row
    · subst same
      simp [member]
    · rw [having_concat_of_ne same, if_neg (by simpa using Ne.symm same), tallies.values other]
      simp [member, same]
  · by_cases same : other = side.keyOf row
    · exact same ▸ sums
    · rw [having_concat_of_ne same]
      exact tallies.sums other
  · obtain old | new := List.mem_append.mp inside
    · exact tallies.admitted other old
    · exact List.mem_singleton.mp new ▸ admitted

/-- A table takes in the rows of a chunk. -/
theorem Tallies.addChunk
    {chunk : Chunk}
    {table next : GroupTable}
    {rows : List Row}
    (tallies : table.Tallies side aggregates rows)
    (added : addChunk aggregates side.key table chunk = .ok next)
    (fits : chunk.schema = side.schema) :
    next.Tallies side aggregates (rows ++ chunk.rows) := by
  unfold GroupTable.addChunk at added
  split at added
  · next empty =>
    cases added
    rw [List.isEmpty_iff.mp empty, List.append_nil]
    exact tallies
  · simp only [bind_eq_ok_iff, mapError_eq_ok_iff, Chunk.keyPosition_eq_ok_iff, fits] at added
    obtain ⟨position, ⟨named, _⟩, columns, computed, _, _, folded⟩ := added
    have located := forall₂_of_mapM computed
    have admitted : ∀ row ∈ chunk.rows, side.schema.admits row = true := fits ▸ chunk.fits
    generalize chunk.rows = more at folded admitted
    induction more generalizing table rows with
    | nil =>
        rw [List.foldlM_nil, pure_eq_ok_iff] at folded
        rw [← folded, List.append_nil]
        exact tallies
    | cons row rest inductionHypothesis =>
        simp only [List.foldlM_cons, bind_eq_ok_iff] at folded
        obtain ⟨_, updated, folded⟩ := folded
        rw [← List.singleton_append, ← List.append_assoc]
        exact inductionHypothesis
          (tallies.update updated fits named located (admitted row List.mem_cons_self)) folded
          fun other member => admitted other (List.mem_cons_of_mem _ member)

/-- A table takes in the rows of several chunks. -/
theorem Tallies.addChunks
    {chunks : List Chunk}
    {table next : GroupTable}
    {rows : List Row}
    (tallies : table.Tallies side aggregates rows)
    (added : chunks.foldlM (GroupTable.addChunk aggregates side.key) table = .ok next)
    (fits : ∀ chunk ∈ chunks, chunk.schema = side.schema) :
    next.Tallies side aggregates (rows ++ chunks.flatMap Chunk.rows) := by
  induction chunks generalizing table rows with
  | nil =>
      rw [List.foldlM_nil, pure_eq_ok_iff] at added
      rw [← added, List.flatMap_nil, List.append_nil]
      exact tallies
  | cons chunk chunks inductionHypothesis =>
      simp only [List.foldlM_cons, bind_eq_ok_iff] at added
      obtain ⟨_, here, added⟩ := added
      rw [List.flatMap_cons, ← List.append_assoc]
      exact inductionHypothesis (tallies.addChunk here (fits chunk List.mem_cons_self)) added
        fun other member => fits other (List.mem_cons_of_mem _ member)

/-- A table yields the output of each group once. -/
theorem Tallies.perm_grouped
    {table : GroupTable}
    {rows : List Row}
    {textKey : Bool}
    (tallies : table.Tallies side aggregates rows)
    (shown : ∀ row, side.schema.admits row = true →
      (Aggregation.keyCell textKey (side.keyOf row)).value = Value.ofKey (side.keyOf row)) :
    ((table.groups.map (Aggregation.groupRow textKey)).map (List.map Cell.value)).Perm
      (grouped side aggregates rows) := by
  have keys : table.keys.reverse.Perm (rows.map side.keyOf).dedup := by
    refine (List.reverse_perm _).trans ?_
    rw [List.perm_ext_iff_of_nodup tallies.distinct (List.nodup_dedup _)]
    exact fun key => (tallies.keys key).trans List.mem_dedup.symm
  rw [groups, List.map_map, List.map_map]
  refine (List.Perm.of_eq (List.map_congr_left fun key member => ?_)).trans (keys.map _)
  rw [List.mem_reverse] at member
  obtain ⟨row, inside, rfl⟩ := List.mem_map.mp ((tallies.keys key).mp member)
  simp only [Function.comp_apply, Aggregation.groupRow, List.map_cons]
  rw [groupOf, shown row (tallies.admitted row inside), Std.TreeMap.getD_eq_getD_getElem?, tallies.values,
    if_pos member, Option.getD_some, List.map_map, List.map_map]
  exact congrArg _ (List.map_congr_left fun aggregate asked =>
    Aggregate.value_cell_tally (tallies.sums _ aggregate asked))

end GroupTable

/-- The key column tells whether keys are texts. -/
theorem value_keyCell
    {schema : Schema}
    {name : String}
    {field : Field}
    {row : Row}
    (found : (schema.find? fun field => field.name = name) = some field)
    (admitted : schema.admits row = true) :
    (Aggregation.keyCell field.type.isText (schema.keyOf name row)).value =
      Value.ofKey (schema.keyOf name row) := by
  rw [List.find?_eq_bind_findIdx?_getElem?] at found
  obtain ⟨position, located, there⟩ := Option.bind_eq_some_iff.mp found
  have fits := Schema.admits_cell admitted there
  rw [Field.admits, Bool.and_eq_true] at fits
  rw [Schema.keyOf_of_position? located, Chunk.rowKey]
  cases cell : Row.cell row position with
  | int value =>
      rw [cell] at fits
      have number : field.type.isText = false := by
        cases type : field.type <;> simp_all [ColumnType.admits, ColumnType.isText]
      rw [number]
      rfl
  | text value =>
      rw [cell] at fits
      have text : field.type.isText = true := by
        cases type : field.type <;> simp_all [ColumnType.admits, ColumnType.isText]
      rw [text]
      rfl
  | _ => rfl

end Spillway
