import Spillway.Proofs.Operator.Grouping

/-!
# Sums that leave the range

A table looks at the sum of a group whenever it takes in a number. So it fails at the first row that leads
a sum out of the range of 64-bit integers, whether or not later rows would lead it back, and it fails at no
other row: the columns that are aggregated have integers or nothing. Which rows these are depends on the
rows of each key alone, in the order in which they arrive.
-/

namespace Spillway

variable {side : ProbeSide} {aggregates : List Aggregate} {rows more : List Row} {key : Option Key}

/-! ## Rows that exceed the range -/

/-- A sum over the rows of a key leaves the range of 64-bit integers while they are added up one after the
other. -/
def ProbeSide.Exceeds
    (side : ProbeSide)
    (aggregates : List Aggregate)
    (rows : List Row)
    (key : Option Key) : Prop :=
  ∃ column first, Aggregate.sum column ∈ aggregates ∧
    first <+: numbers side.schema column (side.having key rows) ∧
    Accumulator.inRange first.sum = false

/-- There are rows of different keys. -/
def ProbeSide.Varies
    (side : ProbeSide)
    (rows : List Row) : Prop :=
  ∃ one ∈ rows, ∃ another ∈ rows, side.keyOf one ≠ side.keyOf another

namespace ProbeSide

theorem Varies.mono
    (varies : side.Varies rows)
    (subset : rows ⊆ more) :
    side.Varies more := by
  obtain ⟨one, inside, another, alsoInside, different⟩ := varies
  exact ⟨one, subset inside, another, subset alsoInside, different⟩

/-- More rows do not lead a sum back. -/
theorem Exceeds.append
    (exceeds : side.Exceeds aggregates rows key)
    (more : List Row) :
    side.Exceeds aggregates (rows ++ more) key := by
  obtain ⟨column, first, asked, start, out⟩ := exceeds
  exact ⟨column, first, asked, start.trans (((List.prefix_append rows more).filter _).filterMap _), out⟩

theorem not_exceeds_of_having
    (none : side.having key rows = []) :
    ¬ side.Exceeds aggregates rows key := by
  rintro ⟨column, first, -, start, out⟩
  rw [none] at start
  rw [List.prefix_nil.mp start] at out
  cases out

/-- The rows of some keys exceed the range for those of the keys for which all rows do. -/
theorem exceeds_filter_iff {keys : Option Key → Bool} :
    side.Exceeds aggregates (rows.filter fun row => keys (side.keyOf row)) key ↔
      keys key = true ∧ side.Exceeds aggregates rows key := by
  by_cases inside : keys key = true
  · have own : side.having key (rows.filter fun row => keys (side.keyOf row)) =
        side.having key rows := by
      rw [having, List.filter_filter]
      refine List.filter_congr fun row _ => ?_
      by_cases here : side.keyOf row = key
      · simp [here, inside]
      · simp [here]
    rw [Exceeds, own]
    exact (and_iff_right inside).symm
  · have none : side.having key (rows.filter fun row => keys (side.keyOf row)) = [] := by
      rw [having, List.filter_filter]
      refine List.filter_eq_nil_iff.mpr fun row _ => ?_
      by_cases here : side.keyOf row = key
      · simp [here, inside]
      · simp [here]
    exact iff_of_false (not_exceeds_of_having none) fun both => inside both.1

theorem not_exceeds_nil : ¬ side.Exceeds aggregates [] key :=
  not_exceeds_of_having rfl

end ProbeSide

namespace GroupTable

variable {table next : GroupTable} {chunk : Chunk} {row : Row}

/-- The sums of a table are in the range. -/
theorem Tallies.inRange_sum
    {column : String}
    (tallies : table.Tallies side aggregates rows)
    (asked : Aggregate.sum column ∈ aggregates) :
    Accumulator.inRange (numbers side.schema column (side.having key rows)).sum = true := by
  by_cases none : (numbers side.schema column (side.having key rows)).isEmpty = true
  · rw [List.isEmpty_iff.mp none]
    rfl
  · apply tallies.sums key _ asked
    rw [Aggregate.tally, Aggregate.result, if_neg none]

/-- A row that a table took in has not led a sum out of the range. -/
theorem Tallies.not_exceeds_concat
    (tallies : next.Tallies side aggregates (rows ++ [row]))
    (within : ¬ side.Exceeds aggregates rows key) :
    ¬ side.Exceeds aggregates (rows ++ [row]) key := by
  rintro ⟨column, first, asked, start, out⟩
  -- The whole sum is the one that the table has just looked at, so that what leaves the range must be a
  -- sum over fewer numbers, and these were there before the row.
  have whole : first ≠ numbers side.schema column (side.having key (rows ++ [row])) := by
    rintro rfl
    rw [tallies.inRange_sum asked] at out
    cases out
  apply within
  refine ⟨column, first, asked, ?_, out⟩
  by_cases here : key = side.keyOf row
  · subst here
    rw [having_concat_self, numbers_concat] at start whole
    cases number : (side.schema.keyOf column row).bind Key.number? with
    | none => rwa [number, Option.toList_none, List.append_nil] at start
    | some value =>
        rw [number, Option.toList_some] at start whole
        exact (List.prefix_concat_iff.mp start).resolve_left whole
  · rwa [having_concat_of_ne here] at start

end GroupTable

/-! ## Columns of integers -/

/-- A column that can be aggregated is one of integers. -/
theorem Aggregation.exists_integer_of_check
    {schema : Schema}
    {aggregate : Aggregate}
    {column : String}
    (checked : checkAggregate schema aggregate = .ok ())
    (input : aggregate.column? = some column) :
    ∃ position field, schema.position? column = some position ∧ schema[position]? = some field ∧
      field.type.isInteger = true := by
  simp only [checkAggregate, input, List.find?_eq_bind_findIdx?_getElem?] at checked
  split at checked
  · cases checked
  · next field found =>
    obtain ⟨position, located, there⟩ := Option.bind_eq_some_iff.mp found
    split at checked
    · next integer => exact ⟨position, field, located, there, integer⟩
    · cases checked

/-- A column of integers has no texts. -/
theorem ColumnType.key?_ne_text
    {type : ColumnType}
    {cell : Cell}
    {value : String}
    (integer : type.isInteger = true)
    (admitted : type.admits cell = true) :
    cell.key? ≠ some (.text value) := by
  cases cell with
  | text other => cases type <;> simp_all [isInteger, admits]
  | _ => simp [Cell.key?]

/-! ## Taking in rows -/

namespace Aggregate

variable {schema : Schema} {aggregate : Aggregate} {row : Row}

/-- The sum that is asked for is out of the range. -/
def Leaves
    (schema : Schema)
    (rows : List Row)
    (aggregate : Aggregate) : Prop :=
  ∃ column, aggregate = sum column ∧ Accumulator.inRange (numbers schema column rows).sum = false

/-- An accumulator takes in a number unless that leads a sum out of the range. -/
theorem add?_cases
    {column : String}
    {value : Int}
    (input : aggregate.column? = some column)
    (present : (schema.keyOf column row).bind Key.number? = some value) :
    (∃ next, (aggregate.tally schema rows).add? value = some next) ∨
      (aggregate.tally schema rows).add? value = none ∧ aggregate.Leaves schema (rows ++ [row]) := by
  cases aggregate with
  | countStar => cases input
  | sum name =>
      cases input
      simp only [tally, Accumulator.add?, getD_result_sum]
      split
      · exact .inl ⟨_, rfl⟩
      · next out =>
        refine .inr ⟨rfl, column, rfl, ?_⟩
        rw [numbers_concat, present, Option.toList_some, List.sum_append, List.sum_singleton]
        exact Bool.eq_false_iff.mpr out
  | _ => exact .inl ⟨_, rfl⟩

variable (admitted : schema.admits row = true)
include admitted

/-- A row is taken in unless that leads a sum out of the range. -/
theorem addValue_cases
    {chunk : Chunk}
    {column : Option Nat}
    (located : GroupTable.inputPosition chunk aggregate = .ok column)
    (fits : chunk.schema = schema)
    (checked : Aggregation.checkAggregate schema aggregate = .ok ()) :
    (∃ next, GroupTable.addValue (aggregate.tally schema rows) column row = .ok next) ∨
      GroupTable.addValue (aggregate.tally schema rows) column row = .error .sumRange ∧
        aggregate.Leaves schema (rows ++ [row]) := by
  cases input : aggregate.column? with
  | none =>
      cases aggregate with
      | countStar =>
          cases located
          exact .inl ⟨_, rfl⟩
      | _ => cases input
  | some name =>
      simp only [GroupTable.inputPosition, input, bind_eq_ok_iff, pure_eq_ok_iff,
        Chunk.position_eq_ok_iff, fits] at located
      obtain ⟨position, named, rfl⟩ := located
      obtain ⟨_, field, again, found, integer⟩ := Aggregation.exists_integer_of_check checked input
      rw [named, Option.some.injEq] at again
      subst again
      have key := Schema.keyOf_of_position? named row
      have cell := Schema.admits_cell admitted found
      rw [Field.admits, Bool.and_eq_true] at cell
      simp only [GroupTable.addValue, ← key]
      split
      · exact .inl ⟨_, rfl⟩
      · next value present =>
        have number : (schema.keyOf name row).bind Key.number? = some value.toInt := by
          rw [present]
          rfl
        obtain ⟨next, taken⟩ | ⟨refused, leaves⟩ := add?_cases input number
        · exact .inl ⟨next, by rw [taken]⟩
        · exact .inr ⟨by rw [refused], leaves⟩
      · next value present => exact absurd (key.symm.trans present) (ColumnType.key?_ne_text integer cell.1)

/-- So it is with the accumulators of a group. -/
theorem addRow_cases
    {chunk : Chunk}
    {columns : List (Option Nat)}
    (located : List.Forall₂ (fun aggregate column =>
      GroupTable.inputPosition chunk aggregate = .ok column) aggregates columns)
    (fits : chunk.schema = schema)
    (checked : ∀ aggregate ∈ aggregates, Aggregation.checkAggregate schema aggregate = .ok ()) :
    (∃ next, GroupTable.addRow row (aggregates.map (tally schema rows)) columns = .ok next) ∨
      GroupTable.addRow row (aggregates.map (tally schema rows)) columns = .error .sumRange ∧
        ∃ aggregate ∈ aggregates, aggregate.Leaves schema (rows ++ [row]) := by
  induction located with
  | nil => exact .inl ⟨_, rfl⟩
  | cons here _ inductionHypothesis =>
      rw [List.forall_mem_cons] at checked
      rw [List.map_cons, GroupTable.addRow]
      obtain ⟨first, taken⟩ | ⟨refused, leaves⟩ := addValue_cases admitted here fits checked.1
      · rw [taken]
        obtain ⟨others, more⟩ | ⟨refused, aggregate, member, leaves⟩ := inductionHypothesis checked.2
        · exact .inl ⟨first :: others, by rw [more]; rfl⟩
        · exact .inr ⟨by rw [refused]; rfl, aggregate, List.mem_cons_of_mem _ member, leaves⟩
      · exact .inr ⟨by rw [refused]; rfl, _, List.mem_cons_self, leaves⟩

end Aggregate

namespace GroupTable

/-- A table has taken in rows, and no sum has left the range on the way. -/
structure Sums
    (table : GroupTable)
    (side : ProbeSide)
    (aggregates : List Aggregate)
    (rows : List Row) : Prop extends table.Tallies side aggregates rows where
  within : ∀ key, ¬ side.Exceeds aggregates rows key

/-- What comes of taking in rows: a table that has taken them in, or a fault, if they lead a sum out of
the range. -/
inductive Takes
    {ε : Type}
    (fault : ε)
    (side : ProbeSide)
    (aggregates : List Aggregate)
    (rows : List Row) : Except ε GroupTable → Prop
  | taken
      {table : GroupTable}
      (sums : table.Sums side aggregates rows) :
      Takes fault side aggregates rows (.ok table)
  | exceeded
      {key : Option Key}
      (exceeds : side.Exceeds aggregates rows key) :
      Takes fault side aggregates rows (.error fault)

variable {table : GroupTable} {chunk : Chunk}

theorem Takes.mapError
    {ε ε' : Type}
    {fault : ε}
    {result : Except ε GroupTable}
    (takes : Takes fault side aggregates rows result)
    (change : ε → ε') :
    Takes (change fault) side aggregates rows (result.mapError change) := by
  cases takes with
  | taken sums => exact .taken sums
  | exceeded exceeds => exact .exceeded exceeds

theorem sums_empty : Sums {} side aggregates [] :=
  ⟨tallies_empty, fun _ => ProbeSide.not_exceeds_nil⟩

/-- Rows are taken in one after the other. -/
theorem Sums.foldlM
    {ε α : Type}
    {fault : ε}
    {takes : α → List Row}
    {step : GroupTable → α → Except ε GroupTable}
    {items : List α}
    (sums : table.Sums side aggregates rows)
    (each : ∀ item ∈ items, ∀ table rows, Sums table side aggregates rows →
      Takes fault side aggregates (rows ++ takes item) (step table item)) :
    Takes fault side aggregates (rows ++ items.flatMap takes) (items.foldlM step table) := by
  induction items generalizing table rows with
  | nil =>
      rw [List.foldlM_nil, List.flatMap_nil, List.append_nil]
      exact .taken sums
  | cons item items inductionHypothesis =>
      obtain ⟨first, later⟩ := List.forall_mem_cons.mp each
      rw [List.foldlM_cons, List.flatMap_cons, ← List.append_assoc]
      generalize step table item = result, first table rows sums = here
      cases here with
      | taken next => exact inductionHypothesis next later
      | exceeded exceeds => exact .exceeded (exceeds.append _)

section Chunk

variable (fits : chunk.schema = side.schema)
  (checked : ∀ aggregate ∈ aggregates, Aggregation.checkAggregate side.schema aggregate = .ok ())
include fits checked

theorem Sums.update
    {position : Nat}
    {columns : List (Option Nat)}
    {row : Row}
    (sums : table.Sums side aggregates rows)
    (named : side.schema.position? side.key = some position)
    (located : List.Forall₂ (fun aggregate column =>
      inputPosition chunk aggregate = .ok column) aggregates columns)
    (admitted : side.schema.admits row = true) :
    Takes .sumRange side aggregates (rows ++ [row])
      (update aggregates position columns table row) := by
  obtain ⟨put, computed, -⟩ := sums.exists_update_eq columns named
  obtain ⟨next, added⟩ | ⟨refused, aggregate, asked, column, rfl, out⟩ :=
    Aggregate.addRow_cases admitted located fits checked
  · rw [added] at computed
    have tallies := sums.toTallies.update computed fits named located admitted
    rw [computed]
    exact .taken ⟨tallies, fun key => tallies.not_exceeds_concat (sums.within key)⟩
  · rw [computed, refused]
    rw [← having_concat_self] at out
    exact .exceeded ⟨column, _, asked, List.prefix_rfl, out⟩

/-- A chunk is taken in unless its rows lead a sum out of the range. -/
theorem Sums.addChunk
    (sums : table.Sums side aggregates rows)
    (keyed : chunk.rows ≠ [] → side.Keyed) :
    Takes AggregationFault.sumRange.status side aggregates (rows ++ chunk.rows)
      (addChunk aggregates side.key table chunk) := by
  unfold GroupTable.addChunk
  split
  · next empty =>
    rw [List.isEmpty_iff.mp empty, List.append_nil]
    exact .taken sums
  · next some =>
    obtain ⟨position, atKey⟩ := (keyed fun none => some (List.isEmpty_iff.mpr none)).keyPosition fits
    obtain ⟨named, -⟩ := Chunk.keyPosition_eq_ok_iff.mp atKey
    rw [fits] at named
    have input : ∀ aggregate ∈ aggregates, (∃ column, inputPosition chunk aggregate = .ok column) ∧
        checkInput chunk aggregate = .ok () := by
      intro aggregate asked
      cases column : aggregate.column? with
      | none =>
          rw [inputPosition, checkInput, column]
          exact ⟨⟨_, rfl⟩, rfl⟩
      | some name =>
          obtain ⟨place, field, there, found, integer⟩ :=
            Aggregation.exists_integer_of_check (checked aggregate asked) column
          rw [← fits] at there found
          have keys : chunk.keyPosition name = .ok place := by
            refine Chunk.keyPosition_eq_ok_iff.mpr ⟨there, field, found, ?_⟩
            rw [ColumnType.isKey, integer, Bool.true_or]
          rw [inputPosition, checkInput, column]
          dsimp only
          rw [Chunk.position_eq_ok_iff.mpr there, keys]
          exact ⟨⟨_, rfl⟩, rfl⟩
    obtain ⟨columns, computed⟩ := exists_mapM_eq_ok fun aggregate asked => (input aggregate asked).1
    rw [atKey, computed, forM_eq_ok_iff.mpr fun aggregate asked => (input aggregate asked).2]
    have folded : Takes .sumRange side aggregates (rows ++ chunk.rows.flatMap fun row => [row])
        (chunk.rows.foldlM (GroupTable.update aggregates position columns) table) :=
      sums.foldlM fun row member _ _ sums =>
        sums.update fits checked named (forall₂_of_mapM computed) (fits ▸ chunk.fits row member)
    rw [List.flatMap_singleton'] at folded
    exact folded.mapError AggregationFault.status

end Chunk

/-- Chunks are taken in unless their rows lead a sum out of the range. -/
theorem Sums.addChunks
    {chunks : List Chunk}
    (sums : table.Sums side aggregates rows)
    (fits : ∀ chunk ∈ chunks, chunk.schema = side.schema)
    (checked : ∀ aggregate ∈ aggregates, Aggregation.checkAggregate side.schema aggregate = .ok ())
    (keyed : chunks.flatMap Chunk.rows ≠ [] → side.Keyed) :
    Takes AggregationFault.sumRange.status side aggregates (rows ++ chunks.flatMap Chunk.rows)
      (chunks.foldlM (GroupTable.addChunk aggregates side.key) table) := by
  refine sums.foldlM fun chunk member _ _ sums => sums.addChunk (fits chunk member) checked fun some => ?_
  apply keyed
  exact fun none => some (List.flatMap_eq_nil_iff.mp none chunk member)

/-- A table with several groups has rows of different keys. -/
theorem Tallies.varies
    (tallies : table.Tallies side aggregates rows)
    (several : 1 < table.keys.length) :
    side.Varies rows := by
  match same : table.keys with
  | [] => simp [same] at several
  | [_] => simp [same] at several
  | first :: second :: rest =>
      have distinct := tallies.distinct
      rw [same, List.nodup_cons] at distinct
      obtain ⟨one, inside, isFirst⟩ :=
        List.mem_map.mp ((tallies.keys first).mp (by rw [same]; exact List.mem_cons_self))
      obtain ⟨another, alsoInside, isSecond⟩ := List.mem_map.mp ((tallies.keys second).mp
        (by rw [same]; exact List.mem_cons_of_mem _ List.mem_cons_self))
      refine ⟨one, inside, another, alsoInside, fun equal => distinct.1 ?_⟩
      rw [← isFirst, equal, isSecond]
      exact List.mem_cons_self

/-! ## The output of a table -/

/-- The groups of a table are rows of the output. -/
theorem Tallies.admits_groups
    {aggregation : Aggregation}
    (tallies : table.Tallies side aggregates rows)
    (asked : aggregation.aggregates = aggregates) :
    ∀ row ∈ table.groups.map (Aggregation.groupRow aggregation.textKey),
      aggregation.outputSchema.admits row = true := by
  have cells : ∀ asked : List Aggregate, ∀ rows : List Row,
      Schema.admits (asked.map fun aggregate => { name := aggregate.outputName, type := .int64 })
        ((asked.map (Aggregate.tally side.schema rows)).map Accumulator.cell) = true := by
    intro asked rows
    induction asked with
    | nil => rfl
    | cons aggregate asked inductionHypothesis =>
        rw [List.map_cons, List.map_cons, List.map_cons, Schema.admits, inductionHypothesis, Bool.and_true]
        cases aggregate.tally side.schema rows with
        | count => rfl
        | _ value => cases value <;> rfl
  intro row member
  obtain ⟨group, shown, rfl⟩ := List.mem_map.mp member
  obtain ⟨key, inside, rfl⟩ := List.mem_map.mp shown
  rw [List.mem_reverse] at inside
  rw [Aggregation.groupRow, Aggregation.outputSchema, asked, Std.TreeMap.getD_eq_getD_getElem?,
    tallies.values, if_pos inside, Option.getD_some, Schema.admits, cells, Bool.and_true]
  cases aggregation.textKey <;> rcases key with _ | _ | _ <;> rfl

end GroupTable
end Spillway
