import Spillway.Proofs.Data.Chunk
import Spillway.Proofs.Partition.Scattering

/-!
# Equal keys in the same slot

Splitting a chunk by a key column gives one slot for each bucket. A slot is vacant exactly if the hash of
no row leads there, and otherwise it has all rows whose hashes lead there, in their order and with all
their columns. The hash of a row is that of its widened key, so rows of equal keys come to the same slot
whichever chunks they are from and whichever types their key columns have, and so do rows without a key.
This is what lets one side of a join be matched with the other slot by slot.
-/

namespace Spillway

/-- A value within the range of a smaller width is kept where it is narrowed and widened again. -/
theorem Cell.eq_of_within
    {least greatest : Int}
    {again : Int → Int64}
    {value : Int64}
    (kept : ∀ {number}, least ≤ number → number ≤ greatest → again number = Int64.ofInt number)
    (within : Cell.within least greatest value = true) :
    again value.toInt = value := by
  rw [Cell.within, Bool.and_eq_true, decide_eq_true_eq, decide_eq_true_eq] at within
  rw [kept within.1 within.2, Int64.ofInt_toInt]

namespace ColumnType

/-- The key that a present value stands for: integers of every width and days are widened to 64 bits, and
texts are kept, whatever their offsets. -/
inductive Widens : ColumnType → Cell → Key → Prop
  | int8 (value : Int8) : Widens .int8 (.int value.toInt64) (.int value.toInt64)
  | int16 (value : Int16) : Widens .int16 (.int value.toInt64) (.int value.toInt64)
  | int32 (value : Int32) : Widens .int32 (.int value.toInt64) (.int value.toInt64)
  | int64 (value : Int64) : Widens .int64 (.int value) (.int value)
  | date32 (days : Int32) : Widens .date32 (.int days.toInt64) (.int days.toInt64)
  | utf8 (value : String) : Widens .utf8 (.text value) (.text value)
  | largeUtf8 (value : String) : Widens .largeUtf8 (.text value) (.text value)

theorem key?_of_widens
    {type : ColumnType}
    {cell : Cell}
    {key : Key}
    (widens : type.Widens cell key) :
    cell.key? = some key := by
  cases widens <;> rfl

/-- Every present value of a type that has keys is the widened form of a value of the type. -/
theorem exists_widens
    {type : ColumnType}
    {cell : Cell}
    (keyed : type.isKey = true)
    (admitted : type.admits cell = true)
    (present : cell ≠ .null) :
    ∃ key, type.Widens cell key := by
  cases type <;> try exact absurd keyed Bool.false_ne_true
  all_goals cases cell <;>
    try first | exact absurd admitted Bool.false_ne_true | exact absurd rfl present
  case int8.int value =>
    obtain ⟨narrow, rfl⟩ : ∃ narrow : Int8, narrow.toInt64 = value :=
      ⟨_, Cell.eq_of_within Int8.toInt64_ofInt admitted⟩
    exact ⟨_, .int8 narrow⟩
  case int16.int value =>
    obtain ⟨narrow, rfl⟩ : ∃ narrow : Int16, narrow.toInt64 = value :=
      ⟨_, Cell.eq_of_within Int16.toInt64_ofInt admitted⟩
    exact ⟨_, .int16 narrow⟩
  case int32.int value =>
    obtain ⟨narrow, rfl⟩ : ∃ narrow : Int32, narrow.toInt64 = value :=
      ⟨_, Cell.eq_of_within Int32.toInt64_ofInt admitted⟩
    exact ⟨_, .int32 narrow⟩
  case date32.int value =>
    obtain ⟨narrow, rfl⟩ : ∃ narrow : Int32, narrow.toInt64 = value :=
      ⟨_, Cell.eq_of_within Int32.toInt64_ofInt admitted⟩
    exact ⟨_, .date32 narrow⟩
  case int64.int value => exact ⟨_, .int64 value⟩
  case utf8.text value => exact ⟨_, .utf8 value⟩
  case largeUtf8.text value => exact ⟨_, .largeUtf8 value⟩

end ColumnType

/-- A column that rows can be dealt out by: the first of its name, and of a type that has keys. -/
structure Chunk.KeyColumn (chunk : Chunk) (name : String) where
  /-- Where the column is. -/
  position : Nat
  /-- What the schema says of it. -/
  field : Field
  named : chunk.schema.position? name = some position
  found : chunk.schema[position]? = some field
  keyed : field.type.isKey = true

namespace Chunk.KeyColumn

variable {chunk : Chunk} {name : String} {row : Row} {key : Key}

/-- Value of a row in the column. -/
def cell (column : chunk.KeyColumn name) (row : Row) : Cell :=
  Row.cell row column.position

theorem keyPosition_eq (column : chunk.KeyColumn name) :
    chunk.keyPosition name = .ok column.position :=
  keyPosition_eq_ok_iff.mpr ⟨column.named, column.field, column.found, column.keyed⟩

/-- A row of the chunk has a key in the column unless its value is absent. -/
theorem null_or_widens
    (column : chunk.KeyColumn name)
    (member : row ∈ chunk.rows) :
    column.cell row = .null ∨ ∃ key, column.field.type.Widens (column.cell row) key := by
  by_cases absent : column.cell row = .null
  · exact .inl absent
  · have admitted := Schema.admits_cell (chunk.fits row member) column.found
    rw [Field.admits, Bool.and_eq_true] at admitted
    exact .inr (ColumnType.exists_widens column.keyed admitted.1 absent)

end Chunk.KeyColumn

namespace Directory

variable {directory : Directory} {chunk other : Chunk} {name otherName : String}
  {parts otherParts : List (Option Chunk)} {row otherRow : Row} {slot : Nat}

/-- There is a slot for each bucket, and it has the rows with the numbers that were noted under it. -/
theorem split_eq
    (directory : Directory)
    (column : chunk.KeyColumn name) :
    directory.split chunk name = .ok ((List.range directory.fanOut).map fun slot =>
      part chunk (numbersOf (fun row => directory.bucketOfRow column.position row = slot)
        chunk.rows.zipIdx)) := by
  simp only [split, column.keyPosition_eq, numbers_eq, List.map_map, ← bucketOfRow_eq]
  split
  case isTrue empty =>
    have none : chunk.rows = [] := List.isEmpty_iff.mp empty
    refine congrArg Except.ok (List.ext_getElem? fun slot => ?_)
    by_cases inside : slot < directory.fanOut <;> simp [inside, none, numbersOf, part]
  case isFalse => rfl

/-- A chunk is split by every key column. -/
theorem exists_split
    (directory : Directory)
    (column : chunk.KeyColumn name) :
    ∃ parts, directory.split chunk name = .ok parts :=
  ⟨_, split_eq directory column⟩

/-- What the slots of a split chunk have. -/
structure Stable
    (directory : Directory)
    (column : chunk.KeyColumn name)
    (parts : List (Option Chunk)) : Prop where
  /-- There are as many slots as buckets. -/
  slots : parts.length = directory.fanOut
  /-- A slot is vacant exactly if the hash of no row leads there. -/
  vacant : ∀ slot < directory.fanOut, parts[slot]? = some none ↔
    ∀ row ∈ chunk.rows, directory.bucketOfRow column.position row ≠ slot
  /-- Otherwise it has as many rows as have hashes that lead there, under the same schema. -/
  occupied : ∀ slot part, parts[slot]? = some (some part) →
    part.schema = chunk.schema ∧ part.length =
      (chunk.rows.filter fun row => directory.bucketOfRow column.position row = slot).length
  /-- They are all rows whose hashes lead there, in order, if the rows have different numbers. -/
  ordered : chunk.Numbered → ∀ slot part, parts[slot]? = some (some part) →
    part.rows = chunk.rows.filter fun row => directory.bucketOfRow column.position row = slot
  /-- A chunk of one bucket is in its slot as it is. -/
  whole : ∀ slot, chunk.rows ≠ [] →
    (∀ row ∈ chunk.rows, directory.bucketOfRow column.position row = slot) →
    parts[slot]? = some (some chunk)

/-- What a slot holds, as an equation. -/
theorem getElem?_split
    (splits : directory.split chunk name = .ok parts)
    (column : chunk.KeyColumn name)
    (inside : slot < directory.fanOut) :
    parts[slot]? = some (part chunk (numbersOf
      (fun row => directory.bucketOfRow column.position row = slot) chunk.rows.zipIdx)) := by
  cases splits.symm.trans (split_eq directory column)
  rw [List.getElem?_map, List.getElem?_range inside, Option.map_some]

theorem bucketOfRow_lt
    (directory : Directory)
    (position : Nat)
    (row : Row) :
    directory.bucketOfRow position row < directory.fanOut :=
  directory.bucketOf_lt _

theorem stable_of_split
    (splits : directory.split chunk name = .ok parts)
    (column : chunk.KeyColumn name) :
    directory.Stable column parts := by
  have slots : parts.length = directory.fanOut := (deals_of_split splits).length_eq
  have taken : ∀ {slot part}, parts[slot]? = some (some part) →
      PartOf chunk (fun row => directory.bucketOfRow column.position row = slot) part := by
    intro slot part found
    have inside : slot < directory.fanOut := slots ▸ (List.getElem?_eq_some_iff.mp found).1
    rw [getElem?_split splits column inside, Option.some.injEq] at found
    exact partOf_of_part found
  refine
    { slots
      vacant := fun slot inside => ?vacant
      occupied := fun slot part found => ⟨(taken found).schema, (taken found).length⟩
      ordered := fun numbered slot part found => (taken found).exact numbered
      whole := fun slot some together => ?whole }
  case vacant =>
    rw [getElem?_split splits column inside, Option.some.injEq, part_eq_none_iff]
    simp [List.filter_eq_nil_iff]
  case whole =>
    obtain ⟨row, member⟩ := List.exists_mem_of_ne_nil _ some
    have inside : slot < directory.fanOut :=
      together row member ▸ directory.bucketOfRow_lt column.position row
    rw [getElem?_split splits column inside,
      part_of_all some fun row member => decide_eq_true (together row member)]

/-- A slot has a row, and no other slot has it. -/
def LiesIn (parts : List (Option Chunk)) (row : Row) (slot : Nat) : Prop :=
  ∀ other, (∃ part, parts[other]? = some (some part) ∧ row ∈ part.rows) ↔ other = slot

/-- A row lies in the slot of its bucket. -/
theorem Stable.liesIn
    {column : chunk.KeyColumn name}
    (stable : directory.Stable column parts)
    (numbered : chunk.Numbered)
    (member : row ∈ chunk.rows) :
    LiesIn parts row (directory.bucketOfRow column.position row) := by
  intro slot
  constructor
  · rintro ⟨part, found, inside⟩
    rw [stable.ordered numbered slot part found, List.mem_filter, decide_eq_true_eq] at inside
    exact inside.2.symm
  · rintro rfl
    have bounded := directory.bucketOfRow_lt column.position row
    have taken := mt (stable.vacant _ bounded).mp fun nowhere => nowhere row member rfl
    have slots := stable.slots
    cases found : parts[directory.bucketOfRow column.position row]? with
    | none => exact absurd (List.getElem?_eq_none_iff.mp found) (by omega)
    | some slot =>
        cases slot with
        | none => exact absurd found taken
        | some part =>
            refine ⟨part, rfl, ?_⟩
            rw [stable.ordered numbered _ part found, List.mem_filter]
            exact ⟨member, decide_eq_true rfl⟩

/-- Two rows lie in the slot of one number, each in the parts of its own chunk. -/
def Meet (parts otherParts : List (Option Chunk)) (row otherRow : Row) : Prop :=
  ∃ slot, LiesIn parts row slot ∧ LiesIn otherParts otherRow slot

/-- Rows with the same key, or both without one, meet. -/
theorem meet_of_rowKey
    {column : chunk.KeyColumn name}
    {otherColumn : other.KeyColumn otherName}
    (stable : directory.Stable column parts)
    (otherStable : directory.Stable otherColumn otherParts)
    (numbered : chunk.Numbered)
    (otherNumbered : other.Numbered)
    (member : row ∈ chunk.rows)
    (otherMember : otherRow ∈ other.rows)
    (equal : (column.cell row).key? = (otherColumn.cell otherRow).key?) :
    Meet parts otherParts row otherRow := by
  have same : directory.bucketOfRow column.position row =
      directory.bucketOfRow otherColumn.position otherRow := by
    rw [bucketOfRow_eq, bucketOfRow_eq]
    exact congrArg directory.bucketOfKey equal
  exact ⟨_, stable.liesIn numbered member, same ▸ otherStable.liesIn otherNumbered otherMember⟩

/-- A directory deals out every chunk stably, and all chunks alike whose rows have different numbers. -/
structure CoPartitions (directory : Directory) : Prop where
  stable : ∀ {chunk name} (column : Chunk.KeyColumn chunk name),
    ∃ parts, directory.split chunk name = .ok parts ∧ directory.Stable column parts
  /-- Every row has an absent value or one that stands for a key. -/
  keyed : ∀ {chunk name} (column : Chunk.KeyColumn chunk name), ∀ row ∈ chunk.rows,
    column.cell row = .null ∨ ∃ key, column.field.type.Widens (column.cell row) key
  /-- Rows of equal keys meet, also across chunks and across types of the key columns. -/
  equalKeys : ∀ {chunk other name otherName parts otherParts}
    (column : Chunk.KeyColumn chunk name) (otherColumn : Chunk.KeyColumn other otherName),
    chunk.Numbered → other.Numbered →
      directory.split chunk name = .ok parts → directory.split other otherName = .ok otherParts →
    ∀ row ∈ chunk.rows, ∀ otherRow ∈ other.rows, ∀ key,
      column.field.type.Widens (column.cell row) key →
      otherColumn.field.type.Widens (otherColumn.cell otherRow) key →
      Meet parts otherParts row otherRow
  /-- Rows with absent values meet likewise. -/
  nulls : ∀ {chunk other name otherName parts otherParts}
    (column : Chunk.KeyColumn chunk name) (otherColumn : Chunk.KeyColumn other otherName),
    chunk.Numbered → other.Numbered →
      directory.split chunk name = .ok parts → directory.split other otherName = .ok otherParts →
    ∀ row ∈ chunk.rows, ∀ otherRow ∈ other.rows,
      column.cell row = .null → otherColumn.cell otherRow = .null →
      Meet parts otherParts row otherRow

/-- For every power of two from two to the largest fan-out and for every level there is a directory, and
it deals out chunks stably and all alike. -/
theorem coPartitions_of_fanOut
    {fanOut : Nat}
    (least : 2 ≤ fanOut)
    (greatest : fanOut ≤ FanOut.max)
    (power : fanOut.isPowerOfTwo)
    (level : UInt32) :
    ∃ directory, make fanOut level = .ok directory ∧
      directory.fanOut = fanOut ∧ directory.level = level ∧ directory.CoPartitions := by
  have valid : FanOut.Valid fanOut := FanOut.valid_iff.mpr ⟨least, greatest, power⟩
  refine ⟨⟨fanOut, level, valid⟩, dif_pos valid, rfl, rfl, ?stable, ?keyed, ?equalKeys, ?nulls⟩
  case stable =>
    intro chunk name column
    obtain ⟨parts, splits⟩ := exists_split _ column
    exact ⟨parts, splits, stable_of_split splits column⟩
  case keyed =>
    intro chunk name column row member
    exact column.null_or_widens member
  case equalKeys =>
    intro chunk other name otherName parts otherParts column otherColumn numbered otherNumbered splits
      otherSplits row member otherRow otherMember key widens otherWidens
    refine meet_of_rowKey (stable_of_split splits column) (stable_of_split otherSplits otherColumn)
      numbered otherNumbered member otherMember ?_
    rw [ColumnType.key?_of_widens widens, ColumnType.key?_of_widens otherWidens]
  case nulls =>
    intro chunk other name otherName parts otherParts column otherColumn numbered otherNumbered splits
      otherSplits row member otherRow otherMember absent otherAbsent
    refine meet_of_rowKey (stable_of_split splits column) (stable_of_split otherSplits otherColumn)
      numbered otherNumbered member otherMember ?_
    rw [absent, otherAbsent]

theorem coPartitions_of_four :
    2 ≤ 4 ∧ 4 ≤ FanOut.max ∧ Nat.isPowerOfTwo 4 ∧
      ∃ directory, make 4 3 = .ok directory ∧
        directory.fanOut = 4 ∧ directory.level = 3 ∧ directory.CoPartitions :=
  ⟨by decide, by decide, by decide, coPartitions_of_fanOut (by decide) (by decide) (by decide) 3⟩

namespace Sample

/-- The directory of four buckets at the first level. -/
def four : Directory :=
  ⟨4, 0, by decide⟩

/-- Days with their tags. -/
def days : Chunk :=
  ⟨[⟨"day", .date32, true⟩, ⟨"tag", .utf8, true⟩],
    [[.int 1, .text "a"], [.int 2, .text "b"], [.null, .text "c"], [.int 1, .text "d"]], by decide⟩

/-- Small integers. -/
def numbers : Chunk :=
  ⟨[⟨"n", .int8, true⟩], [[.int 2], [.int 1], [.null]], by decide⟩

/-- Days and small integers of equal value come to the same slots, and the absent values to one of their
own. -/
example :
    (four.split days "day").map (List.map fun part => part.elim [] Chunk.rows) =
        .ok [[], [[.int 1, .text "a"], [.int 1, .text "d"]], [[.null, .text "c"]],
          [[.int 2, .text "b"]]] ∧
      (four.split numbers "n").map (List.map fun part => part.elim [] Chunk.rows) =
        .ok [[], [[.int 1]], [[.null]], [[.int 2]]] := by
  decide +kernel

/-- The key column of small integers. -/
def smallColumn {chunk : Chunk} (small : chunk.schema = [⟨"n", .int8, true⟩]) : chunk.KeyColumn "n" where
  position := 0
  field := ⟨"n", .int8, true⟩
  named := by rw [small]; rfl
  found := by rw [small]; rfl
  keyed := rfl

/-- So many rows of one key after a row of a second key, and a row of a third one at the end. -/
def looped (count : Nat) : Chunk :=
  ⟨[⟨"n", .int8, true⟩], [.int 2] :: (List.replicate count [.int 1] ++ [[.int 3]]), by
    intro row member
    rw [List.mem_cons, List.mem_append, List.mem_replicate, List.mem_singleton] at member
    obtain rfl | ⟨-, rfl⟩ | rfl := member <;> decide⟩

/-- The rows in the middle of such a chunk. -/
def middle (count : Nat) : Chunk :=
  ⟨[⟨"n", .int8, true⟩], List.replicate count [.int 1], by
    intro row member
    rw [List.eq_of_mem_replicate member]
    decide⟩

/-- The first row of such a chunk, twice. -/
def doubled : Chunk :=
  ⟨[⟨"n", .int8, true⟩], [[.int 2], [.int 2]], by decide⟩

theorem bucketOfRow_four :
    four.bucketOfRow 0 [.int 1] = 1 ∧ four.bucketOfRow 0 [.int 2] = 3 ∧ four.bucketOfRow 0 [.int 3] = 3 := by
  decide +kernel

theorem rows_looped (count : Nat) :
    (looped count).rows = [[.int 2]] ++ (List.replicate count [.int 1] ++ [[.int 3]]) :=
  rfl

theorem eq_of_mem_looped
    {count : Nat}
    {row : Row}
    (member : row ∈ (looped count).rows) :
    row = [.int 2] ∨ row = [.int 1] ∨ row = [.int 3] := by
  rw [rows_looped, List.mem_append, List.mem_append, List.mem_singleton, List.mem_replicate,
    List.mem_singleton] at member
  exact member.imp_right (.imp_left And.right)

theorem split_middle {count : Nat} (some : 0 < count) :
    four.split (middle count) "n" = .ok [none, Option.some (middle count), none, none] := by
  obtain ⟨one, -⟩ := bucketOfRow_four
  have bucket : ∀ row ∈ (middle count).rows, four.bucketOfRow 0 row = 1 := by
    intro row member
    rw [List.eq_of_mem_replicate member, one]
  have vacant : ∀ slot, slot ≠ 1 → part (middle count) (numbersOf
      (fun row => four.bucketOfRow 0 row = slot) (middle count).rows.zipIdx) = none := by
    intro slot other
    refine part_eq_none_iff.mpr (List.filter_eq_nil_iff.mpr fun row member => ?_)
    rw [bucket row member]
    simpa using other.symm
  have whole : part (middle count) (numbersOf
      (fun row => four.bucketOfRow 0 row = 1) (middle count).rows.zipIdx) = Option.some (middle count) :=
    part_of_all (by simp [middle, Nat.ne_of_gt some]) fun row member => decide_eq_true (bucket row member)
  rw [split_eq four (smallColumn rfl)]
  show Except.ok [part _ (numbersOf (fun row => four.bucketOfRow 0 row = 0) _),
    part _ (numbersOf (fun row => four.bucketOfRow 0 row = 1) _),
    part _ (numbersOf (fun row => four.bucketOfRow 0 row = 2) _),
    part _ (numbersOf (fun row => four.bucketOfRow 0 row = 3) _)] = _
  rw [vacant 0 (by decide), vacant 2 (by decide), vacant 3 (by decide), whole]

variable {count : Nat}

/-- The numbers of the rows in the middle lead to these rows. -/
theorem part_looped_middle
    (long : 0 < count)
    (full : count + 1 = UInt32.size) :
    part (looped count) (numbersOf (fun row => four.bucketOfRow 0 row = 1) (looped count).rows.zipIdx) =
      some (middle count) := by
  obtain ⟨one, two, three⟩ := bucketOfRow_four
  let front : List Row := [.int 2] :: List.replicate count [.int 1]
  have rows : (looped count).rows = front ++ [[.int 3]] := rfl
  have numbers : numbersOf (fun row => four.bucketOfRow 0 row = 1) (looped count).rows.zipIdx =
      numbersOf (fun row => four.bucketOfRow 0 row = 1) front.zipIdx := by
    simp [numbersOf, rows, List.zipIdx_append, three]
  have kept : front.filter (fun row => four.bucketOfRow 0 row = 1) = List.replicate count [.int 1] := by
    simp [front, one, two]
  have length : (numbersOf (fun row => four.bucketOfRow 0 row = 1) front.zipIdx).length = count := by
    rw [length_numbersOf, kept, List.length_replicate]
  have short : front.length ≤ UInt32.size := by
    rw [← full]
    simp [front]
  rw [numbers, part, if_neg, if_neg]
  · refine congrArg some (Chunk.ext rfl ?_)
    rw [Chunk.rows_take, List.filterMap_map, show (middle count).rows = _ from kept.symm,
      ← filterMap_numbersOf short]
    refine List.filterMap_congr fun number member => ?_
    obtain ⟨row, found⟩ := exists_number member
    show (looped count).rows[number.toNat]? = front[number.toNat]?
    rw [rows, List.getElem?_append_left (List.getElem?_eq_some_iff.mp found).1]
  · rw [length, Chunk.length, rows]
    simp [front]
    omega
  · rw [List.isEmpty_iff_length_eq_zero, length]
    exact Nat.ne_of_gt long

/-- The number of the last row is that of the first one, so the first one is found twice. -/
theorem part_looped_ends
    (long : 0 < count)
    (full : count + 1 = UInt32.size) :
    part (looped count) (numbersOf (fun row => four.bucketOfRow 0 row = 3) (looped count).rows.zipIdx) =
      some doubled := by
  obtain ⟨one, two, three⟩ := bucketOfRow_four
  have none : ∀ found ∈ (List.replicate count [Cell.int 1]).zipIdx 1,
      ¬ decide (four.bucketOfRow 0 found.1 = 3) = true := by
    intro found member
    rw [List.eq_of_mem_replicate (List.fst_mem_of_mem_zipIdx member), one]
    decide
  have numbers : numbersOf (fun row => four.bucketOfRow 0 row = 3) (looped count).rows.zipIdx =
      [0, (count + 1).toUInt32] := by
    simp [numbersOf, looped, List.zipIdx_cons, List.zipIdx_append, List.filter_eq_nil_iff.mpr none, two,
      three, Nat.add_comm 1]
  have zero : (count + 1).toUInt32 = 0 := by
    rw [full]
    rfl
  rw [numbers, zero, part, if_neg (by decide), if_neg]
  · exact congrArg some (Chunk.ext rfl (by simp [looped, doubled]))
  · simp [Chunk.length, looped]
    omega

/-- Such a chunk is dealt out as if the rows in the middle came first, and then the first row twice. -/
theorem split_looped
    (long : 0 < count)
    (full : count + 1 = UInt32.size) :
    four.split (looped count) "n" = .ok [none, some (middle count), none, some doubled] := by
  obtain ⟨one, two, three⟩ := bucketOfRow_four
  have vacant : ∀ slot, slot ≠ 1 → slot ≠ 3 → part (looped count) (numbersOf
      (fun row => four.bucketOfRow 0 row = slot) (looped count).rows.zipIdx) = none := by
    intro slot other another
    refine part_eq_none_iff.mpr ?_
    simp [looped, one, two, three, other.symm, another.symm]
  rw [split_eq four (smallColumn rfl)]
  show Except.ok [part _ (numbersOf (fun row => four.bucketOfRow 0 row = 0) _),
    part _ (numbersOf (fun row => four.bucketOfRow 0 row = 1) _),
    part _ (numbersOf (fun row => four.bucketOfRow 0 row = 2) _),
    part _ (numbersOf (fun row => four.bucketOfRow 0 row = 3) _)] = _
  rw [vacant 0 (by decide) (by decide), vacant 2 (by decide) (by decide), part_looped_middle long full,
    part_looped_ends long full]

/-- One less than there are numbers. -/
def most : Nat :=
  UInt32.size - 1

theorem split_most : four.split (looped most) "n" = .ok [none, some (middle most), none, some doubled] :=
  split_looped (by decide) (by decide)

end Sample

/-- If a chunk has one row more than there are numbers, the last row has the number of the first, and the
first row is found twice in its slot. -/
theorem not_ordered_looped :
    ∃ parts part, Sample.four.split (Sample.looped Sample.most) "n" = .ok parts ∧
      parts[3]? = some (some part) ∧ part.rows = [[.int 2], [.int 2]] ∧
      (Sample.looped Sample.most).rows.filter (fun row => Sample.four.bucketOfRow 0 row = 3) =
        [[.int 2], [.int 3]] := by
  obtain ⟨one, two, three⟩ := Sample.bucketOfRow_four
  refine ⟨_, _, Sample.split_most, rfl, rfl, ?_⟩
  simp [Sample.looped, one, two, three]

end Directory

end Spillway
