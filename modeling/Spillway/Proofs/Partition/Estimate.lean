import Mathlib.Tactic.Ring
import Spillway.Proofs.Partition.Routing

/-!
# Estimates of parts

The estimate of a chunk has a share for each row, which is the same wherever the row is: the widths of its
cells and the characters of its texts. Apart from the rows, every column of texts has the position at which
its first text starts, and a column of booleans is rounded up to whole bytes. So the estimates of parts do
not add up to that of the chunk they are parts of: every part beyond the first brings the positions once
more, and rounds up the booleans for itself. They add up where there are only columns of fixed width.
-/

namespace Spillway

/-! ## Totals -/

theorem total_perm
    {α : Type}
    {measure : α → Nat}
    {values others : List α}
    (perm : values.Perm others) :
    total measure values = total measure others := by
  induction perm with
  | nil => rfl
  | cons value _ inductionHypothesis => rw [total_cons, total_cons, inductionHypothesis]
  | swap value other rest => simp only [total_cons, Nat.add_left_comm]
  | trans _ _ first second => exact first.trans second

/-! ## Columns -/

/-- Bytes that each row adds to a column, packed booleans and the characters of texts apart. -/
def ColumnType.rowBytes : ColumnType → Nat
  | int8 | uint8 => 1
  | int16 => 2
  | int32 | uint32 | date32 | utf8 => 4
  | int64 | uint64 | float64 | largeUtf8 => 8
  | boolean => 0

/-- Bytes of a column of booleans. -/
def packedBytes (count : Nat) : Nat :=
  ColumnType.boolean.layoutBytes count

/-- Whether a cut is within a byte that both sides would have had in common: the bits beside it on the one
side and on the other are no more than a byte. Then there is one byte more. -/
def brokenBytes (first second : Nat) : Nat :=
  if 0 < first % 8 ∧ 0 < second % 8 ∧ first % 8 + second % 8 ≤ 8 then 1 else 0

theorem packedBytes_add (first second : Nat) :
    packedBytes first + packedBytes second = packedBytes (first + second) + brokenBytes first second := by
  simp only [packedBytes, ColumnType.layoutBytes, brokenBytes]
  split <;> omega

/-- No cut breaks a byte exactly if there are no rows, or one more than fill their bytes. -/
theorem brokenBytes_eq_zero_iff (count : Nat) :
    (∀ place ≤ count, brokenBytes place (count - place) = 0) ↔ count = 0 ∨ count % 8 = 1 := by
  constructor
  · intro whole
    by_contra other
    have first := whole 1 (by omega)
    simp only [brokenBytes, ite_eq_right_iff, Nat.one_ne_zero, imp_false] at first
    omega
  · intro count place inside
    simp only [brokenBytes, ite_eq_right_iff, Nat.one_ne_zero, imp_false]
    omega

theorem ColumnType.layoutBytes_eq (type : ColumnType) (count : Nat) :
    type.layoutBytes count =
      type.rowBytes * count + type.layoutBytes 0 +
        if type = .boolean then packedBytes count else 0 := by
  cases type <;> simp [layoutBytes, rowBytes, packedBytes, Nat.mul_add]

theorem ColumnType.layoutBytes_zero_eq_zero_iff (type : ColumnType) :
    type.layoutBytes 0 = 0 ↔ type.isText = false := by
  cases type <;> decide

theorem ColumnType.textBytes_eq_zero
    {type : ColumnType}
    {cell : Cell}
    (textless : type.isText = false)
    (admitted : type.admits cell = true) :
    cell.textBytes = 0 := by
  cases cell with
  | text value => cases type <;> simp_all [isText, admits]
  | _ => rfl

namespace Schema

/-- Bytes that each row adds to the columns, packed booleans and the characters of texts apart. -/
def rowBytes (schema : Schema) : Nat :=
  total (fun field => field.type.rowBytes) schema

/-- Bytes of the columns before their first row. -/
def startBytes (schema : Schema) : Nat :=
  total (fun field => field.type.layoutBytes 0) schema

/-- Number of columns of booleans. -/
def flags (schema : Schema) : Nat :=
  schema.countP fun field => field.type = .boolean

theorem total_layoutBytes (schema : Schema) (count : Nat) :
    total (fun field => field.type.layoutBytes count) schema =
      schema.rowBytes * count + schema.startBytes + schema.flags * packedBytes count := by
  induction schema with
  | nil => simp [rowBytes, startBytes, flags]
  | cons field fields inductionHypothesis =>
      have column := field.type.layoutBytes_eq count
      simp only [rowBytes, startBytes, flags, total_cons, List.countP_cons, decide_eq_true_eq]
        at inductionHypothesis ⊢
      rw [inductionHypothesis, column]
      split <;> ring

theorem startBytes_eq_zero_iff (schema : Schema) :
    schema.startBytes = 0 ↔ ∀ field ∈ schema, field.type.isText = false := by
  induction schema with
  | nil => simp [startBytes]
  | cons field fields inductionHypothesis =>
      rw [startBytes, total_cons, Nat.add_eq_zero_iff, List.forall_mem_cons,
        ColumnType.layoutBytes_zero_eq_zero_iff]
      exact and_congr_right fun _ => inductionHypothesis

theorem flags_eq_zero_iff (schema : Schema) :
    schema.flags = 0 ↔ ∀ field ∈ schema, field.type ≠ .boolean := by
  simp [flags, List.countP_eq_zero]

/-- Rows without texts have no characters. -/
theorem textBytes_eq_zero
    {schema : Schema}
    {row : Row}
    (textless : ∀ field ∈ schema, field.type.isText = false)
    (admitted : schema.admits row = true) :
    Row.textBytes row = 0 := by
  induction schema generalizing row with
  | nil =>
      cases row with
      | nil => rfl
      | cons cell cells => simp [admits] at admitted
  | cons field fields inductionHypothesis =>
      cases row with
      | nil => simp [admits] at admitted
      | cons cell cells =>
          obtain ⟨fixed, others⟩ := List.forall_mem_cons.mp textless
          rw [admits, Bool.and_eq_true, Field.admits, Bool.and_eq_true] at admitted
          have rest := inductionHypothesis others admitted.2
          rw [Row.textBytes, total_cons, ColumnType.textBytes_eq_zero fixed admitted.1.1, Nat.zero_add]
          exact rest

end Schema

namespace Chunk

variable {chunk : Chunk} {parts : List Chunk}

/-- The estimate of a chunk: a share for each row, the start of each column, and the packed booleans. -/
theorem logicalBytes_eq (chunk : Chunk) :
    chunk.logicalBytes =
      chunk.schema.rowBytes * chunk.length + total Row.textBytes chunk.rows +
        chunk.schema.startBytes + chunk.schema.flags * packedBytes chunk.length := by
  rw [logicalBytes, Schema.total_layoutBytes]
  omega

/-- Chunks that make up a chunk: they have its schema, and together as many rows and as many characters. -/
structure Consists (chunk : Chunk) (parts : List Chunk) : Prop where
  schema_eq : ∀ part ∈ parts, part.schema = chunk.schema
  length_eq : (parts.flatMap Chunk.rows).length = chunk.length
  texts_eq : total Row.textBytes (parts.flatMap Chunk.rows) = total Row.textBytes chunk.rows

/-- It is enough that they have its rows. -/
theorem consists_of_perm
    (schema_eq : ∀ part ∈ parts, part.schema = chunk.schema)
    (perm : (parts.flatMap Chunk.rows).Perm chunk.rows) :
    chunk.Consists parts :=
  ⟨schema_eq, perm.length_eq, total_perm perm⟩

/-- The estimates of chunks of one schema. -/
theorem total_logicalBytes
    {schema : Schema}
    (fitting : ∀ part ∈ parts, part.schema = schema) :
    total logicalBytes parts =
      schema.rowBytes * (parts.flatMap Chunk.rows).length +
        total Row.textBytes (parts.flatMap Chunk.rows) +
        parts.length * schema.startBytes +
        schema.flags * total (fun part => packedBytes part.length) parts := by
  induction parts with
  | nil => simp
  | cons part parts inductionHypothesis =>
      obtain ⟨same, others⟩ := List.forall_mem_cons.mp fitting
      rw [total_cons, logicalBytes_eq, inductionHypothesis others, same, List.flatMap_cons,
        List.length_append, total_append, List.length_cons, total_cons, length]
      ring

/-- What the estimates of parts come to, against the estimate of the chunk. Both sides have the shares of
the rows; the starts of the columns count once for each part, and booleans are rounded up part by part. -/
theorem Consists.total_logicalBytes
    (consists : chunk.Consists parts) :
    total logicalBytes parts + chunk.schema.startBytes +
        chunk.schema.flags * packedBytes chunk.length =
      chunk.logicalBytes + parts.length * chunk.schema.startBytes +
        chunk.schema.flags * total (fun part => packedBytes part.length) parts := by
  rw [Chunk.total_logicalBytes consists.schema_eq, consists.length_eq, consists.texts_eq,
    logicalBytes_eq]
  omega

/-- Rounded up part by part, booleans never come to less. -/
theorem packedBytes_le (parts : List Chunk) :
    packedBytes (parts.flatMap Chunk.rows).length ≤ total (fun part => packedBytes part.length) parts := by
  induction parts with
  | nil => exact Nat.le_refl _
  | cons part parts inductionHypothesis =>
      have sum := packedBytes_add part.length (parts.flatMap Chunk.rows).length
      rw [List.flatMap_cons, List.length_append, total_cons]
      rw [length] at sum ⊢
      omega

/-- The estimates of parts, if there are any, come to no less than the estimate of the chunk. -/
theorem Consists.le_total
    (consists : chunk.Consists parts)
    (some : parts ≠ []) :
    chunk.logicalBytes ≤ total logicalBytes parts := by
  have sum := consists.total_logicalBytes
  have packed := packedBytes_le parts
  rw [consists.length_eq] at packed
  have flags := Nat.mul_le_mul_left chunk.schema.flags packed
  have starts := Nat.mul_le_mul_right chunk.schema.startBytes (List.length_pos_iff.mpr some)
  omega

/-- A chunk that has rows consists of some parts. -/
theorem Consists.ne_nil
    (consists : chunk.Consists parts)
    (some : chunk.rows ≠ []) :
    parts ≠ [] := by
  rintro rfl
  exact some (List.length_eq_zero_iff.mp consists.length_eq.symm)

/-- Where all columns are of fixed width, the estimates of parts add up. -/
theorem Consists.total_eq
    (consists : chunk.Consists parts)
    (fixed : chunk.schema.startBytes = 0 ∧ chunk.schema.flags = 0) :
    total logicalBytes parts = chunk.logicalBytes := by
  have sum := consists.total_logicalBytes
  simpa only [fixed.1, fixed.2, Nat.mul_zero, Nat.zero_mul, Nat.add_zero] using sum

/-! ## Slices -/

/-- A chunk that is cut in two. -/
theorem consists_slices (chunk : Chunk) (place : Nat) :
    chunk.Consists [chunk.slice 0 place, chunk.slice place (chunk.length - place)] := by
  have rest : (chunk.rows.drop place).take (chunk.length - place) = chunk.rows.drop place :=
    List.take_of_length_le (by rw [List.length_drop, length])
  exact consists_of_perm (by simp) (by simp [rest])

theorem length_slice
    {place : Nat}
    (inside : place ≤ chunk.length) :
    (chunk.slice 0 place).length = place ∧
      (chunk.slice place (chunk.length - place)).length = chunk.length - place := by
  simp only [length, rows_slice, List.length_take, List.length_drop] at inside ⊢
  omega

/-- What the estimates of two slices come to. -/
theorem logicalBytes_slices
    {place : Nat}
    (inside : place ≤ chunk.length) :
    (chunk.slice 0 place).logicalBytes + (chunk.slice place (chunk.length - place)).logicalBytes =
      chunk.logicalBytes + chunk.schema.startBytes +
        chunk.schema.flags * brokenBytes place (chunk.length - place) := by
  obtain ⟨first, second⟩ := length_slice inside
  have sum := (chunk.consists_slices place).total_logicalBytes
  have packed := packedBytes_add place (chunk.length - place)
  rw [Nat.add_sub_cancel' inside] at packed
  simp only [total_cons, total_nil, Nat.add_zero, List.length_cons, List.length_nil, first, second,
    packed, Nat.mul_add] at sum
  omega

/-- Slices add up wherever a chunk is cut exactly if it has no texts, and no booleans unless their last
byte has one. -/
theorem slices_additive_iff (chunk : Chunk) :
    (∀ place ≤ chunk.length,
        (chunk.slice 0 place).logicalBytes + (chunk.slice place (chunk.length - place)).logicalBytes =
          chunk.logicalBytes) ↔
      chunk.schema.startBytes = 0 ∧
        (chunk.schema.flags = 0 ∨ chunk.length = 0 ∨ chunk.length % 8 = 1) := by
  rw [← brokenBytes_eq_zero_iff]
  constructor
  · intro additive
    have cut := fun place inside => (logicalBytes_slices inside).symm.trans (additive place inside)
    have start : chunk.schema.startBytes = 0 := by
      have none := cut 0 (Nat.zero_le _)
      omega
    refine ⟨start, or_iff_not_imp_left.mpr fun some place inside => ?_⟩
    have none := cut place inside
    rw [start, Nat.add_zero, Nat.add_eq_left, Nat.mul_eq_zero] at none
    exact none.resolve_left some
  · rintro ⟨start, fixed⟩ place inside
    have none : chunk.schema.flags * brokenBytes place (chunk.length - place) = 0 :=
      Nat.mul_eq_zero.mpr (fixed.imp_right fun whole => whole place inside)
    rw [logicalBytes_slices inside, start, none, Nat.add_zero]

/-! ## Parts of a split chunk -/

variable {directory : Directory} {name : String} {slots : List (Option Chunk)}

theorem flatMap_present (slots : List (Option Chunk)) :
    (slots.filterMap id).flatMap Chunk.rows = slots.flatMap Directory.partRows := by
  induction slots with
  | nil => rfl
  | cons slot slots inductionHypothesis =>
      cases slot with
      | none => exact inductionHypothesis
      | some part => exact congrArg (part.rows ++ ·) inductionHypothesis

theorem schema_of_split
    (splits : directory.split chunk name = .ok slots) :
    ∀ part ∈ slots.filterMap id, part.schema = chunk.schema := by
  intro part member
  obtain ⟨slot, inside, rfl⟩ := List.mem_filterMap.mp member
  exact (Directory.deals_of_split splits).schema_eq inside

/-- If its rows have different numbers, the slots of a split chunk have together its rows. -/
theorem perm_of_split
    (splits : directory.split chunk name = .ok slots)
    (numbered : chunk.Numbered) :
    ((slots.filterMap id).flatMap Chunk.rows).Perm chunk.rows := by
  have deals := Directory.deals_of_split splits
  have every : slots.flatMap Directory.partRows =
      ((List.range directory.fanOut).zip slots).flatMap fun pair => Directory.partRows pair.2 := by
    have matching : slots.length ≤ (List.range directory.fanOut).length := by
      rw [deals.length_eq, List.length_range]
    rw [← List.flatMap_map Prod.snd, List.map_snd_zip matching]
  rw [flatMap_present, every,
    Directory.flatMap_zip_range (fun _ rows => rows) deals.length_eq (deals.rows_eq numbered)]
  exact perm_flatMap_filter_range fun row _ => directory.bucketOfKey_lt _

/-- The slots have together as many rows as the chunk, however long it is. -/
theorem length_of_split
    (splits : directory.split chunk name = .ok slots) :
    ((slots.filterMap id).flatMap Chunk.rows).length = chunk.length := by
  have deals := Directory.deals_of_split splits
  have each : slots.map (fun slot => (Directory.partRows slot).length) =
      (List.range directory.fanOut).map fun bucket => (chunk.rows.filter fun row =>
        directory.bucketOfKey (chunk.schema.keyOf name row) = bucket).length := by
    refine List.ext_getElem (by simp [deals.length_eq]) fun bucket here _ => ?_
    rw [List.length_map] at here
    have gets := deals.gets bucket _ (List.getElem?_eq_getElem here)
    rw [List.getElem_map, List.getElem_map, List.getElem_range]
    cases slot : slots[bucket] with
    | none => rw [gets.vacant.mp slot]; rfl
    | some part => exact (gets.partOf part slot).length
  rw [flatMap_present, List.length_flatMap, each, ← List.length_flatMap, length]
  exact (perm_flatMap_filter_range fun row _ => directory.bucketOfKey_lt _).length_eq

/-- If its rows have different numbers, a chunk consists of what its slots have after it has been split. -/
theorem consists_of_split
    (splits : directory.split chunk name = .ok slots)
    (numbered : chunk.Numbered) :
    chunk.Consists (slots.filterMap id) :=
  consists_of_perm (schema_of_split splits) (perm_of_split splits numbered)

/-- Where no column is of texts, the slots have as many characters as the chunk: none. -/
theorem consists_of_textless
    (splits : directory.split chunk name = .ok slots)
    (textless : ∀ field ∈ chunk.schema, field.type.isText = false) :
    chunk.Consists (slots.filterMap id) where
  schema_eq := schema_of_split splits
  length_eq := length_of_split splits
  texts_eq := by
    have none : ∀ {rows : List Row}, (∀ row ∈ rows, chunk.schema.admits row = true) →
        total Row.textBytes rows = 0 := fun fits =>
      total_eq_zero fun row member => Schema.textBytes_eq_zero textless (fits row member)
    rw [none chunk.fits, none]
    intro row member
    obtain ⟨part, inside, member⟩ := List.mem_flatMap.mp member
    exact schema_of_split splits part inside ▸ part.fits row member

/-! ## What estimates come to -/

/-- The estimates of the parts of a chunk, for two slices and for the slots of a split chunk. -/
structure Estimates (chunk : Chunk) : Prop where
  /-- Two slices come to the chunk, the starts of its columns once more, and a byte more for each column of
  booleans that is cut within a byte. -/
  sliced : ∀ place ≤ chunk.length,
    (chunk.slice 0 place).logicalBytes + (chunk.slice place (chunk.length - place)).logicalBytes =
      chunk.logicalBytes + chunk.schema.startBytes +
        chunk.schema.flags * brokenBytes place (chunk.length - place)
  /-- So slices add up wherever the chunk is cut exactly if it has no columns of texts, and none of booleans
  unless there is no row or a single one in the last byte. -/
  sliced_iff :
    (∀ place ≤ chunk.length,
        (chunk.slice 0 place).logicalBytes + (chunk.slice place (chunk.length - place)).logicalBytes =
          chunk.logicalBytes) ↔
      (∀ field ∈ chunk.schema, field.type.isText = false) ∧
        ((∀ field ∈ chunk.schema, field.type ≠ .boolean) ∨
          chunk.length = 0 ∨ chunk.length % 8 = 1)
  /-- The parts of a split chunk whose rows have different numbers have the starts of the columns once each,
  and booleans rounded up part by part. -/
  dealt : chunk.Numbered → ∀ {directory name slots},
    Directory.split directory chunk name = .ok slots →
    total logicalBytes (slots.filterMap id) + chunk.schema.startBytes +
        chunk.schema.flags * packedBytes chunk.length =
      chunk.logicalBytes + (slots.filterMap id).length * chunk.schema.startBytes +
        chunk.schema.flags * total (fun part => packedBytes part.length) (slots.filterMap id)
  /-- They add up where all columns are of fixed width, however long the chunk is. -/
  dealt_eq : (∀ field ∈ chunk.schema, field.type.isText = false ∧ field.type ≠ .boolean) →
    ∀ {directory name slots}, Directory.split directory chunk name = .ok slots →
      total logicalBytes (slots.filterMap id) = chunk.logicalBytes
  /-- And those of a chunk whose rows have different numbers never come to less, if it has rows. -/
  dealt_le : chunk.Numbered → chunk.rows ≠ [] →
    ∀ {directory name slots}, Directory.split directory chunk name = .ok slots →
      chunk.logicalBytes ≤ total logicalBytes (slots.filterMap id)

/-- The estimate of every chunk against those of its slices and of the parts it is split into. -/
theorem estimates (chunk : Chunk) : chunk.Estimates where
  sliced _ inside := logicalBytes_slices inside
  sliced_iff := by
    rw [slices_additive_iff, Schema.startBytes_eq_zero_iff, Schema.flags_eq_zero_iff]
  dealt numbered _ _ _ splits := (consists_of_split splits numbered).total_logicalBytes
  dealt_eq fixed _ _ _ splits := by
    have textless := fun field member => (fixed field member).1
    refine (consists_of_textless splits textless).total_eq ⟨?_, ?_⟩
    · exact (Schema.startBytes_eq_zero_iff _).mpr textless
    · exact (Schema.flags_eq_zero_iff _).mpr fun field member => (fixed field member).2
  dealt_le numbered some _ _ _ splits :=
    have consists := consists_of_split splits numbered
    consists.le_total (consists.ne_nil some)

/-- Two rows of one text each. -/
def Sample.texts : Chunk :=
  ⟨[⟨"k", .utf8, true⟩], [[.text "a"], [.text "b"]], by decide⟩

/-- Slices do not always add up: the slice of no texts has the position at which the first would start. -/
theorem not_additive_texts :
    ¬ ∀ (chunk : Chunk) (place : Nat), place ≤ chunk.length →
      (chunk.slice 0 place).logicalBytes + (chunk.slice place (chunk.length - place)).logicalBytes =
        chunk.logicalBytes := by
  intro additive
  have none : (Sample.texts.slice 0 0).logicalBytes = 4 := by decide
  have all : (Sample.texts.slice 0 2).logicalBytes = 14 := by decide
  have whole : Sample.texts.logicalBytes = 14 := by decide
  have sum := additive Sample.texts 0 (Nat.zero_le _)
  rw [none, show Sample.texts.length - 0 = 2 from rfl, all, whole] at sum
  exact absurd sum (by decide)

end Chunk
end Spillway
