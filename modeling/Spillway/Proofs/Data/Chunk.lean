import Mathlib.Data.List.Basic
import Spillway.Data.Chunk
import Spillway.Proofs.Step

/-!
# Rows that fit a schema

A row that fits a schema has one cell for each field, and every cell is admitted by its field. So a
chunk is put together again from its own rows, chunks of one schema are concatenated by
concatenating their rows, and a column that rows can be keyed by is one of a type that has keys.
-/

namespace Spillway

theorem total_eq_zero
    {α : Type}
    {measure : α → Nat}
    {values : List α}
    (nothing : ∀ value ∈ values, measure value = 0) :
    total measure values = 0 := by
  induction values with
  | nil => rfl
  | cons value values inductionHypothesis =>
      rw [List.forall_mem_cons] at nothing
      rw [total_cons, nothing.1, inductionHypothesis nothing.2]

namespace Schema

theorem length_of_admits
    {schema : Schema}
    {row : Row}
    (admitted : schema.admits row = true) :
    row.length = schema.length := by
  induction schema generalizing row with
  | nil =>
      cases row with
      | nil => rfl
      | cons cell cells => simp [admits] at admitted
  | cons field fields inductionHypothesis =>
      cases row with
      | nil => simp [admits] at admitted
      | cons cell cells =>
          simp only [admits, Bool.and_eq_true] at admitted
          simp [inductionHypothesis admitted.2]

/-- Every cell of a fitting row is admitted by the field at its position. -/
theorem admits_cell
    {schema : Schema}
    {row : Row}
    {position : Nat}
    {field : Field}
    (admitted : schema.admits row = true)
    (found : schema[position]? = some field) :
    field.admits (Row.cell row position) = true := by
  induction schema generalizing row position with
  | nil => simp at found
  | cons first fields inductionHypothesis =>
      cases row with
      | nil => simp [admits] at admitted
      | cons cell cells =>
          simp only [admits, Bool.and_eq_true] at admitted
          cases position with
          | zero =>
              simp only [List.getElem?_cons_zero, Option.some.injEq] at found
              subst found
              exact admitted.1
          | succ position =>
              rw [List.getElem?_cons_succ] at found
              have rest := inductionHypothesis admitted.2 found
              simpa [Row.cell] using rest

theorem admits_append
    {schema more : Schema}
    {row other : Row}
    (admitted : schema.admits row = true)
    (alsoAdmitted : more.admits other = true) :
    (schema ++ more).admits (row ++ other) = true := by
  induction schema generalizing row with
  | nil =>
      cases row with
      | nil => exact alsoAdmitted
      | cons => cases admitted
  | cons field fields inductionHypothesis =>
      cases row with
      | nil => cases admitted
      | cons cell cells =>
          rw [admits, Bool.and_eq_true] at admitted
          rw [List.cons_append, List.cons_append, admits, Bool.and_eq_true]
          exact ⟨admitted.1, inductionHypothesis admitted.2⟩

theorem take_of_admits
    {schema : Schema}
    {row : Row}
    (admitted : schema.admits row = true) :
    row.take schema.length = row :=
  List.take_of_length_le (Nat.le_of_eq (length_of_admits admitted))

/-- A name that has a position names a field there. -/
theorem exists_field_of_position
    {schema : Schema}
    {name : String}
    {position : Nat}
    (found : schema.position? name = some position) :
    ∃ field, schema[position]? = some field := by
  have inside := List.findIdx?_eq_some_iff_findIdx_eq.mp found
  exact ⟨_, List.getElem?_eq_getElem inside.1⟩

/-- Key of a row in the first column of a name. -/
def keyOf
    (schema : Schema)
    (name : String)
    (row : Row) : Option Key :=
  (schema.position? name).bind fun position => Chunk.rowKey position row

theorem keyOf_of_position?
    {schema : Schema}
    {name : String}
    {position : Nat}
    (located : schema.position? name = some position)
    (row : Row) :
    schema.keyOf name row = Chunk.rowKey position row := by
  rw [keyOf, located, Option.bind_some]

end Schema

namespace Chunk

theorem take_rows (chunk : Chunk) :
    chunk.rows.map (List.take chunk.schema.length) = chunk.rows := by
  rw [List.map_congr_left fun row member =>
    Schema.take_of_admits (chunk.fits row member), List.map_id'']
  intro row
  rfl

theorem absentField?_eq_none
    {rows : List Row}
    {position : Nat}
    {fields : Schema}
    (present : ∀ index field, fields[index]? = some field → field.nullable = false →
      ∀ row ∈ rows, (Row.cell row (position + index)).isNull = false) :
    absentField? rows position fields = none := by
  induction fields generalizing position with
  | nil => rfl
  | cons field fields inductionHypothesis =>
      have here := present 0 field rfl
      rw [absentField?, if_neg]
      · apply inductionHypothesis
        intro index other found required row member
        have there := present (index + 1) other found required row member
        rwa [show position + 1 + index = position + (index + 1) by omega]
      · simp only [Bool.and_eq_true, Bool.not_eq_true', List.any_eq_true, not_and, not_exists]
        intro required row member absent
        exact Bool.false_ne_true ((here required row member).symm.trans absent)

theorem typeMismatch?_self
    (position : Nat)
    (fields : Schema) :
    typeMismatch? position fields (fields.map Field.type) = none := by
  induction fields generalizing position with
  | nil => rfl
  | cons field fields inductionHypothesis =>
      simp [typeMismatch?, inductionHypothesis]

/-- Rows that fit a schema are put together under it. -/
theorem assemble_of_fits
    {schema : Schema}
    {rows : List Row}
    (fits : ∀ row ∈ rows, schema.admits row = true) :
    assemble schema (schema.map Field.type) rows = .ok ⟨schema, rows, fits⟩ := by
  have noneAbsent : absentField? rows 0 schema = none := by
    apply absentField?_eq_none
    intro index field found required row member
    have admitted := Schema.admits_cell (fits row member) found
    rw [Field.admits, required, Bool.and_eq_true] at admitted
    simpa using admitted.2
  simp only [assemble, noneAbsent, typeMismatch?_self, List.length_map, ne_eq, not_true_eq_false,
    if_false, dif_pos fits]

/-- Chunks of one schema are concatenated row by row. -/
theorem rows_of_concat
    {schema : Schema}
    {chunks : List Chunk}
    {whole : Chunk}
    (fitting : ∀ chunk ∈ chunks, chunk.schema = schema)
    (concatenated : concat schema chunks = .ok whole) :
    whole.schema = schema ∧ whole.rows = chunks.flatMap Chunk.rows := by
  unfold concat at concatenated
  split at concatenated
  · cases concatenated
    exact ⟨rfl, rfl⟩
  · split at concatenated
    · simp at concatenated
    · obtain ⟨sameSchema, sameRows⟩ := eq_of_assemble concatenated
      refine ⟨sameSchema, ?_⟩
      rw [sameRows]
      apply List.flatMap_congr
      intro chunk member
      rw [← fitting chunk member]
      exact chunk.take_rows

theorem mixedTypes?_eq_none
    {schema : Schema}
    {schemas : List Schema}
    (same : ∀ other ∈ schemas, other = schema)
    (count : Nat) :
    mixedTypes? schemas count = none := by
  unfold mixedTypes?
  rw [List.findSome?_eq_none_iff]
  intro position _
  have types : ∀ type ∈ typesAt schemas position, schema[position]?.map Field.type = some type := by
    intro type member
    obtain ⟨other, inside, found⟩ := List.mem_filterMap.mp member
    rwa [same other inside] at found
  split
  case h_1 => rfl
  case h_2 first rest listed =>
      rw [listed, List.forall_mem_cons] at types
      refine if_pos (List.all_eq_true.mpr fun type member => ?_)
      exact decide_eq_true (Option.some.inj ((types.2 type member).symm.trans types.1))

/-- Chunks of one schema can be concatenated. -/
theorem exists_concat
    {schema : Schema}
    {chunks : List Chunk}
    (fitting : ∀ chunk ∈ chunks, chunk.schema = schema) :
    ∃ whole, concat schema chunks = .ok whole := by
  unfold concat
  split
  case h_1 => exact ⟨_, rfl⟩
  case h_2 first rest =>
      have unmixed : mixedTypes? ((first :: rest).map Chunk.schema) schema.length = none :=
        mixedTypes?_eq_none (List.forall_mem_map.mpr fitting) _
      have types : (first.schema.map Field.type).take schema.length = schema.map Field.type := by
        rw [fitting first List.mem_cons_self]
        exact List.take_of_length_le (Nat.le_of_eq (List.length_map ..))
      have fits : ∀ row ∈ (first :: rest).flatMap fun chunk => chunk.rows.map (List.take schema.length),
          schema.admits row = true := by
        intro row member
        obtain ⟨chunk, inside, member⟩ := List.mem_flatMap.mp member
        rw [← fitting chunk inside, chunk.take_rows] at member
        exact fitting chunk inside ▸ chunk.fits row member
      rw [unmixed, types]
      exact ⟨_, assemble_of_fits fits⟩

theorem position_eq_ok_iff
    {chunk : Chunk}
    {name : String}
    {position : Nat} :
    chunk.position name = .ok position ↔ chunk.schema.position? name = some position := by
  unfold Chunk.position
  cases chunk.schema.position? name <;> simp

/-- A position that rows can be keyed by is the position of the named column, and its field is of a
type that has keys. -/
theorem keyPosition_eq_ok_iff
    {chunk : Chunk}
    {name : String}
    {position : Nat} :
    chunk.keyPosition name = .ok position ↔
      chunk.schema.position? name = some position ∧
        ∃ field, chunk.schema[position]? = some field ∧ field.type.isKey = true := by
  unfold Chunk.keyPosition
  cases found : chunk.schema.position? name with
  | none => simp [Chunk.position, found]
  | some place =>
      obtain ⟨field, there⟩ := Schema.exists_field_of_position found
      by_cases keyed : field.type.isKey = true
      · simp only [bind_eq_ok_iff, position_eq_ok_iff, found, Option.some.injEq, exists_eq_left',
          there, if_pos keyed, pure_eq_ok_iff]
        constructor
        · rintro rfl
          exact ⟨rfl, field, there, keyed⟩
        · exact fun held => held.1
      · simp only [bind_eq_ok_iff, position_eq_ok_iff, found, Option.some.injEq, exists_eq_left',
          there, if_neg keyed, throw_ne_ok, false_iff]
        rintro ⟨rfl, other, otherThere, otherKeyed⟩
        rw [there] at otherThere
        cases otherThere
        exact keyed otherKeyed

end Chunk

end Spillway
