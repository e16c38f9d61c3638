import Spillway.Proofs.Spill.Effects

/-!
# Chunks read under the schema of their body

A body does not look at the schemas of the chunks that are written to it. Read back, chunks of its own
schema are as they were, and any others have at least as many rows as before: buffers are read row by
row, so what does not fit the schema is an error and never a row more or less.
-/

namespace Spillway

namespace ColumnBuffers

theorem length_numbersAfter
    (done : List Nat)
    (width count : Nat)
    (bytes : List UInt8) :
    (numbersAfter done width count bytes).length = done.length + count := by
  induction count generalizing done bytes with
  | zero => rw [numbersAfter, List.length_reverse, Nat.add_zero]
  | succ count inductionHypothesis =>
      rw [numbersAfter, inductionHypothesis, List.length_cons]
      omega

theorem length_textsAfter
    {done read : List String}
    {whole : Bool}
    {limit row start : Nat}
    {rest : List UInt8}
    {positions : List Int}
    (texts : textsAfter done whole limit row start rest positions = .ok read) :
    read.length = done.length + positions.length := by
  fun_induction textsAfter done whole limit row start rest positions with
  | case1 =>
      cases texts
      rw [List.length_reverse, List.length_nil, Nat.add_zero]
  | case7 done row start rest position positions stop after _ _ _ _ text _ inductionHypothesis =>
      rw [inductionHypothesis texts, List.length_cons, List.length_cons]
      omega
  | _ => cases texts

/-- One text lies between two positions in a row. -/
theorem length_texts
    {type : ColumnType}
    {positions : List Int}
    {characters : List UInt8}
    {read : List String}
    (texts : ColumnBuffers.texts type positions characters = .ok read) :
    read.length = positions.length - 1 := by
  unfold ColumnBuffers.texts at texts
  split at texts
  · cases texts
    rfl
  · dsimp only at texts
    repeat' split at texts
    case isFalse.isFalse.isFalse.isFalse.isFalse =>
      rw [length_textsAfter texts, List.length_nil, List.length_cons]
      omega
    all_goals cases texts

theorem length_unpackBits (bytes : List UInt8) :
    (Text.unpackBits bytes).length = bytes.length * 8 := by
  rw [Text.unpackBits, List.length_flatMap]
  simp

/-- A column has a value for every row, whatever the buffers hold. -/
theorem length_values
    {type : ColumnType}
    {rows : Nat}
    {buffers rest : List (List UInt8)}
    {cells : List Cell}
    (read : values type rows buffers = .ok (cells, rest)) :
    cells.length = rows := by
  unfold values at read
  split at read
  · split at read
    · cases read
    · cases read
      rw [List.length_map, numbers, length_numbersAfter, List.length_nil, Nat.zero_add]
  · split at read
    · cases read
    · next long =>
      cases read
      rw [List.length_map, List.length_take, length_unpackBits]
      unfold bitBytes at long
      omega
  · split at read
    · cases read
    · split at read
      · cases read
      · simp only [bind_eq_ok_iff, pure_eq_ok_iff, Prod.mk.injEq] at read
        obtain ⟨texts, found, rfl, rfl⟩ := read
        rw [List.length_map, length_texts found, List.length_map, numbers, length_numbersAfter,
          List.length_nil]
        omega
  · cases read

theorem length_column
    {type : ColumnType}
    {rows absent : Nat}
    {buffers rest : List (List UInt8)}
    {cells : List Cell}
    (read : column type rows absent buffers = .ok (cells, rest)) :
    cells.length = rows := by
  unfold column at read
  split at read
  · cases read
  · split at read
    · exact length_values read
    · split at read
      · cases read
      · next long =>
        simp only [bind_eq_ok_iff, pure_eq_ok_iff, Prod.mk.injEq] at read
        obtain ⟨⟨values, _⟩, found, rfl, _⟩ := read
        rw [List.length_map, List.length_zip, length_values found, length_unpackBits]
        unfold bitBytes at long
        omega

theorem length_columns
    {rows : Nat}
    {schema : Schema}
    {absent : List Nat}
    {buffers : List (List UInt8)}
    {read : List (List Cell)}
    (columns : ColumnBuffers.columns rows schema absent buffers = .ok read) :
    ∀ cells ∈ read, cells.length = rows := by
  induction schema generalizing absent buffers read with
  | nil =>
      cases columns
      exact fun _ member => absurd member List.not_mem_nil
  | cons field fields inductionHypothesis =>
      cases absent with
      | nil => cases columns
      | cons first others =>
          simp only [ColumnBuffers.columns, bind_eq_ok_iff, pure_eq_ok_iff] at columns
          obtain ⟨⟨cells, rest⟩, found, more, later, rfl⟩ := columns
          intro other member
          obtain rfl | there := List.mem_cons.mp member
          · exact length_column found
          · exact inductionHypothesis later other there

theorem length_rowsOf
    {count : Nat}
    {columns : List (List Cell)}
    (lengths : ∀ cells ∈ columns, cells.length = count) :
    (rowsOf count columns).length = count := by
  induction columns with
  | nil => exact List.length_replicate
  | cons cells columns inductionHypothesis =>
      have others := inductionHypothesis fun other member =>
        lengths other (List.mem_cons_of_mem cells member)
      unfold rowsOf at others ⊢
      rw [List.foldr_cons, List.length_zipWith, others, lengths cells List.mem_cons_self,
        Nat.min_self]

/-- Buffers are read as rows of their number, whatever the schema. -/
theorem length_read
    {stored : ColumnBuffers}
    {schema : Schema}
    {rows : List Row}
    (read : stored.read schema = .ok rows) :
    rows.length = stored.rows := by
  unfold ColumnBuffers.read at read
  cases found : columns stored.rows schema stored.absent stored.buffers with
  | error fault =>
      rw [found] at read
      cases read
  | ok columns =>
      rw [found] at read
      cases read
      exact length_rowsOf (length_columns found)

end ColumnBuffers

/-- What is read of a chunk under a schema: as many rows, and all of the chunk if it has the schema. -/
structure Chunk.Survives
    (schema : Schema)
    (chunk kept : Chunk) : Prop where
  length : kept.length = chunk.length
  same : chunk.schema = schema → kept = chunk

namespace Chunk

variable {schema : Schema}

theorem Survives.refl (chunk : Chunk) : Survives schema chunk chunk :=
  ⟨rfl, fun _ => rfl⟩

theorem Survives.trans
    {first second third : Chunk}
    (one : Survives schema first second)
    (another : Survives schema second third) :
    Survives schema first third where
  length := another.length.trans one.length
  same fits := (another.same ((one.same fits).symm ▸ fits)).trans (one.same fits)

theorem Survives.isEmpty_eq
    {chunk kept : Chunk}
    (survives : Survives schema chunk kept) :
    kept.isEmpty = chunk.isEmpty := by
  have length : kept.rows.length = chunk.rows.length := survives.length
  rw [Chunk.isEmpty, Chunk.isEmpty, Bool.eq_iff_iff, List.isEmpty_iff_length_eq_zero,
    List.isEmpty_iff_length_eq_zero, length]

theorem survive_refl (chunks : List Chunk) : List.Forall₂ (Survives schema) chunks chunks :=
  List.forall₂_same.mpr fun chunk _ => .refl chunk

theorem survive_trans
    {first second third : List Chunk}
    (one : List.Forall₂ (Survives schema) first second)
    (another : List.Forall₂ (Survives schema) second third) :
    List.Forall₂ (Survives schema) first third := by
  induction one generalizing third with
  | nil => exact another
  | cons survives _ inductionHypothesis =>
      obtain ⟨_, _, again, more, rfl⟩ := List.forall₂_cons_left_iff.mp another
      exact .cons (survives.trans again) (inductionHypothesis more)

/-- Chunks that survive one by one have as many rows in all. -/
theorem total_length_of_survives
    {chunks kept : List Chunk}
    (survive : List.Forall₂ (Survives schema) chunks kept) :
    total Chunk.length kept = total Chunk.length chunks := by
  induction survive with
  | nil => rfl
  | cons survives _ inductionHypothesis =>
      rw [total_cons, total_cons, survives.length, inductionHypothesis]

/-- Chunks of the schema survive as they are. -/
theorem eq_of_survives
    {chunks kept : List Chunk}
    (survive : List.Forall₂ (Survives schema) chunks kept)
    (fitting : ∀ chunk ∈ chunks, chunk.schema = schema) :
    kept = chunks := by
  induction survive with
  | nil => rfl
  | cons survives _ inductionHypothesis =>
      rw [survives.same (fitting _ List.mem_cons_self), inductionHypothesis fun other member =>
        fitting other (List.mem_cons_of_mem _ member)]

end Chunk

namespace Body

variable {schema : Schema}

theorem length_of_chunk
    {batch : Batch}
    {chunk : Chunk}
    (read : Batch.chunk schema batch = .ok chunk) :
    chunk.length = batch.rows.length := by
  simp only [Batch.chunk] at read
  split at read
  · rw [Chunk.length, (Chunk.eq_of_assemble read).2, List.length_map]
  · simp only [bind_eq_ok_iff, mapError_eq_ok_iff] at read
    obtain ⟨rows, found, assembled⟩ := read
    rw [Chunk.length, (Chunk.eq_of_assemble assembled).2, ColumnBuffers.length_read found]
    rfl

/-- What is read of the batch of a chunk is what is left of the chunk. -/
theorem survives_of_chunk
    {chunk kept : Chunk}
    (read : Batch.chunk schema (Batch.ofChunk chunk) = .ok kept) :
    Chunk.Survives schema chunk kept where
  length := length_of_chunk read
  same fits := by
    subst fits
    rw [chunk_ofChunk, Except.ok.injEq] at read
    exact read.symm

/-- What is read of a body under its schema is what is left of the chunks with rows. -/
theorem survive_of_decode
    {format : Format}
    {declaration : Declaration}
    {chunks kept : List Chunk}
    (decoded : decode format declaration (encode format declaration chunks) = .ok kept) :
    List.Forall₂ (Chunk.Survives declaration.schema) (chunks.filter (!·.isEmpty)) kept := by
  rw [decode_encode_eq declaration.same_self, mapError_eq_ok_iff] at decoded
  have pairs := forall₂_of_mapM decoded
  rw [List.forall₂_map_left_iff] at pairs
  exact pairs.imp fun _ _ => survives_of_chunk

end Body
end Spillway
