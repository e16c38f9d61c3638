import Spillway.Proofs.Data.Chunk
import Spillway.Spill.Body

/-!
# Reading block bodies back

A body is read under every declaration with the fields it was written for, batch by batch, and under no
other one. So chunks with these fields are read as they were written, in order, as far as they have rows.
That holds of every format: of the bytes it is only used that the fields and the batches of a stream can
be read.
-/

namespace Spillway
namespace Body

variable {format : Format} {declaration asked : Declaration} {chunks : List Chunk}

/-- The batch of a chunk gives the chunk under its own schema. -/
theorem chunk_ofChunk (chunk : Chunk) :
    Batch.chunk chunk.schema (Batch.ofChunk chunk) = .ok chunk := by
  have rows := chunk.take_rows
  rw [← List.length_map Field.type] at rows
  have same : (chunk.schema.map Field.type).isPrefixOf (chunk.schema.map Field.type) = true :=
    List.isPrefixOf_iff_prefix.mpr (List.prefix_refl _)
  simp only [Batch.chunk, Batch.ofChunk, same, if_true, rows]
  exact Chunk.assemble_of_fits chunk.fits

/-- Whatever batch it is made of, a chunk read under a schema has that schema. -/
theorem schema_of_chunk
    {schema : Schema}
    {batch : Batch}
    {chunk : Chunk}
    (read : Batch.chunk schema batch = .ok chunk) :
    chunk.schema = schema := by
  simp only [Batch.chunk] at read
  split at read
  · exact (Chunk.eq_of_assemble read).1
  · obtain ⟨rows, _, assembled⟩ := bind_eq_ok_iff.mp read
    exact (Chunk.eq_of_assemble assembled).1

theorem mapM_chunk_ofChunk
    {schema : Schema}
    {chunks : List Chunk}
    (fitting : ∀ chunk ∈ chunks, chunk.schema = schema) :
    (chunks.map Batch.ofChunk).mapM (Batch.chunk schema) = .ok chunks := by
  induction chunks with
  | nil => rfl
  | cons chunk chunks inductionHypothesis =>
      have first : Batch.chunk schema (Batch.ofChunk chunk) = .ok chunk := by
        rw [← fitting chunk List.mem_cons_self]
        exact chunk_ofChunk chunk
      have others := inductionHypothesis fun other member =>
        fitting other (List.mem_cons_of_mem chunk member)
      rw [List.map_cons, List.mapM_cons, first, others]
      rfl

/-- The stream of a body has the fields and the batches that were written. -/
theorem read_encode
    (format : Format)
    (declaration : Declaration)
    (chunks : List Chunk) :
    ∃ found, format.read (encode format declaration chunks) =
      some (found, some ((chunks.filter (!·.isEmpty)).map Batch.ofChunk)) ∧
      found.same declaration = true := by
  refine format.read_write declaration _ fun batch member => ?_
  obtain ⟨chunk, _, rfl⟩ := List.mem_map.mp member
  intro row inside
  rw [Batch.ofChunk, List.length_map]
  exact Schema.length_of_admits (chunk.fits row inside)

/-- A body is read under no declaration with other fields than it was written for, whatever chunks it
holds. -/
theorem exists_decode_of_not_same
    (format : Format)
    (different : declaration.same asked = false)
    (chunks : List Chunk) :
    ∃ found,
      decode format asked (encode format declaration chunks) = .error (.otherSchema found asked) := by
  obtain ⟨found, read, same⟩ := read_encode format declaration chunks
  refine ⟨found, ?_⟩
  rw [decode, read]
  exact if_neg (by rw [Declaration.same_congr same, different]; decide)

/-- A body is read batch by batch under the fields that it was written for. -/
theorem decode_encode_eq
    (same : declaration.same asked = true)
    (chunks : List Chunk) :
    decode format asked (encode format declaration chunks) =
      (((chunks.filter (!·.isEmpty)).map Batch.ofChunk).mapM
        (Batch.chunk declaration.schema)).mapError .column := by
  obtain ⟨found, read, agrees⟩ := read_encode format declaration chunks
  rw [decode, read, (Declaration.same_iff.mp same).1]
  exact if_pos (Declaration.same_trans agrees same)

/-- How a body is read depends on the fields only. -/
theorem decode_congr
    (same : declaration.same asked = true)
    (chunks : List Chunk) :
    decode format asked (encode format declaration chunks) =
      decode format declaration (encode format declaration chunks) :=
  (decode_encode_eq same chunks).trans (decode_encode_eq declaration.same_self chunks).symm

/-- The chunks that have rows are read back as they were written. -/
def ReadsBack
    (format : Format)
    (declaration : Declaration)
    (chunks : List Chunk) : Prop :=
  decode format declaration (encode format declaration chunks) = .ok (chunks.filter (!·.isEmpty))

/-- They are read so under all declarations with the same fields. -/
theorem ReadsBack.decode
    (reads : ReadsBack format declaration chunks)
    (same : declaration.same asked = true) :
    decode format asked (encode format declaration chunks) = .ok (chunks.filter (!·.isEmpty)) :=
  (decode_congr same chunks).trans reads

/-- Chunks of the schema that a body is written for are read back. -/
theorem readsBack_of_fitting (fitting : ∀ chunk ∈ chunks, chunk.schema = declaration.schema) :
    ReadsBack format declaration chunks := by
  have kept : ∀ chunk ∈ chunks.filter (!·.isEmpty), chunk.schema = declaration.schema :=
    fun chunk member => fitting chunk (List.mem_of_mem_filter member)
  rw [ReadsBack, decode_encode_eq declaration.same_self, mapM_chunk_ofChunk kept]
  rfl

/-- Chunks read under a declaration have its schema. -/
theorem schema_of_decode
    {bytes : List UInt8}
    (decoded : decode format declaration bytes = .ok chunks) :
    ∀ chunk ∈ chunks, chunk.schema = declaration.schema := by
  unfold decode at decoded
  split at decoded
  · simp at decoded
  · split at decoded
    · split at decoded
      · rw [mapError_eq_ok_iff] at decoded
        have pairs := forall₂_of_mapM decoded
        intro chunk member
        obtain ⟨batch, _, read⟩ := exists_left_of_forall₂ pairs member
        exact schema_of_chunk read
      · simp at decoded
    · simp at decoded

end Body
end Spillway
