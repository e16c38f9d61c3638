import Mathlib.Data.List.Basic
import Spillway.Spill.Spiller

/-!
# The layout of block headers

The fields of a header fill its forty bytes without gaps, and the reader looks for every field where the
writer puts it. So it accepts exactly the byte strings that start with a written header, whatever bytes
follow, and reads each of them as that header. All other byte strings are failures of the storage.
-/

namespace Spillway

namespace BlockHeader

variable {header : BlockHeader} {bytes : List UInt8} {position width : Nat}

/-- The number of a field, written again, gives the bytes of the field. -/
theorem littleEndian_field (inside : position + width ≤ bytes.length) :
    Text.littleEndian width (field bytes position width) = (bytes.drop position).take width := by
  have length : ((bytes.drop position).take width).length = width := by
    rw [List.length_take, List.length_drop]
    omega
  have written := Text.littleEndian_ofLittleEndian ((bytes.drop position).take width)
  rwa [length] at written

theorem field_lt
    (bytes : List UInt8)
    (position width : Nat) :
    field bytes position width < 1 <<< (8 * width) := by
  have bound := Text.ofLittleEndian_lt ((bytes.drop position).take width)
  have short : ((bytes.drop position).take width).length ≤ width := List.length_take_le ..
  refine Nat.lt_of_lt_of_le bound ?_
  rw [Nat.one_shiftLeft, Nat.one_shiftLeft]
  exact Nat.pow_le_pow_right (by decide) (Nat.mul_le_mul_left 8 short)

/-- The first forty bytes are the four letters and the eight fields after them. -/
theorem take_size (long : size ≤ bytes.length) :
    bytes.take size =
      bytes.take 4 ++ Text.littleEndian 2 (field bytes 4 2) ++ Text.littleEndian 2 (field bytes 6 2) ++
        Text.littleEndian 1 (field bytes 8 1) ++ Text.littleEndian 3 (field bytes 9 3) ++
        Text.littleEndian 4 (field bytes 12 4) ++ Text.littleEndian 8 (field bytes 16 8) ++
        Text.littleEndian 8 (field bytes 24 8) ++ Text.littleEndian 8 (field bytes 32 8) := by
  unfold size at long ⊢
  have inside : ∀ position width, position + width ≤ 40 →
      Text.littleEndian width (field bytes position width) = (bytes.drop position).take width :=
    fun _ _ below => littleEndian_field (Nat.le_trans below long)
  rw [inside 4 2 (by decide), inside 6 2 (by decide), inside 8 1 (by decide), inside 9 3 (by decide),
    inside 12 4 (by decide), inside 16 8 (by decide), inside 24 8 (by decide),
    inside 32 8 (by decide)]
  simp only [← List.take_add]

/-- What is written is a field as well where it stands for no number: the tag, and the reserved zeros. -/
theorem encode_eq (header : BlockHeader) :
    header.encode =
      magic ++ Text.littleEndian 2 version ++ Text.littleEndian 2 size ++
        Text.littleEndian 1 header.compression.tag.toNat ++ Text.littleEndian 3 0 ++
        Text.littleEndian 4 header.batches.toNat ++ Text.littleEndian 8 header.rows.toNat ++
        Text.littleEndian 8 header.bodyLength.toNat ++ Text.littleEndian 8 header.schemaHash.toNat := by
  have tag : Text.littleEndian 1 header.compression.tag.toNat ++ Text.littleEndian 3 0 =
      [header.compression.tag, 0, 0, 0] := by
    simp [Text.littleEndian]
  rw [List.append_assoc _ (Text.littleEndian 1 _), tag]
  rfl

/-- A header is read back, whatever bytes follow it. -/
theorem decode_encode
    (header : BlockHeader)
    (rest : List UInt8) :
    decode (header.encode ++ rest) = .ok header := by
  obtain ⟨compression, batches, rows, bodyLength, schemaHash⟩ := header
  have number : ∀ width value, value < 1 <<< (8 * width) →
      Text.ofLittleEndian (Text.littleEndian width value) = value := by
    intro width value small
    rw [Text.ofLittleEndian_littleEndian, Nat.mod_eq_of_lt small]
  have batchesRead := number 4 batches.toNat batches.toNat_lt
  have rowsRead := number 8 rows.toNat rows.toNat_lt
  have bodyLengthRead := number 8 bodyLength.toNat bodyLength.toNat_lt
  have schemaHashRead := number 8 schemaHash.toNat schemaHash.toNat_lt
  simp only [Text.littleEndian] at batchesRead rowsRead bodyLengthRead schemaHashRead
  have tagRead : (Text.ofLittleEndian [compression.tag]).toUInt8 = compression.tag := by
    simp [Text.ofLittleEndian]
  rw [decode, if_neg (by simp)]
  simp only [encode, magic, Text.littleEndian, List.cons_append, List.nil_append, field,
    List.drop_succ_cons, List.drop_zero, List.take_succ_cons, List.take_zero, tagRead,
    Compression.ofTag_tag, batchesRead, rowsRead, bodyLengthRead, schemaHashRead]
  simp [Text.ofLittleEndian, version, size]

/-- Bytes that are read as a header start with the bytes written for it. -/
theorem take_size_of_decode (decoded : decode bytes = .ok header) :
    size ≤ bytes.length ∧ bytes.take size = header.encode := by
  simp only [decode, ite_eq_iff, reduceCtorEq, and_false, false_or, Nat.not_lt, not_not, ne_eq]
    at decoded
  obtain ⟨long, letters, ofVersion, ofLength, decoded⟩ := decoded
  refine ⟨long, ?_⟩
  split at decoded
  case h_1 => cases decoded
  case h_2 compression named =>
    simp only [ite_eq_iff, reduceCtorEq, and_false, false_or, not_not] at decoded
    obtain ⟨reserved, read⟩ := decoded
    cases read
    have tag : compression.tag.toNat = field bytes 8 1 := by
      rw [Compression.tag_of_ofTag named]
      exact Nat.mod_eq_of_lt (field_lt bytes 8 1)
    have batches : (field bytes 12 4).toUInt32.toNat = field bytes 12 4 :=
      Nat.mod_eq_of_lt (field_lt bytes 12 4)
    have counts : ∀ position, (field bytes position 8).toUInt64.toNat = field bytes position 8 :=
      fun position => Nat.mod_eq_of_lt (field_lt bytes position 8)
    rw [take_size long, encode_eq, letters, ofVersion, ofLength, reserved]
    simp only [tag, batches, counts]

/-- A byte string is read as a header exactly if it starts with the bytes written for it. -/
theorem decode_eq_ok_iff :
    decode bytes = .ok header ↔ size ≤ bytes.length ∧ bytes.take size = header.encode := by
  refine ⟨take_size_of_decode, fun ⟨_, written⟩ => ?_⟩
  rw [← List.take_append_drop size bytes, written]
  exact decode_encode header _

/-- The layout of headers leaves nothing open. Every header is read back from its bytes, whatever comes
after them. A byte string is read as a header exactly if it is long enough and starts with the bytes
of that header. All others are failures of the storage. -/
structure Canonical : Prop where
  restores : ∀ (header : BlockHeader) rest, decode (header.encode ++ rest) = .ok header
  accepts : ∀ bytes header,
    decode bytes = .ok header ↔ size ≤ bytes.length ∧ bytes.take size = header.encode
  refuses : ∀ bytes, (∀ header : BlockHeader, ¬ (size ≤ bytes.length ∧ bytes.take size = header.encode)) →
    ∃ fault, decode bytes = .error fault ∧ (BlockFault.badHeader fault).status.code = .storage

/-- Headers and the byte strings of their length that are read correspond one to one. -/
theorem canonical_layout : Canonical where
  restores := decode_encode
  accepts _ _ := decode_eq_ok_iff
  refuses bytes foreign := by
    cases decoded : decode bytes with
    | ok header => exact absurd (take_size_of_decode decoded) (foreign header)
    | error fault => exact ⟨fault, rfl, rfl⟩

end BlockHeader
end Spillway
