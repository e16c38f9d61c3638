import Mathlib.Algebra.Group.Nat.Defs
import Spillway.Filter.Wire
import Spillway.Proofs.Filter.KeyFilter
import Spillway.Proofs.Text.Utf8

/-!
# Filters read back

Bytes that were written for a filter are read as that filter or as none at all: a text may be too long
for its length to be written, but then bytes are left over. The directory of a membership filter is
read back word by word.
-/

namespace Spillway
namespace Wire

variable {α β : Type}

/-- The reader yields the value and leaves the rest of the bytes. -/
def Yields
    (read : Reader α)
    (bytes : List UInt8)
    (value : α)
    (left : List UInt8) : Prop :=
  read bytes = .ok (value, left)

@[simp] theorem yields_bind
    {first : Reader α}
    {next : α → Reader β}
    {bytes left : List UInt8}
    {value : β} :
    Yields (first >>= next) bytes value left ↔
      ∃ middle between, Yields first bytes middle between ∧ Yields (next middle) between value left := by
  show (first bytes >>= fun read => next read.1 read.2) = .ok (value, left) ↔ _
  simp [Yields]

@[simp] theorem yields_pure
    {value result : α}
    {bytes left : List UInt8} :
    Yields (pure value) bytes result left ↔ value = result ∧ bytes = left := by
  show Except.ok (value, bytes) = .ok (result, left) ↔ _
  simp

@[simp] theorem yields_throw
    {fault : Fault}
    {value : α}
    {bytes left : List UInt8} :
    ¬ Yields (throw fault) bytes value left := by
  show ¬ Except.error fault = .ok (value, left)
  simp

@[simp] theorem yields_get
    {bytes value left : List UInt8} :
    Yields get bytes value left ↔ bytes = value ∧ bytes = left := by
  show Except.ok (bytes, bytes) = .ok (value, left) ↔ _
  simp

@[simp] theorem yields_set
    {bytes next left : List UInt8}
    {value : PUnit} :
    Yields (set next) bytes value left ↔ next = left := by
  show Except.ok (PUnit.unit, next) = .ok (value, left) ↔ _
  simp

@[simp] theorem yields_take
    {count : Nat}
    {bytes left taken : List UInt8} :
    Yields (take count) bytes taken left ↔
      count ≤ bytes.length ∧ bytes.take count = taken ∧ bytes.drop count = left := by
  simp only [take, yields_bind, yields_get]
  constructor
  · rintro ⟨_, _, ⟨rfl, rfl⟩, read⟩
    split at read
    · simp at read
    · next enough =>
      simp only [yields_bind, yields_set, yields_pure] at read
      obtain ⟨_, _, rfl, rfl, rfl⟩ := read
      exact ⟨Nat.not_lt.mp enough, rfl, rfl⟩
  · rintro ⟨enough, rfl, rfl⟩
    refine ⟨_, _, ⟨rfl, rfl⟩, ?_⟩
    rw [if_neg (Nat.not_lt.mpr enough)]
    exact yields_bind.mpr ⟨⟨⟩, _, yields_set.mpr rfl, yields_pure.mpr ⟨rfl, rfl⟩⟩

@[simp] theorem yields_number
    {width value : Nat}
    {bytes left : List UInt8} :
    Yields (number width) bytes value left ↔
      width ≤ bytes.length ∧ Text.ofLittleEndian (bytes.take width) = value ∧
        bytes.drop width = left := by
  simp only [number, yields_bind, yields_take, yields_pure]
  constructor
  · rintro ⟨_, _, ⟨enough, rfl, rfl⟩, rfl, rfl⟩
    exact ⟨enough, rfl, rfl⟩
  · rintro ⟨enough, rfl, rfl⟩
    exact ⟨_, _, ⟨enough, rfl, rfl⟩, rfl, rfl⟩

/-- A number that was written is read back, as far as its bytes go. -/
theorem number_of_littleEndian
    {width value found : Nat}
    {rest left : List UInt8}
    (read : Yields (number width) (Text.littleEndian width value ++ rest) found left) :
    found = value % 1 <<< (8 * width) ∧ left = rest := by
  rw [yields_number] at read
  obtain ⟨_, rfl, rfl⟩ := read
  rw [List.take_left' (Text.length_littleEndian width value),
    List.drop_left' (Text.length_littleEndian width value), Text.ofLittleEndian_littleEndian]
  exact ⟨rfl, rfl⟩

theorem byte_of_cons
    {byte : UInt8}
    {found : Nat}
    {rest left : List UInt8}
    (read : Yields (number 1) (byte :: rest) found left) :
    found = byte.toNat ∧ left = rest := by
  rw [yields_number] at read
  obtain ⟨_, rfl, rfl⟩ := read
  exact ⟨rfl, rfl⟩

/-- Making a text of bytes reads no more of them. -/
theorem left_of_text
    {taken between left : List UInt8}
    {found : Key}
    (read : Yields (match Text.decodeUtf8 taken with
      | .ok text => pure (.text text)
      | .error cause => throw (.keyText cause)) between found left) :
    between = left := by
  split at read
  · exact (yields_pure.mp read).2
  · exact absurd read yields_throw

/-- A key that was written is read back, unless its text is too long. Then more bytes are left over
than any text takes up. -/
theorem key_of_writeKey
    {key found : Key}
    {rest left : List UInt8}
    (read : Yields readKey (writeKey key ++ rest) found left) :
    (found = key ∧ left = rest) ∨ rest.length + 2 ^ 32 ≤ left.length := by
  cases key with
  | int value =>
      simp only [readKey, writeKey, List.cons_append, yields_bind] at read
      obtain ⟨_, _, tagged, read⟩ := read
      obtain ⟨rfl, rfl⟩ := byte_of_cons tagged
      simp only [UInt8.toNat_zero, if_true, yields_bind, yields_pure] at read
      obtain ⟨_, _, number, rfl, rfl⟩ := read
      obtain ⟨rfl, rfl⟩ := number_of_littleEndian number
      have small := value.toUInt64.toNat_lt
      refine .inl ⟨?_, rfl⟩
      rw [Nat.mod_eq_of_lt (show _ < 1 <<< (8 * 8) from small)]
      simp
  | text value =>
      simp only [readKey, writeKey, List.cons_append, List.append_assoc, yields_bind] at read
      obtain ⟨_, _, tagged, read⟩ := read
      obtain ⟨rfl, rfl⟩ := byte_of_cons tagged
      simp only [UInt8.toNat_one, Nat.one_ne_zero, if_false, if_true, yields_bind] at read
      obtain ⟨_, _, number, taken, between, bytes, read⟩ := read
      obtain ⟨rfl, rfl⟩ := number_of_littleEndian number
      obtain ⟨_, rfl, rfl⟩ := yields_take.mp bytes
      by_cases short : (Text.encodeUtf8 value).length < 2 ^ 32
      · rw [Nat.mod_eq_of_lt (show _ < 1 <<< (8 * 4) from short), List.take_left, List.drop_left,
          Text.decodeUtf8_encodeUtf8] at read
        simp only [yields_pure] at read
        exact .inl ⟨read.1.symm, read.2.symm⟩
      · right
        rw [← left_of_text read, List.length_drop, List.length_append, show 1 <<< (8 * 4) = 2 ^ 32 from rfl]
        omega

/-- Reading a key takes up no more than its tag, the length of a text and the longest text. -/
theorem length_of_readKey
    {found : Key}
    {bytes left : List UInt8}
    (read : Yields readKey bytes found left) :
    bytes.length < left.length + 2 ^ 32 + 5 := by
  simp only [readKey, yields_bind, yields_number] at read
  obtain ⟨tag, _, ⟨_, rfl, rfl⟩, read⟩ := read
  split at read
  · simp only [yields_bind, yields_number, yields_pure] at read
    obtain ⟨_, _, ⟨_, rfl, rfl⟩, _, rfl⟩ := read
    simp only [List.length_drop]
    omega
  · split at read
    · simp only [yields_bind, yields_number, yields_take] at read
      obtain ⟨_, _, ⟨enough, rfl, rfl⟩, _, _, ⟨_, rfl, rfl⟩, read⟩ := read
      have bounded := Text.ofLittleEndian_lt ((bytes.drop 1).take 4)
      rw [List.length_take_of_le enough, show 1 <<< (8 * 4) = 2 ^ 32 from rfl] at bounded
      rw [← left_of_text read]
      simp only [List.length_drop]
      omega
    · exact absurd read yields_throw

/-! ## Directories -/

/-- The words of a directory are read back at their positions. -/
theorem wordAt_flatMap
    {words : List UInt32}
    {index : Nat}
    (inside : index < words.length) :
    wordAt (words.flatMap fun word => Text.littleEndian 4 word.toNat).toArray (4 * index) =
      words[index] := by
  induction words generalizing index with
  | nil => exact absurd inside (Nat.not_lt_zero _)
  | cons word words inductionHypothesis =>
      cases index with
      | zero =>
          have value := Text.ofLittleEndian_littleEndian 4 word.toNat
          rw [Nat.mod_eq_of_lt (show _ < 1 <<< (8 * 4) from word.toNat_lt)] at value
          have bytes : wordAt ((word :: words).flatMap fun word =>
              Text.littleEndian 4 word.toNat).toArray 0 =
              (Text.ofLittleEndian (Text.littleEndian 4 word.toNat)).toUInt32 := rfl
          rw [Nat.mul_zero, bytes, value]
          simp
      | succ index =>
          have shifted : ∀ offset, ((word :: words).flatMap fun word =>
              Text.littleEndian 4 word.toNat).toArray.getD (4 * (index + 1) + offset) 0 =
              (words.flatMap fun word =>
                Text.littleEndian 4 word.toNat).toArray.getD (4 * index + offset) 0 := by
            intro offset
            have width : (Text.littleEndian 4 word.toNat).length = 4 := Text.length_littleEndian _ _
            simp only [List.flatMap_cons, Array.getD_eq_getD_getElem?, List.getElem?_toArray]
            rw [List.getElem?_append_right (by omega), width,
              show 4 * (index + 1) + offset - 4 = 4 * index + offset by omega]
          have rest := inductionHypothesis (Nat.lt_of_succ_lt_succ inside)
          rw [List.getElem_cons_succ, ← rest]
          simp only [wordAt]
          have first := shifted 0
          simp only [Nat.add_zero] at first
          rw [first, shifted 1, shifted 2, shifted 3]

/-- A directory is read only if the number of its words could be written. -/
theorem words_lt_of_read
    {logBuckets found : Nat}
    (same : (8 * Bloom.bucketCount logBuckets) % 1 <<< (8 * 4) = 8 * Bloom.bucketCount found) :
    8 * Bloom.bucketCount logBuckets < 2 ^ 32 := by
  simp only [Bloom.bucketCount, Nat.one_shiftLeft, show 2 ^ (8 * 4) = 8 * 2 ^ 29 from rfl] at same
  rw [Bloom.bucketCount, Nat.one_shiftLeft]
  obtain narrow | wide := Nat.lt_or_ge logBuckets 29
  · have bounded := Nat.pow_le_pow_right (show 0 < 2 by decide) (Nat.le_of_lt_succ narrow)
    omega
  · obtain ⟨more, rfl⟩ := Nat.exists_eq_add_of_le wide
    rw [Nat.pow_add, ← Nat.mul_assoc, Nat.mul_mod_right] at same
    have positive := Nat.two_pow_pos found
    omega

/-- A directory that was written is read back. -/
theorem bloom_of_writeBloom
    {bloom found : Bloom}
    {rest left : List UInt8}
    (read : Yields readBloom (writeBloom bloom ++ rest) found left) :
    found = bloom ∧ left = rest := by
  have sizes := bloom.size_words
  simp only [readBloom, writeBloom, List.append_assoc, yields_bind] at read
  obtain ⟨_, _, first, _, _, second, _, _, third, read⟩ := read
  obtain ⟨rfl, rfl⟩ := number_of_littleEndian first
  obtain ⟨rfl, rfl⟩ := number_of_littleEndian second
  obtain ⟨rfl, rfl⟩ := number_of_littleEndian third
  split at read
  · exact absurd read (by simp)
  · split at read
    · exact absurd read (by simp)
    · next same =>
      have count := words_lt_of_read (sizes ▸ not_not.mp same)
      have width : bloom.logBuckets < 2 ^ bloom.logBuckets := Nat.lt_two_pow_self
      have buckets : Bloom.bucketCount bloom.logBuckets = 2 ^ bloom.logBuckets := Nat.one_shiftLeft _
      have small : ∀ value, value < 2 ^ 32 → value % 1 <<< (8 * 4) = value :=
        fun value bounded => Nat.mod_eq_of_lt bounded
      rw [small _ (by omega), small _ (by omega), small _ (by omega)] at read
      split at read
      · exact absurd read (by simp)
      · simp only [yields_bind, yields_take, yields_pure] at read
        obtain ⟨_, _, ⟨_, rfl, rfl⟩, rfl, rfl⟩ := read
        have length : (bloom.words.toList.flatMap fun word =>
            Text.littleEndian 4 word.toNat).length = 4 * bloom.words.size := by
          simp [List.length_flatMap, Nat.mul_comm]
        rw [List.take_left' length, List.drop_left' length]
        refine ⟨Bloom.ext rfl (Array.ext ?_ fun index here there => ?_), rfl⟩
        · rw [(bloomOfBytes _ _).size_words, sizes]
          rfl
        · simp only [bloomOfBytes, Array.getElem_ofFn]
          exact @wordAt_flatMap bloom.words.toList index there

/-! ## Filters -/

theorem one_le_length_writeKey (key : Key) : 5 ≤ (writeKey key).length := by
  cases key with
  | int value => simp [writeKey]
  | text value => simp only [writeKey, List.length_cons, List.length_append,
      Text.length_littleEndian]; omega

/-- A range that was written is read back, or bytes are left over. -/
theorem range_of_writeRange
    {range found : KeyRange}
    {left : List UInt8}
    (read : Yields readRange (writeRange range) found left) :
    found = range ∨ left ≠ [] := by
  cases range with
  | empty =>
      simp only [readRange, writeRange, KeyRange.bounds, yields_bind] at read
      obtain ⟨_, _, flag, read⟩ := read
      obtain ⟨rfl, rfl⟩ := byte_of_cons flag
      simp only [UInt8.toNat_zero, if_true, yields_pure] at read
      exact .inl read.1.symm
  | between low high sameClass ordered =>
      simp only [readRange, writeRange, KeyRange.bounds, yields_bind] at read
      obtain ⟨_, _, flag, read⟩ := read
      obtain ⟨rfl, rfl⟩ := byte_of_cons flag
      simp only [UInt8.toNat_one, Nat.one_ne_zero, if_false, if_true, yields_bind] at read
      obtain ⟨first, _, readLow, last, rest, readHigh, read⟩ := read
      have same : rest = left := by
        split at read
        · exact (yields_pure.mp read).2
        · exact absurd read yields_throw
      subst same
      have nonempty : 0 < rest.length → rest ≠ [] := List.ne_nil_of_length_pos
      obtain ⟨rfl, rfl⟩ | long := key_of_writeKey readLow
      · rw [← List.append_nil (writeKey high)] at readHigh
        obtain ⟨rfl, rfl⟩ | long := key_of_writeKey readHigh
        · left
          rw [KeyRange.ofBounds, dif_pos sameClass, dif_pos ordered, yields_pure] at read
          exact read.1.symm
        · right
          exact nonempty (by omega)
      · right
        have short := length_of_readKey readHigh
        have some := one_le_length_writeKey high
        exact nonempty (by omega)

/-- Reading a filter reads its version and its kind first. -/
theorem yields_readFilter
    {found : KeyFilter}
    {kind : UInt8}
    {bytes left : List UInt8}
    (read : Yields readFilter (version :: kind :: bytes) found left) :
    Yields (if kind.toNat = 0 then do return .membership (← readBloom)
      else if kind.toNat = 1 then do return .range (← readRange)
      else throw (.kind kind.toNat)) bytes found left := by
  simp only [readFilter, yields_bind] at read
  obtain ⟨_, _, tag, read⟩ := read
  obtain ⟨rfl, rfl⟩ := byte_of_cons tag
  rw [if_neg (fun different => different rfl), yields_bind] at read
  obtain ⟨_, _, next, read⟩ := read
  obtain ⟨rfl, rfl⟩ := byte_of_cons next
  exact read

/-- Bytes that were written for a filter are read as the filter or as none. -/
theorem eq_of_decode_encode
    {filter found : KeyFilter}
    (decoded : decode (encode filter) = .ok found) :
    found = filter := by
  simp only [decode, bind_eq_ok_iff] at decoded
  obtain ⟨⟨value, left⟩, read, decoded⟩ := decoded
  split at decoded
  · next empty =>
    rw [pure_eq_ok_iff] at decoded
    subst decoded
    have nothing : left = [] := List.isEmpty_iff.mp empty
    cases filter with
    | membership bloom =>
        have read := yields_readFilter read
        simp only [UInt8.toNat_zero, if_true, yields_bind, yields_pure] at read
        obtain ⟨_, _, body, rfl, rfl⟩ := read
        rw [← List.append_nil (writeBloom bloom)] at body
        rw [(bloom_of_writeBloom body).1]
    | range range =>
        have read := yields_readFilter read
        simp only [UInt8.toNat_one, Nat.one_ne_zero, if_false, if_true, yields_bind, yields_pure]
          at read
        obtain ⟨_, _, body, rfl, rfl⟩ := read
        rw [(range_of_writeRange body).resolve_right (not_not.mpr nothing)]
  · exact absurd decoded throw_ne_ok

end Wire
end Spillway
