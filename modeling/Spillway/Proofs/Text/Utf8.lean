import Spillway.Text.Utf8

/-!
# Texts read back

The bytes of a character are read as that character, whatever follows them, so the bytes of a text
are read as the text. No other bytes are: what is read as a character is its bytes and what follows
them, so each text has one written form.
-/

namespace Spillway
namespace Text

/-- A code that is no surrogate is read as its own character. -/
theorem ofNat_toNat_eq
    {c : Char}
    {code : Nat}
    (same : code = c.toNat) :
    Char.ofNat code = c := by
  rw [same, Char.ofNat_toNat]

theorem toNat_of_lt
    {byte : Nat}
    (small : byte < 256) :
    byte.toUInt8.toNat = byte := by
  simp only [Nat.toUInt8_eq, UInt8.toNat_ofNat']
  omega

/-- A byte of the second quarter continues a character. -/
theorem isContinuation_of_bounds
    {byte : UInt8}
    (low : 0x80 ≤ byte.toNat)
    (high : byte.toNat < 0xC0) :
    isContinuation byte = true := by
  rw [isContinuation, decide_eq_true low, decide_eq_true high, Bool.and_self]

/-- The second byte of a character of three or four bytes is one that may follow the first. -/
theorem secondByteRange_spec
    {lead second : Nat}
    (low : 0x80 ≤ second)
    (high : second ≤ 0xBF)
    (long : lead = 0xE0 → 0xA0 ≤ second)
    (surrogate : lead = 0xED → second ≤ 0x9F)
    (longer : lead = 0xF0 → 0x90 ≤ second)
    (last : lead = 0xF4 → second ≤ 0x8F) :
    (secondByteRange lead).1 ≤ second ∧ second ≤ (secondByteRange lead).2 := by
  unfold secondByteRange
  split
  · next here => exact ⟨long here, high⟩
  · split
    · next here => exact ⟨low, surrogate here⟩
    · split
      · next here => exact ⟨longer here, high⟩
      · split
        · next here => exact ⟨low, last here⟩
        · exact ⟨low, high⟩

/-- A character is at most the last code point and no surrogate. -/
theorem code_bounds (c : Char) :
    c.toNat < 0xD800 ∨ (0xDFFF < c.toNat ∧ c.toNat < 0x110000) :=
  c.valid

/-- The bytes of a character are read as the character. -/
theorem decodeChar_utf8Char
    (c : Char)
    (rest : List UInt8) :
    ∃ first others, utf8Char c = first :: others ∧
      decodeChar first (others ++ rest) = .ok (c, rest) := by
  have bounds := code_bounds c
  unfold utf8Char
  simp only
  split
  · next small =>
    have lead : c.toNat.toUInt8.toNat = c.toNat := toNat_of_lt (by omega)
    refine ⟨_, [], rfl, ?_⟩
    simp only [decodeChar, lead, if_pos small, List.nil_append, Char.ofNat_toNat]
  · next large =>
    have tail : ∀ code, (0x80 + code % 0x40).toUInt8.toNat = 0x80 + code % 0x40 :=
      fun code => toNat_of_lt (by omega)
    have continues : ∀ code, isContinuation (0x80 + code % 0x40).toUInt8 = true := fun code =>
      isContinuation_of_bounds (by rw [tail]; omega) (by rw [tail]; omega)
    split
    · next small =>
      have lead : (0xC0 + c.toNat / 0x40).toUInt8.toNat = 0xC0 + c.toNat / 0x40 :=
        toNat_of_lt (by omega)
      refine ⟨_, [_], rfl, ?_⟩
      simp only [decodeChar, lead]
      rw [if_neg (by omega), if_neg (by omega), if_pos (by omega)]
      simp only [List.cons_append, List.nil_append, continues, if_true, payload, tail]
      exact congrArg (fun read => Except.ok (read, rest)) (ofNat_toNat_eq (by omega))
    · split
      · next small =>
        have lead : (0xE0 + c.toNat / 0x1000).toUInt8.toNat = 0xE0 + c.toNat / 0x1000 :=
          toNat_of_lt (by omega)
        have inside := @secondByteRange_spec (0xE0 + c.toNat / 0x1000) (0x80 + c.toNat / 0x40 % 0x40)
          (by omega) (by omega) (by omega) (by omega) (by omega) (by omega)
        refine ⟨_, [_, _], rfl, ?_⟩
        simp only [decodeChar, lead]
        rw [if_neg (by omega), if_neg (by omega), if_neg (by omega)]
        simp only [List.cons_append, List.nil_append, tail, inside, continues, and_self, not_true_eq_false,
          if_false, payload]
        rw [if_pos (by omega)]
        exact congrArg (fun read => Except.ok (read, rest)) (ofNat_toNat_eq (by omega))
      · have lead : (0xF0 + c.toNat / 0x40000).toUInt8.toNat = 0xF0 + c.toNat / 0x40000 :=
          toNat_of_lt (by omega)
        have inside := @secondByteRange_spec (0xF0 + c.toNat / 0x40000)
          (0x80 + c.toNat / 0x1000 % 0x40)
          (by omega) (by omega) (by omega) (by omega) (by omega) (by omega)
        refine ⟨_, [_, _, _], rfl, ?_⟩
        simp only [decodeChar, lead]
        rw [if_neg (by omega), if_neg (by omega), if_neg (by omega)]
        simp only [List.cons_append, List.nil_append, tail, inside, continues, and_self, not_true_eq_false,
          if_false, payload]
        rw [if_neg (by omega)]
        exact congrArg (fun read => Except.ok (read, rest)) (ofNat_toNat_eq (by omega))

/-- The bytes of a text are read as the text. -/
theorem decodeUtf8_encodeUtf8 (text : String) : decodeUtf8 (encodeUtf8 text) = .ok text := by
  have read : ∀ (characters done : List Char) (index : Nat),
      decodeUtf8From index done (characters.flatMap utf8Char) =
        .ok (done.reverse ++ characters) := by
    intro characters
    induction characters with
    | nil =>
        intro done index
        rw [List.flatMap_nil, decodeUtf8From, List.append_nil]
    | cons c characters inductionHypothesis =>
        intro done index
        obtain ⟨first, others, bytes, decoded⟩ :=
          decodeChar_utf8Char c (characters.flatMap utf8Char)
        rw [List.flatMap_cons, bytes, List.cons_append, decodeUtf8From]
        split
        · next failed =>
          rw [decoded] at failed
          cases failed
        · next succeeded =>
          rw [decoded] at succeeded
          cases succeeded
          rw [inductionHypothesis, List.reverse_cons, List.append_assoc, List.singleton_append]
  rw [decodeUtf8, encodeUtf8, read]
  simp [Except.map, String.ofList_toList]

/-! ## Bytes that are read -/

theorem toNat_ofNat_of_bounds
    {code : Nat}
    (bounds : code < 0xD800 ∨ (0xDFFF < code ∧ code < 0x110000)) :
    (Char.ofNat code).toNat = code := by
  have valid : code.isValidChar := bounds
  rw [Char.ofNat, dif_pos valid]
  rfl

theorem toUInt8_eq_of_toNat
    {code : Nat}
    {byte : UInt8}
    (same : code = byte.toNat) :
    code.toUInt8 = byte := by
  rw [same]
  simp

/-- A byte that continues a character is its payload with the mark of a continuation. -/
theorem toNat_of_isContinuation
    {byte : UInt8}
    (continues : isContinuation byte = true) :
    byte.toNat = 0x80 + payload byte ∧ payload byte < 0x40 := by
  simp only [isContinuation, Bool.and_eq_true, decide_eq_true_eq] at continues
  simp only [payload]
  omega

/-- What the second byte of a character of three or four bytes can be. -/
theorem bounds_of_secondByteRange
    {lead second : Nat}
    (inside : (secondByteRange lead).1 ≤ second ∧ second ≤ (secondByteRange lead).2) :
    0x80 ≤ second ∧ second ≤ 0xBF ∧ (lead = 0xE0 → 0xA0 ≤ second) ∧ (lead = 0xED → second ≤ 0x9F) ∧
      (lead = 0xF0 → 0x90 ≤ second) ∧ (lead = 0xF4 → second ≤ 0x8F) := by
  unfold secondByteRange at inside
  repeat' split at inside
  all_goals omega

theorem utf8Char_of_one
    {first : UInt8}
    (ascii : first.toNat < 0x80) :
    utf8Char (Char.ofNat first.toNat) = [first] := by
  simp only [utf8Char, @toNat_ofNat_of_bounds first.toNat (by omega), if_pos ascii,
    toUInt8_eq_of_toNat rfl]

theorem utf8Char_of_two
    {first second : UInt8}
    (low : 0xC2 ≤ first.toNat)
    (high : first.toNat < 0xE0)
    (continues : isContinuation second = true) :
    utf8Char (Char.ofNat (first.toNat % 0x20 * 0x40 + payload second)) = [first, second] := by
  obtain ⟨value, bound⟩ := toNat_of_isContinuation continues
  simp only [utf8Char]
  rw [toNat_ofNat_of_bounds (by omega)]
  rw [if_neg (by omega), if_pos (by omega), @toUInt8_eq_of_toNat _ first (by omega),
    @toUInt8_eq_of_toNat _ second (by omega)]

theorem utf8Char_of_three
    {first second third : UInt8}
    (low : 0xE0 ≤ first.toNat)
    (high : first.toNat < 0xF0)
    (inside : (secondByteRange first.toNat).1 ≤ second.toNat ∧
      second.toNat ≤ (secondByteRange first.toNat).2)
    (continues : isContinuation third = true) :
    utf8Char (Char.ofNat (first.toNat % 0x10 * 0x1000 + payload second * 0x40 + payload third)) =
      [first, second, third] := by
  obtain ⟨least, most, long, surrogate, _, _⟩ := bounds_of_secondByteRange inside
  obtain ⟨value, bound⟩ := toNat_of_isContinuation (isContinuation_of_bounds least (by omega))
  obtain ⟨thirdValue, thirdBound⟩ := toNat_of_isContinuation continues
  simp only [utf8Char]
  rw [toNat_ofNat_of_bounds (by omega)]
  rw [if_neg (by omega), if_neg (by omega), if_pos (by omega),
    @toUInt8_eq_of_toNat _ first (by omega), @toUInt8_eq_of_toNat _ second (by omega),
    @toUInt8_eq_of_toNat _ third (by omega)]

theorem utf8Char_of_four
    {first second third fourth : UInt8}
    (low : 0xF0 ≤ first.toNat)
    (high : first.toNat ≤ 0xF4)
    (inside : (secondByteRange first.toNat).1 ≤ second.toNat ∧
      second.toNat ≤ (secondByteRange first.toNat).2)
    (thirdContinues : isContinuation third = true)
    (fourthContinues : isContinuation fourth = true) :
    utf8Char (Char.ofNat (first.toNat % 0x08 * 0x40000 + payload second * 0x1000 +
      payload third * 0x40 + payload fourth)) = [first, second, third, fourth] := by
  obtain ⟨least, most, _, _, longer, last⟩ := bounds_of_secondByteRange inside
  obtain ⟨value, bound⟩ := toNat_of_isContinuation (isContinuation_of_bounds least (by omega))
  obtain ⟨thirdValue, thirdBound⟩ := toNat_of_isContinuation thirdContinues
  obtain ⟨fourthValue, fourthBound⟩ := toNat_of_isContinuation fourthContinues
  simp only [utf8Char]
  rw [toNat_ofNat_of_bounds (by omega)]
  rw [if_neg (by omega), if_neg (by omega), if_neg (by omega),
    @toUInt8_eq_of_toNat _ first (by omega), @toUInt8_eq_of_toNat _ second (by omega),
    @toUInt8_eq_of_toNat _ third (by omega), @toUInt8_eq_of_toNat _ fourth (by omega)]

/-- Bytes that are read as a character are the bytes of the character. -/
theorem utf8Char_of_decodeChar
    {first : UInt8}
    {rest left : List UInt8}
    {c : Char}
    (read : decodeChar first rest = .ok (c, left)) :
    first :: rest = utf8Char c ++ left := by
  -- Each case that is read takes as many bytes as its character has.
  simp only [decodeChar] at read
  repeat' split at read
  all_goals cases read
  · next ascii => rw [utf8Char_of_one ascii, List.singleton_append]
  · next lead high _ _ continues =>
      rw [utf8Char_of_two (by omega) high continues]
      rfl
  · next lead low _ _ inside _ _ continues high =>
      rw [utf8Char_of_three (by omega) high (Decidable.not_not.mp inside)
        (Decidable.not_not.mp continues)]
      rfl
  · next lead _ _ _ inside _ _ third low _ _ fourth =>
      rw [utf8Char_of_four (by omega) (by omega) (Decidable.not_not.mp inside)
        (Decidable.not_not.mp third) (Decidable.not_not.mp fourth)]
      rfl

/-- Bytes that are read as characters are their bytes, one character after the other. -/
theorem flatMap_of_decodeUtf8From
    {index : Nat}
    {done characters : List Char}
    {bytes : List UInt8}
    (read : decodeUtf8From index done bytes = .ok characters) :
    ∃ more, characters = done.reverse ++ more ∧ bytes = more.flatMap utf8Char := by
  fun_induction decodeUtf8From index done bytes with
  | case1 index done =>
      cases read
      exact ⟨[], (List.append_nil _).symm, rfl⟩
  | case2 => cases read
  | case3 index done first rest c left one inductionHypothesis =>
      obtain ⟨more, rfl, rfl⟩ := inductionHypothesis read
      refine ⟨c :: more, ?_, ?_⟩
      · rw [List.reverse_cons, List.append_assoc, List.singleton_append]
      · rw [List.flatMap_cons, utf8Char_of_decodeChar one]

/-- Bytes are read as a text exactly when they are the bytes of the text. -/
theorem decodeUtf8_eq_ok_iff
    {bytes : List UInt8}
    {text : String} :
    decodeUtf8 bytes = .ok text ↔ encodeUtf8 text = bytes := by
  constructor
  · intro read
    cases decoded : decodeUtf8From 0 [] bytes with
    | error fault =>
        rw [decodeUtf8, decoded] at read
        cases read
    | ok characters =>
        rw [decodeUtf8, decoded] at read
        cases read
        obtain ⟨more, same, rfl⟩ := flatMap_of_decodeUtf8From decoded
        rw [encodeUtf8, String.toList_ofList, same, List.reverse_nil, List.nil_append]
  · rintro rfl
    exact decodeUtf8_encodeUtf8 text

end Text
end Spillway
