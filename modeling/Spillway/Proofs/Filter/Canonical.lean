import Spillway.Proofs.Filter.Bloom
import Spillway.Proofs.Filter.Merging
import Spillway.Proofs.Filter.Wire
import Spillway.Proofs.Text.Utf8

/-!
# One written form for each filter

Every piece of the format is read exactly from the bytes that are written for it, so a whole byte string
is read exactly if it was written for a well-formed filter. What the reader finds depends on the bytes
that are there: a fault is found in them or is that too few of them are left, and each word of a
directory stands at its place. So hashes that are added to or looked up in a directory that came over
the wire, and directories that are merged into it, stay inside its words.
-/

namespace Spillway
namespace Wire

variable {α β : Type}

/-! ## Pieces that are read exactly -/

/-- Bytes are taken off the front, exactly so many. -/
theorem yields_take_iff
    {count : Nat}
    {bytes left taken : List UInt8} :
    Yields (take count) bytes taken left ↔ taken.length = count ∧ bytes = taken ++ left := by
  rw [yields_take]
  constructor
  · rintro ⟨enough, rfl, rfl⟩
    exact ⟨List.length_take_of_le enough, (List.take_append_drop _ _).symm⟩
  · rintro ⟨rfl, rfl⟩
    simp

/-- A number is read exactly if it fits and its bytes come first. -/
theorem yields_number_iff
    {width value : Nat}
    {bytes left : List UInt8} :
    Yields (number width) bytes value left ↔
      value < 1 <<< (8 * width) ∧ bytes = Text.littleEndian width value ++ left := by
  simp only [number, yields_bind, yields_take_iff, yields_pure]
  constructor
  · rintro ⟨taken, between, ⟨rfl, rfl⟩, rfl, rfl⟩
    exact ⟨Text.ofLittleEndian_lt taken, by rw [Text.littleEndian_ofLittleEndian]⟩
  · rintro ⟨fits, rfl⟩
    refine ⟨_, _, ⟨Text.length_littleEndian width value, rfl⟩, ?_, rfl⟩
    rw [Text.ofLittleEndian_littleEndian, Nat.mod_eq_of_lt fits]

/-- The length of a key's text fits the four bytes that are written for it. -/
def Writable : Key → Prop
  | .int _ => True
  | .text value => (Text.encodeUtf8 value).length < 2 ^ 32

theorem yields_readText_iff
    {length : Nat}
    {bytes left : List UInt8}
    {key : Key} :
    (∃ taken between, Yields (take length) bytes taken between ∧
      Yields (match Text.decodeUtf8 taken with
        | .ok text => pure (.text text)
        | .error cause => throw (.keyText cause)) between key left) ↔
      ∃ text, key = .text text ∧ (Text.encodeUtf8 text).length = length ∧
        bytes = Text.encodeUtf8 text ++ left := by
  simp only [yields_take_iff]
  constructor
  · rintro ⟨taken, between, ⟨rfl, rfl⟩, read⟩
    split at read
    · next text decoded =>
      obtain ⟨rfl, rfl⟩ := yields_pure.mp read
      obtain rfl := Text.decodeUtf8_eq_ok_iff.mp decoded
      exact ⟨text, rfl, rfl, rfl⟩
    · exact absurd read yields_throw
  · rintro ⟨text, rfl, rfl, rfl⟩
    refine ⟨_, _, ⟨rfl, rfl⟩, ?_⟩
    rw [Text.decodeUtf8_encodeUtf8]
    exact yields_pure.mpr ⟨rfl, rfl⟩

/-- A key is read exactly from the bytes that are written for it. -/
theorem yields_readKey_iff
    {key : Key}
    {bytes left : List UInt8} :
    Yields readKey bytes key left ↔ Writable key ∧ bytes = writeKey key ++ left := by
  simp only [readKey, yields_bind, yields_number_iff]
  constructor
  · rintro ⟨tag, rest, ⟨tagFits, rfl⟩, read⟩
    split at read
    · next zero =>
      subst zero
      simp only [yields_bind, yields_number_iff, yields_pure] at read
      obtain ⟨value, _, ⟨fits, rfl⟩, rfl, rfl⟩ := read
      refine ⟨trivial, ?_⟩
      have same : value.toUInt64.toNat = value := by
        simpa using Nat.mod_eq_of_lt (show value < 2 ^ 64 from fits)
      simp only [writeKey, UInt64.toUInt64_toInt64, same]
      rfl
    · split at read
      · next one =>
        subst one
        simp only [yields_bind, yields_number_iff] at read
        obtain ⟨length, between, ⟨fits, rfl⟩, read⟩ := read
        obtain ⟨text, rfl, rfl, rfl⟩ := yields_readText_iff.mp read
        exact ⟨fits, by simp only [writeKey]; rfl⟩
      · exact absurd read yields_throw
  · rintro ⟨fits, rfl⟩
    cases key with
    | int value =>
        refine ⟨0, _, ⟨by decide, rfl⟩, ?_⟩
        rw [if_pos rfl, yields_bind]
        refine ⟨_, _, yields_number_iff.mpr ⟨value.toUInt64.toNat_lt, rfl⟩, ?_⟩
        simp
    | text value =>
        refine ⟨1, _, ⟨by decide, rfl⟩, ?_⟩
        rw [if_neg Nat.one_ne_zero, if_pos rfl, yields_bind]
        have bytes : Text.littleEndian 4 (Text.encodeUtf8 value).length ++ Text.encodeUtf8 value ++ left =
            Text.littleEndian 4 (Text.encodeUtf8 value).length ++ (Text.encodeUtf8 value ++ left) :=
          List.append_assoc ..
        refine ⟨_, _, yields_number_iff.mpr ⟨fits, bytes⟩, ?_⟩
        exact yields_bind.mpr (yields_readText_iff.mpr ⟨value, rfl, rfl, rfl⟩)

/-! ## Directories -/

theorem length_flatMap_words (words : List UInt32) :
    (words.flatMap fun word => Text.littleEndian 4 word.toNat).length = 4 * words.length := by
  simp [List.length_flatMap, Nat.mul_comm]

theorem wordAt_add_four
    (a b c d : UInt8)
    (bytes : List UInt8)
    (position : Nat) :
    wordAt (a :: b :: c :: d :: bytes).toArray (position + 4) = wordAt bytes.toArray position := by
  have shifted : ∀ offset, (a :: b :: c :: d :: bytes).toArray.getD (position + 4 + offset) 0 =
      bytes.toArray.getD (position + offset) 0 := by
    intro offset
    rw [show position + 4 + offset = position + offset + 4 by omega]
    simp only [Array.getD_eq_getD_getElem?, List.getElem?_toArray, List.getElem?_cons_succ]
  have first := shifted 0
  simp only [Nat.add_zero] at first
  simp only [wordAt, first, shifted]

/-- The bytes at the places of a directory's words are the bytes of the words. -/
theorem flatMap_wordAt
    {count : Nat}
    {bytes : List UInt8}
    (length : bytes.length = 4 * count) :
    (List.ofFn fun position : Fin count => wordAt bytes.toArray (4 * position)).flatMap
      (fun word => Text.littleEndian 4 word.toNat) = bytes := by
  induction count generalizing bytes with
  | zero => simpa using (List.length_eq_zero_iff.mp length).symm
  | succ count inductionHypothesis =>
      match bytes, length with
      | a :: b :: c :: d :: bytes, length =>
        have small := Text.ofLittleEndian_lt [a, b, c, d]
        have first : wordAt (a :: b :: c :: d :: bytes).toArray 0 =
            (Text.ofLittleEndian [a, b, c, d]).toUInt32 := rfl
        have value : (Text.ofLittleEndian [a, b, c, d]).toUInt32.toNat =
            Text.ofLittleEndian [a, b, c, d] := by
          simpa using Nat.mod_eq_of_lt (show _ < 2 ^ 32 from small)
        have others : (fun position : Fin count =>
            wordAt (a :: b :: c :: d :: bytes).toArray (4 * position.succ)) =
            fun position : Fin count => wordAt bytes.toArray (4 * position) := by
          funext position
          exact wordAt_add_four a b c d bytes (4 * position)
        rw [List.ofFn_succ, List.flatMap_cons, others,
          inductionHypothesis (by simpa [Nat.mul_succ] using length), Fin.val_zero, Nat.mul_zero, first,
          value]
        exact congrArg (· ++ bytes) (Text.littleEndian_ofLittleEndian [a, b, c, d])

theorem bloomOfBytes_flatMap (bloom : Bloom) :
    bloomOfBytes bloom.logBuckets
      (bloom.words.toList.flatMap fun word => Text.littleEndian 4 word.toNat).toArray = bloom := by
  refine Bloom.ext rfl (Array.ext ?_ fun index here there => ?_)
  · rw [(bloomOfBytes _ _).size_words, bloom.size_words]
    rfl
  · simp only [bloomOfBytes, Array.getElem_ofFn]
    exact @wordAt_flatMap bloom.words.toList index there

theorem flatMap_words_bloomOfBytes
    {logBuckets : Nat}
    {bytes : List UInt8}
    (length : bytes.length = 4 * (8 * Bloom.bucketCount logBuckets)) :
    (bloomOfBytes logBuckets bytes.toArray).words.toList.flatMap
      (fun word => Text.littleEndian 4 word.toNat) = bytes := by
  rw [bloomOfBytes, Array.toList_ofFn]
  exact flatMap_wordAt length

/-- The number of words can be written exactly if there are at most `2 ^ 28` buckets. -/
theorem words_lt_iff (logBuckets : Nat) :
    8 * Bloom.bucketCount logBuckets < 1 <<< (8 * 4) ↔ logBuckets ≤ 28 := by
  have width : 1 <<< (8 * 4) = 8 * 2 ^ 29 := by decide
  rw [Bloom.bucketCount, Nat.one_shiftLeft, width, Nat.mul_lt_mul_left (by decide),
    Nat.pow_lt_pow_iff_right (by decide)]
  omega

/-- A directory is read exactly from the bytes that are written for it. -/
theorem yields_readBloom_iff
    {bloom : Bloom}
    {bytes left : List UInt8} :
    Yields readBloom bytes bloom left ↔ bloom.logBuckets ≤ 28 ∧ bytes = writeBloom bloom ++ left := by
  simp only [readBloom, yields_bind, yields_number_iff]
  constructor
  · rintro ⟨logBuckets, _, ⟨_, rfl⟩, mask, _, ⟨_, rfl⟩, words, _, ⟨few, rfl⟩, read⟩
    split at read
    · exact absurd read (by simp)
    split at read
    · exact absurd read (by simp)
    next size =>
    split at read
    · exact absurd read (by simp)
    next masked =>
    obtain rfl := not_not.mp size
    obtain rfl := not_not.mp masked
    simp only [yields_bind, yields_take_iff, yields_pure] at read
    obtain ⟨taken, between, ⟨length, rfl⟩, rfl, rfl⟩ := read
    refine ⟨(words_lt_iff logBuckets).mp few, ?_⟩
    simp only [writeBloom, (bloomOfBytes logBuckets taken.toArray).size_words,
      flatMap_words_bloomOfBytes length, List.append_assoc]
    rfl
  · rintro ⟨narrow, rfl⟩
    have few := (words_lt_iff bloom.logBuckets).mpr narrow
    have wide : bloom.logBuckets < 1 <<< (8 * 4) := by
      rw [show 1 <<< (8 * 4) = 2 ^ 32 from rfl]
      omega
    simp only [writeBloom, List.append_assoc]
    refine ⟨_, _, ⟨wide, rfl⟩, _, _, ⟨?_, rfl⟩, _, _, ⟨bloom.size_words ▸ few, rfl⟩, ?_⟩
    · omega
    · rw [if_neg (by omega), if_neg (not_not.mpr bloom.size_words), if_neg (not_not.mpr rfl)]
      simp only [yields_bind, yields_take_iff, yields_pure]
      refine ⟨_, _, ⟨length_flatMap_words bloom.words.toList, rfl⟩, bloomOfBytes_flatMap bloom, rfl⟩

/-! ## Filters -/

/-- What is sent: a directory of at most `2 ^ 28` buckets, whose words fill them, the empty range, or a
range of keys of one class, in order and not too long. -/
def WellFormed : KeyFilter → Prop
  | .membership bloom => bloom.logBuckets ≤ 28 ∧ bloom.words.size = 8 * 2 ^ bloom.logBuckets
  | .range range => ∀ low high, range.bounds = some (low, high) →
      low.sameClass high = true ∧ low ≤ high ∧ Writable low ∧ Writable high

theorem yields_readRange_iff
    {range : KeyRange}
    {bytes left : List UInt8} :
    Yields readRange bytes range left ↔
      WellFormed (.range range) ∧ bytes = writeRange range ++ left := by
  simp only [readRange, yields_bind, yields_number_iff]
  constructor
  · rintro ⟨flag, _, ⟨_, rfl⟩, read⟩
    split at read
    · next zero =>
      subst zero
      obtain ⟨rfl, rfl⟩ := yields_pure.mp read
      exact ⟨fun low high ends => (by cases ends), rfl⟩
    split at read
    · next one =>
      subst one
      simp only [yields_bind, yields_readKey_iff] at read
      obtain ⟨low, _, ⟨lowFits, rfl⟩, high, _, ⟨highFits, rfl⟩, read⟩ := read
      split at read
      · next found bounds =>
        obtain ⟨rfl, rfl⟩ := yields_pure.mp read
        rw [KeyRange.ofBounds] at bounds
        split at bounds
        · next sameClass =>
          split at bounds
          · next ordered =>
            cases bounds
            refine ⟨?_, ?_⟩
            · intro _ _ ends
              obtain ⟨rfl, rfl⟩ := Prod.mk.inj (Option.some.inj ends)
              exact ⟨sameClass, ordered, lowFits, highFits⟩
            · simp only [writeRange, KeyRange.bounds, List.cons_append, List.append_assoc]
              rfl
          · cases bounds
        · cases bounds
      · exact absurd read yields_throw
    · exact absurd read yields_throw
  · rintro ⟨fits, rfl⟩
    cases range with
    | empty => exact ⟨0, _, ⟨by decide, rfl⟩, yields_pure.mpr ⟨rfl, rfl⟩⟩
    | between low high sameClass ordered =>
        obtain ⟨_, _, lowFits, highFits⟩ := fits low high rfl
        refine ⟨1, _, ⟨by decide, rfl⟩, ?_⟩
        simp only [Nat.one_ne_zero, if_false, if_true, yields_bind, yields_readKey_iff]
        refine ⟨low, _, ⟨lowFits, List.append_assoc ..⟩, high, _, ⟨highFits, rfl⟩, ?_⟩
        rw [KeyRange.ofBounds, dif_pos sameClass, dif_pos ordered]
        exact yields_pure.mpr ⟨rfl, rfl⟩

theorem yields_readFilter_iff
    {filter : KeyFilter}
    {bytes left : List UInt8} :
    Yields readFilter bytes filter left ↔ WellFormed filter ∧ bytes = encode filter ++ left := by
  simp only [readFilter, yields_bind, yields_number_iff]
  constructor
  · rintro ⟨found, _, ⟨_, rfl⟩, read⟩
    split at read
    · exact absurd read (by simp)
    next current =>
    obtain rfl := not_not.mp current
    simp only [yields_bind, yields_number_iff] at read
    obtain ⟨kind, _, ⟨_, rfl⟩, read⟩ := read
    split at read
    · next zero =>
      subst zero
      simp only [yields_bind, yields_readBloom_iff, yields_pure] at read
      obtain ⟨bloom, _, ⟨narrow, rfl⟩, rfl, rfl⟩ := read
      refine ⟨⟨narrow, ?_⟩, rfl⟩
      rw [bloom.size_words, Bloom.bucketCount, Nat.one_shiftLeft]
    split at read
    · next one =>
      subst one
      simp only [yields_bind, yields_readRange_iff, yields_pure] at read
      obtain ⟨range, _, ⟨fits, rfl⟩, rfl, rfl⟩ := read
      exact ⟨fits, rfl⟩
    · exact absurd read yields_throw
  · rintro ⟨fits, rfl⟩
    cases filter with
    | membership bloom =>
        refine ⟨version.toNat, _, ⟨by decide, rfl⟩, ?_⟩
        rw [if_neg (not_not.mpr rfl), yields_bind]
        refine ⟨0, _, yields_number_iff.mpr ⟨by decide, rfl⟩, ?_⟩
        rw [if_pos rfl, yields_bind]
        exact ⟨bloom, left, yields_readBloom_iff.mpr ⟨fits.1, rfl⟩, yields_pure.mpr ⟨rfl, rfl⟩⟩
    | range range =>
        refine ⟨version.toNat, _, ⟨by decide, rfl⟩, ?_⟩
        rw [if_neg (not_not.mpr rfl), yields_bind]
        refine ⟨1, _, yields_number_iff.mpr ⟨by decide, rfl⟩, ?_⟩
        rw [if_neg Nat.one_ne_zero, if_pos rfl, yields_bind]
        exact ⟨range, left, yields_readRange_iff.mpr ⟨fits, rfl⟩, yields_pure.mpr ⟨rfl, rfl⟩⟩

/-! ## What is merged can be sent -/

theorem wellFormed_between_iff
    {low high : Key}
    {sameClass : low.sameClass high = true}
    {ordered : low ≤ high} :
    WellFormed (.range (.between low high sameClass ordered)) ↔ Writable low ∧ Writable high := by
  constructor
  · exact fun fits => (fits low high rfl).2.2
  · rintro writable _ _ ends
    cases ends
    exact ⟨sameClass, ordered, writable⟩

theorem wellFormed_insert
    {range extended : KeyRange}
    {key : Key}
    (fits : WellFormed (.range range))
    (writable : Writable key)
    (inserts : range.insert key = .ok extended) :
    WellFormed (.range extended) := by
  cases range with
  | empty =>
      cases inserts
      exact wellFormed_between_iff.mpr ⟨writable, writable⟩
  | between low high sameClass ordered =>
      obtain ⟨lowWritable, highWritable⟩ := wellFormed_between_iff.mp fits
      unfold KeyRange.insert at inserts
      dsimp only at inserts
      split at inserts
      · cases inserts
        refine wellFormed_between_iff.mpr ⟨?_, ?_⟩
        · obtain same | same := KeyRange.lower_eq_or key low <;> rw [same] <;> assumption
        · obtain same | same := KeyRange.higher_eq_or key high <;> rw [same] <;> assumption
      · cases inserts

/-- The union of filters that can be sent can be sent. -/
theorem wellFormed_merge
    {filter other merged : KeyFilter}
    (fits : WellFormed filter)
    (otherFits : WellFormed other)
    (merges : filter.merge other = .ok merged) :
    WellFormed merged := by
  cases filter with
  | membership bloom =>
      cases other with
      | range range => cases merges
      | membership more =>
          unfold KeyFilter.merge at merges
          dsimp only at merges
          split at merges
          · next union found =>
            cases merges
            obtain ⟨_, log, _⟩ := Bloom.merge?_eq_some_iff.mp found
            refine ⟨log ▸ fits.1, ?_⟩
            rw [union.size_words, Bloom.bucketCount, Nat.one_shiftLeft]
          · cases merges
  | range range =>
      cases other with
      | membership bloom => cases merges
      | range more =>
          unfold KeyFilter.merge at merges
          dsimp only at merges
          split at merges
          · next union found =>
            cases merges
            cases more with
            | empty =>
                cases found
                exact fits
            | between low high sameClass ordered =>
                obtain ⟨lowWritable, highWritable⟩ := wellFormed_between_iff.mp otherFits
                simp only [KeyRange.merge, KeyRange.insertAll, List.foldlM_cons, List.foldlM_nil,
                  bind_eq_ok_iff, pure_eq_ok_iff] at found
                obtain ⟨middle, first, _, second, rfl⟩ := found
                exact wellFormed_insert (wellFormed_insert fits lowWritable first) highWritable second
          · cases merges

theorem wellFormed_mergeAll
    {filters : List KeyFilter}
    {merged : KeyFilter}
    (fit : ∀ filter ∈ filters, WellFormed filter)
    (merges : KeyFilter.mergeAll filters = .ok (some merged)) :
    WellFormed merged := by
  induction filters using List.reverseRecOn generalizing merged with
  | nil => cases merges
  | append_singleton filters filter inductionHypothesis =>
      obtain ⟨before, earlier, union, merges, same⟩ := KeyFilter.mergeAll_concat_eq_ok_iff.mp merges
      cases same
      have last := fit filter (List.mem_append_right _ (List.mem_singleton_self filter))
      cases before with
      | none =>
          cases merges
          exact last
      | some before =>
          have rest := inductionHypothesis
            (fun other member => fit other (List.mem_append_left _ member)) earlier
          exact wellFormed_merge rest last merges

/-! ## What is read -/

/-- What the reader finds depends on the bytes that are there: more bytes after them are left over, and
a fault other than missing bytes is found again. -/
def Local (read : Reader α) : Prop :=
  ∀ bytes more, match read bytes with
    | .ok (value, left) => read (bytes ++ more) = .ok (value, left ++ more)
    | .error fault => fault = .truncated ∨ read (bytes ++ more) = .error fault

theorem Local.pure (value : α) : Local (pure value) :=
  fun _ _ => rfl

theorem Local.throw (fault : Fault) : Local (throw fault : Reader α) :=
  fun _ _ => .inr rfl

theorem Local.bind
    {first : Reader α}
    {next : α → Reader β}
    (here : Local first)
    (there : ∀ value, Local (next value)) :
    Local (first >>= next) := by
  intro bytes more
  have run : ∀ bytes, (first >>= next) bytes = first bytes >>= fun read => next read.1 read.2 :=
    fun _ => rfl
  have reads := here bytes more
  rw [run, run]
  cases found : first bytes with
  | error fault =>
      rw [found] at reads
      obtain short | same := reads
      · exact .inl short
      · rw [same]
        exact .inr rfl
  | ok read =>
      obtain ⟨value, left⟩ := read
      rw [found] at reads
      dsimp only at reads
      rw [reads]
      exact there value left more

theorem Local.ite
    {condition : Prop}
    [Decidable condition]
    {yes no : Reader α}
    (whenTrue : Local yes)
    (whenFalse : Local no) :
    Local (if condition then yes else no) := by
  split
  · exact whenTrue
  · exact whenFalse

theorem Local.orThrow
    {condition : Prop}
    [Decidable condition]
    {fault : Fault}
    {next : PUnit → Reader α}
    (rest : Local (next ⟨⟩)) :
    Local (if condition then MonadExcept.throw fault >>= next else next ⟨⟩) :=
  .ite (fun _ _ => .inr rfl) rest

theorem take_apply
    (count : Nat)
    (bytes : List UInt8) :
    take count bytes =
      if bytes.length < count then .error .truncated else .ok (bytes.take count, bytes.drop count) := by
  rw [take]
  change (if bytes.length < count then throw .truncated
    else (do set (bytes.drop count); return bytes.take count) : Reader _) bytes = _
  split
  · rfl
  · rfl

theorem Local.take (count : Nat) : Local (take count) := by
  intro bytes more
  rw [take_apply, take_apply]
  by_cases short : bytes.length < count
  · rw [if_pos short]
    exact .inl rfl
  · have enough : count ≤ bytes.length := Nat.not_lt.mp short
    rw [if_neg short, if_neg (by rw [List.length_append]; omega), List.take_append_of_le_length enough,
      List.drop_append_of_le_length enough]

theorem Local.number (width : Nat) : Local (number width) :=
  (Local.take width).bind fun _ => .pure _

theorem Local.readKey : Local readKey := by
  refine (Local.number 1).bind fun tag => .ite ((Local.number 8).bind fun _ => .pure _) ?_
  refine .ite ((Local.number 4).bind fun length => (Local.take length).bind fun taken => ?_) (.throw _)
  cases Text.decodeUtf8 taken with
  | ok text => exact .pure _
  | error cause => exact .throw _

theorem Local.readBloom : Local readBloom := by
  refine (Local.number 4).bind fun _ => (Local.number 4).bind fun _ => (Local.number 4).bind fun words => ?_
  exact .orThrow (.orThrow (.orThrow ((Local.take (4 * words)).bind fun _ => .pure _)))

theorem Local.readRange : Local readRange := by
  refine (Local.number 1).bind fun flag => .ite (.pure _) (.ite ?_ (.throw _))
  refine Local.readKey.bind fun low => Local.readKey.bind fun high => ?_
  cases KeyRange.ofBounds low high with
  | ok range => exact .pure _
  | error cause => exact .throw _

theorem Local.readFilter : Local readFilter := by
  refine (Local.number 1).bind fun _ => .orThrow ((Local.number 1).bind fun kind => ?_)
  exact .ite (Local.readBloom.bind fun _ => .pure _)
    (.ite (Local.readRange.bind fun _ => .pure _) (.throw _))

/-- The four bytes of a written word stand at its place. -/
theorem take_drop_flatMap
    {words : List UInt32}
    {index : Nat}
    (inside : index < words.length) :
    ((words.flatMap fun word => Text.littleEndian 4 word.toNat).drop (4 * index)).take 4 =
      Text.littleEndian 4 words[index].toNat := by
  induction words generalizing index with
  | nil => exact absurd inside (Nat.not_lt_zero _)
  | cons word words inductionHypothesis =>
      have width : (Text.littleEndian 4 word.toNat).length = 4 := Text.length_littleEndian _ _
      cases index with
      | zero => rw [List.flatMap_cons, Nat.mul_zero, List.drop_zero, List.take_left' width]; rfl
      | succ index =>
          have rest := inductionHypothesis (Nat.lt_of_succ_lt_succ inside)
          rw [List.flatMap_cons, Nat.mul_succ, Nat.add_comm, ← List.drop_drop, List.drop_left' width, rest]
          rfl

theorem code_status (fault : Fault) : fault.status.code = .invalidArgument := by
  cases fault <;> rfl

theorem decode_eq_ok_iff
    {bytes : List UInt8}
    {filter : KeyFilter} :
    decode bytes = .ok filter ↔ WellFormed filter ∧ encode filter = bytes := by
  have reads : readFilter bytes = .ok (filter, []) ↔ WellFormed filter ∧ encode filter = bytes := by
    have exact := @yields_readFilter_iff filter bytes []
    rw [List.append_nil] at exact
    exact exact.trans (and_congr_right fun _ => eq_comm)
  simp only [← reads, decode, StateT.run, bind_eq_ok_iff]
  constructor
  · rintro ⟨⟨value, left⟩, read, whole⟩
    split at whole
    · next nothing =>
      rw [pure_eq_ok_iff] at whole
      obtain rfl : left = [] := List.isEmpty_iff.mp nothing
      exact whole ▸ read
    · exact absurd whole throw_ne_ok
  · exact fun read => ⟨_, read, rfl⟩

/-- What is done with a directory stays inside its words: the bucket of a hash, the words that an
addition changes and the words that are merged. -/
structure Confined (bloom : Bloom) : Prop where
  masked : ∀ hash, bloom.base hash = 8 * (hash.toUInt32.toNat &&& (2 ^ bloom.logBuckets - 1))
  inside : ∀ hash, bloom.base hash + (Bloom.masks (bloom.keyOf hash)).length ≤ bloom.words.size
  added : ∀ hash, (bloom.insert hash).words.size = bloom.words.size ∧
    ∀ position, position < bloom.base hash ∨ bloom.base hash + 8 ≤ position →
      (bloom.insert hash).words[position]? = bloom.words[position]?
  merged : ∀ other merged, bloom.merge? other = some merged →
    other.words.size = bloom.words.size ∧ merged.words.size = bloom.words.size

theorem confined (bloom : Bloom) : Confined bloom where
  masked := bloom.base_eq_mask
  inside := bloom.base_add_length_le
  added hash := by
    rw [Bloom.words_insert]
    refine ⟨Bloom.size_setBits _ _ _, fun position outside => Bloom.getElem?_setBits_of_outside ?_⟩
    rwa [Bloom.length_masks]
  merged other merged merges := by
    obtain ⟨same, log, _⟩ := Bloom.words_of_merge? merges
    rw [other.size_words, merged.size_words, bloom.size_words, log, same]
    exact ⟨rfl, rfl⟩

/-- The words of a directory that is read are made of the bytes at their places, which are all there. -/
theorem word_of_decode
    {bytes : List UInt8}
    {bloom : Bloom}
    (decoded : decode bytes = .ok (.membership bloom))
    (index : Nat)
    (inside : index < bloom.words.size) :
    (bytes.drop (14 + 4 * index)).take 4 = Text.littleEndian 4 bloom.words[index].toNat := by
  obtain ⟨_, rfl⟩ := decode_eq_ok_iff.mp decoded
  have header : ∀ a b c : Nat, (version :: 0 :: (Text.littleEndian 4 a ++ Text.littleEndian 4 b ++
      Text.littleEndian 4 c)).length = 14 := fun _ _ _ => by simp
  rw [encode, writeBloom, ← List.cons_append, ← List.cons_append, ← List.drop_drop,
    List.drop_left' (header _ _ _)]
  exact @take_drop_flatMap bloom.words.toList index inside

/-- Filters and byte strings correspond: a byte string is read as a filter exactly if the filter is well
formed and the bytes are those written for it, and every other byte string is an invalid argument. No
byte is looked at that is not there, and what is done with a directory that was read stays inside it. -/
theorem decode_encode_exact :
    (∀ bytes filter, decode bytes = .ok filter ↔ WellFormed filter ∧ encode filter = bytes) ∧
      (∀ bytes, (∀ filter, WellFormed filter → encode filter ≠ bytes) →
        ∃ fault, decode bytes = .error fault ∧ fault.status.code = .invalidArgument) ∧
      Local readFilter ∧
      ∀ bytes bloom, decode bytes = .ok (.membership bloom) →
        Confined bloom ∧ ∀ index (inside : index < bloom.words.size),
          (bytes.drop (14 + 4 * index)).take 4 = Text.littleEndian 4 bloom.words[index].toNat := by
  refine ⟨fun _ _ => decode_eq_ok_iff, fun bytes foreign => ?_, .readFilter,
    fun _ bloom decoded => ⟨confined bloom, word_of_decode decoded⟩⟩
  cases found : decode bytes with
  | ok filter =>
      obtain ⟨formed, same⟩ := decode_eq_ok_iff.mp found
      exact absurd same (foreign filter formed)
  | error fault => exact ⟨fault, rfl, code_status fault⟩

end Wire
end Spillway
