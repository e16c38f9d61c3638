import Spillway.Proofs.Spill.Effects

/-!
# Blocks that are tampered with

A store may hand out other bytes than a block was written with. If they differ from it in the forty bytes
of the header only, the block is restored to the chunks that it was written for or refused, and it is
restored exactly under the schema of its chunks and with a header that differs at most in the
compression and in the number of batches. If bytes are missing at the end, or there are more of them,
the block is refused. Every refusal is a failure of the storage.
-/

namespace Spillway

namespace BlockHeader

/-- Different headers are written differently. -/
theorem encode_inj {header other : BlockHeader} : header.encode = other.encode ↔ header = other := by
  refine ⟨fun same => ?_, congrArg encode⟩
  have read := decode_encode header []
  rw [same, decode_encode other []] at read
  exact (Except.ok.inj read).symm

end BlockHeader

/-- Lengths below the range of a word are told apart by the words of their numbers. -/
theorem toUInt64_inj_of_lt
    {count other : Nat}
    (small : count < UInt64.size)
    (alsoSmall : other < UInt64.size)
    (same : count.toUInt64 = other.toUInt64) :
    count = other := by
  have numbers := congrArg UInt64.toNat same
  simpa [Nat.mod_eq_of_lt small, Nat.mod_eq_of_lt alsoSmall] using numbers

namespace SpillArea

variable {format : Body.Format} {compression : Compression} {declaration asked : Declaration}
  {chunks kept : List Chunk} {path : String} {bytes : List UInt8}

/-! ## Decoding bytes that were not written -/

/-- With another header in front of its body, a block is decoded as it was written or not at all. The
tag of the compression and the number of batches are looked at by nobody. -/
theorem decodeBlock_forged_iff
    {front : List UInt8}
    (compression : Compression)
    (reads : Body.ReadsBack format declaration chunks)
    (length : front.length = BlockHeader.size) :
    decodeBlock format asked path (front ++ Body.encode format declaration chunks) = .ok kept ↔
      kept = chunks.filter (!·.isEmpty) ∧ declaration.same asked = true ∧ ∃ other batches,
        front = { headerOf format compression declaration chunks with
          compression := other, batches, schemaHash := asked.hash }.encode := by
  have body : (front ++ Body.encode format declaration chunks).drop BlockHeader.size =
      Body.encode format declaration chunks :=
    List.drop_left' length
  have rows : rowCount (chunks.filter (!·.isEmpty)) = rowCount chunks := by
    rw [rowCount_eq_length, flatMap_rows_filter, ← rowCount_eq_length]
  rw [decodeBlock_eq_ok_iff, body]
  constructor
  · rintro ⟨header, read, hash, bodyLength, decoded, counted⟩
    obtain ⟨_, written⟩ := BlockHeader.decode_eq_ok_iff.mp read
    rw [List.take_left' length] at written
    cases same : declaration.same asked with
    | false =>
        obtain ⟨_, refused⟩ := Body.exists_decode_of_not_same format same chunks
        rw [refused] at decoded
        cases decoded
    | true =>
        rw [reads.decode same, Except.ok.injEq] at decoded
        subst decoded
        rw [rows] at counted
        refine ⟨rfl, rfl, header.compression, header.batches, ?_⟩
        rw [written, BlockHeader.encode_inj, headerOf, hash.symm, bodyLength, counted]
  · rintro ⟨rfl, same, other, batches, rfl⟩
    refine ⟨_, BlockHeader.decode_encode _ _, rfl, rfl, reads.decode same, ?_⟩
    rw [rows]
    rfl

/-- Bytes that start like a block, as far as they go, and are fewer or more are not decoded. -/
theorem decodeBlock_ne_ok_of_length
    (starts : BlockHeader.size ≤ bytes.length →
      bytes.take BlockHeader.size = (headerOf format compression declaration chunks).encode)
    (small : bytes.length < UInt64.size)
    (written : (bytesOf format compression declaration chunks).length < UInt64.size)
    (differs : bytes.length ≠ (bytesOf format compression declaration chunks).length) :
    decodeBlock format asked path bytes ≠ .ok kept := by
  intro decoded
  obtain ⟨header, read, _, bodyLength, _⟩ := decodeBlock_eq_ok_iff.mp decoded
  obtain ⟨long, found⟩ := BlockHeader.decode_eq_ok_iff.mp read
  rw [starts long, BlockHeader.encode_inj] at found
  rw [← found, headerOf] at bodyLength
  rw [bytesOf, List.length_append, BlockHeader.length_encode] at written differs
  have lengths := toUInt64_inj_of_lt (by rw [List.length_drop]; omega) (by omega) bodyLength
  rw [List.length_drop] at lengths
  omega

theorem take_size_bytesOf :
    (bytesOf format compression declaration chunks).take BlockHeader.size =
      (headerOf format compression declaration chunks).encode := by
  rw [bytesOf, ← BlockHeader.length_encode (headerOf format compression declaration chunks),
    List.take_left]

theorem length_bytesOf :
    (bytesOf format compression declaration chunks).length =
      BlockHeader.size + (Body.encode format declaration chunks).length := by
  rw [bytesOf, List.length_append, BlockHeader.length_encode]

/-- Overwriting the header leaves the body behind the new bytes. -/
theorem overwrite_bytesOf
    {front : List UInt8}
    (length : front.length = BlockHeader.size) :
    (Damage.overwrite 0 front).apply (bytesOf format compression declaration chunks) =
      front ++ Body.encode format declaration chunks := by
  have whole : (front ++ Body.encode format declaration chunks).length =
      (bytesOf format compression declaration chunks).length := by
    rw [List.length_append, length, length_bytesOf]
  rw [Damage.apply, List.take_zero, List.nil_append, Nat.zero_add, length, drop_bytesOf, ← whole,
    List.take_length]

theorem decodeBlock_cut_ne_ok
    {count : Nat}
    (written : (bytesOf format compression declaration chunks).length < UInt64.size)
    (some : 0 < count) :
    decodeBlock format asked path
      ((Damage.cut count).apply (bytesOf format compression declaration chunks)) ≠ .ok kept := by
  have nonempty : 0 < (bytesOf format compression declaration chunks).length := by
    rw [length_bytesOf, BlockHeader.size]
    omega
  have length : ((Damage.cut count).apply (bytesOf format compression declaration chunks)).length =
      (bytesOf format compression declaration chunks).length - count := by
    rw [Damage.apply, List.length_take, Nat.min_eq_left (Nat.sub_le _ _)]
  refine decodeBlock_ne_ok_of_length (fun long => ?_) (by omega) written (by omega)
  rw [length] at long
  rw [Damage.apply, List.take_take, Nat.min_eq_left long, take_size_bytesOf]

theorem decodeBlock_extended_ne_ok
    {more : List UInt8}
    (room : (bytesOf format compression declaration chunks).length + more.length < UInt64.size)
    (some : more ≠ []) :
    decodeBlock format asked path
      ((Damage.add more).apply (bytesOf format compression declaration chunks)) ≠ .ok kept := by
  have further : 0 < more.length := List.length_pos_iff.mpr some
  have written := Nat.lt_of_le_of_lt (Nat.le_add_right _ _) room
  have length : ((Damage.add more).apply (bytesOf format compression declaration chunks)).length =
      (bytesOf format compression declaration chunks).length + more.length := by
    rw [Damage.apply, List.length_append]
  refine decodeBlock_ne_ok_of_length (fun _ => ?_) (by omega) written (by omega)
  have inside : BlockHeader.size ≤ (bytesOf format compression declaration chunks).length := by
    rw [length_bytesOf]
    omega
  rw [Damage.apply, List.take_append_of_le_length inside, take_size_bytesOf]

/-! ## Restoring from a store that hands them out -/

/-- The area whose store does a damage to the block at a path, and no other damage to it. -/
def tamper
    (area : SpillArea)
    (path : String)
    (damage : Damage) : SpillArea :=
  { area with store := area.store.withDamage path [damage] }

/-- The result of restoring a block under a schema after a damage was done to it. -/
def restored
    (area : SpillArea)
    (block : Block)
    (asked : Declaration)
    (damage : Damage) : Except Status (List Chunk) :=
  ((restore asked block).outcome (area.tamper block.path damage)).1

/-- The result is a failure of the storage. -/
def Refused (result : Except Status (List Chunk)) : Prop :=
  ∃ status, result = .error status ∧ status.code = .storage

variable {area before after : SpillArea} {block : Block} {damage : Damage}

/-- A block is restored to what the damaged bytes are decoded as, while the store can be read. -/
theorem restored_eq_ok_iff (stored : area.store.block? block.path = some bytes) :
    area.restored block asked damage = .ok kept ↔
      area.store.outage.reads = false ∧
        decodeBlock area.store.format asked block.path (damage.apply bytes) = .ok kept := by
  have held : (area.tamper block.path damage).store.block? block.path = some bytes := stored
  have handed : (area.tamper block.path damage).store.damaged block.path bytes = damage.apply bytes := by
    simp [tamper, Store.withDamage, Store.damaged]
  have readable : (area.tamper block.path damage).store.outage.reads = area.store.outage.reads := rfl
  rw [restored, ← readable]
  constructor
  · intro result
    have succeeds : (restore asked block).Succeeds (area.tamper block.path damage) kept _ :=
      Prod.ext result rfl
    simp only [restore, onStore, Step.succeeds_bind, Step.succeeds_get, Step.succeeds_focus,
      Step.succeeds_ofExcept, Step.succeeds_pure, Store.succeeds_read_iff,
      mapError_eq_ok_iff] at succeeds
    obtain ⟨_, _, ⟨rfl, rfl⟩, _, _, ⟨_, ⟨reads, ⟨_, found, rfl⟩, _⟩, _⟩, _, _, ⟨decoded, _⟩, _, _, _,
      rfl, _⟩ := succeeds
    rw [held, Option.some.injEq] at found
    subst found
    exact ⟨reads, handed ▸ decoded⟩
  · rintro ⟨reads, decoded⟩
    have there : (area.tamper block.path damage).store.chunksAt? asked block.path = some kept := by
      have format : (area.tamper block.path damage).store.format = area.store.format := rfl
      rw [← handed] at decoded
      simp [Store.chunksAt?, held, format, decoded, Except.toOption]
    obtain ⟨_, succeeds⟩ := exists_succeeds_restore reads there
    exact congrArg Prod.fst succeeds

/-- What is not restored is refused. -/
theorem refused_of_ne_ok (never : ∀ kept, area.restored block asked damage ≠ .ok kept) :
    Refused (area.restored block asked damage) := by
  have ends : (restore asked block).Ends (area.tamper block.path damage) (fun _ _ => False)
      fun status _ => status.code = .storage :=
    (ends_restore asked block _).and_succeeds.mono
      (fun kept _ succeeds => never kept (congrArg Prod.fst succeeds.1)) fun _ _ failed => failed.2
  obtain ⟨status, _, fails, code⟩ := ends.exists_fails
  exact ⟨status, congrArg Prod.fst fails, code⟩

/-- Whatever is done to the header or to the length of a block, nobody is given other chunks than those
that it was written for. -/
structure Guarded
    (declaration : Declaration)
    (chunks : List Chunk)
    (block : Block)
    (area : SpillArea) : Prop where
  /-- With other bytes in place of the header the block is restored as it was written, or refused. -/
  forged : ∀ front asked, front.length = BlockHeader.size →
    area.restored block asked (.overwrite 0 front) = .ok (chunks.filter (!·.isEmpty)) ∨
      Refused (area.restored block asked (.overwrite 0 front))
  /-- It is restored under the fields it was written for, where the hash is that of the declaration asked
  for and otherwise only the compression and the number of batches are other than written. -/
  accepted : ∀ front asked, front.length = BlockHeader.size → area.store.outage.reads = false →
    (area.restored block asked (.overwrite 0 front) = .ok (chunks.filter (!·.isEmpty)) ↔
      declaration.same asked = true ∧ ∃ compression batches,
        front = { block.header with compression, batches, schemaHash := asked.hash }.encode)
  /-- Without some of its last bytes the block is refused. -/
  cut : ∀ count asked, 0 < count → Refused (area.restored block asked (.cut count))
  /-- With more bytes after its last one the block is refused. -/
  extended : ∀ more asked, more ≠ [] → block.storedBytes + more.length < UInt64.size →
    Refused (area.restored block asked (.add more))

/-- The handle of a block has the header that was written. -/
theorem header_of_succeeds_spill (succeeds : (spill declaration chunks).Succeeds before block after) :
    block.header = headerOf before.store.format before.spiller.compression declaration chunks := by
  simp only [spill, Step.succeeds_bind, Step.succeeds_get, Step.succeeds_pure] at succeeds
  obtain ⟨_, _, ⟨rfl, rfl⟩, _, _, _, _, _, _, rfl, _⟩ := succeeds
  rfl

/-- The handle knows the length of the block, if a word can count it. -/
theorem storedBytes_of_header
    (header : block.header = headerOf format compression declaration chunks)
    (written : (bytesOf format compression declaration chunks).length < UInt64.size) :
    block.storedBytes = (bytesOf format compression declaration chunks).length := by
  rw [length_bytesOf] at written ⊢
  have exact : (Body.encode format declaration chunks).length.toUInt64.toNat =
      (Body.encode format declaration chunks).length :=
    Nat.mod_eq_of_lt (Nat.lt_of_le_of_lt (Nat.le_add_left _ _) written)
  rw [Block.storedBytes, header, headerOf, exact]

/-- With another header, a block that a store has is restored as it was written or not at all. -/
theorem restored_forged_iff
    {front : List UInt8}
    (header : block.header = headerOf format compression declaration chunks)
    (sameFormat : area.store.format = format)
    (stored : area.store.block? block.path = some (bytesOf format compression declaration chunks))
    (reads : Body.ReadsBack format declaration chunks)
    (length : front.length = BlockHeader.size) :
    area.restored block asked (.overwrite 0 front) = .ok kept ↔
      area.store.outage.reads = false ∧ kept = chunks.filter (!·.isEmpty) ∧
        declaration.same asked = true ∧ ∃ compression batches,
          front = { block.header with compression, batches, schemaHash := asked.hash }.encode := by
  rw [restored_eq_ok_iff stored, sameFormat, overwrite_bytesOf length, header,
    decodeBlock_forged_iff compression reads length]

/-- A block that was written is guarded as long as the store has it, whatever else happens to the store
but to its format. That its body is read back as it was written is taken for granted, and that a word can
count its bytes. -/
theorem guarded_of_spilled
    (written : (spill declaration chunks).Succeeds before block after)
    (reads : Body.ReadsBack before.store.format declaration chunks)
    (format : area.store.format = before.store.format)
    (addressable : ∀ bytes, after.store.block? block.path = some bytes → bytes.length < UInt64.size)
    (held : area.store.block? block.path = after.store.block? block.path) :
    Guarded declaration chunks block area := by
  have header := header_of_succeeds_spill written
  obtain ⟨_, _, stored⟩ := writes_of_succeeds_spill written
  have small := addressable _ stored
  rw [stored] at held
  refine {
    forged := fun front asked length => ?_
    accepted := fun front asked length readable => ?_
    cut := fun count asked some => refused_of_ne_ok fun kept result => ?_
    extended := fun more asked some room => refused_of_ne_ok fun kept result => ?_ }
  · by_cases refused : Refused (area.restored block asked (.overwrite 0 front))
    · exact .inr refused
    · obtain ⟨kept, result⟩ := not_forall_not.mp fun never => refused (refused_of_ne_ok never)
      have same := ((restored_forged_iff header format held reads length).mp result).2.1
      exact .inl (same ▸ result)
  · simp only [restored_forged_iff header format held reads length, readable, true_and]
  · exact decodeBlock_cut_ne_ok small some (format ▸ ((restored_eq_ok_iff held).mp result).2)
  · rw [storedBytes_of_header header small] at room
    exact decodeBlock_extended_ne_ok room some (format ▸ ((restored_eq_ok_iff held).mp result).2)

namespace Sample

def numbers : Schema := [{ name := "n", type := .int64 }]

def rowless : Chunk := ⟨numbers, [], by decide⟩

def one : Chunk := ⟨numbers, [[.int 1]], by decide⟩

/-- A spiller that compresses blocks, and a store without blocks. -/
def empty : SpillArea := { spiller := { compression := .lz4 } }

def writes : Step SpillArea Block :=
  spill numbers [rowless, one]

def first : Block :=
  valueOf (writes.outcome empty).1 (by decide +kernel)

def afterFirst : SpillArea :=
  (writes.outcome empty).2

/-- The area after another block was written. -/
def later : SpillArea :=
  (writes.outcome afterFirst).2

theorem succeeds_writes : writes.Succeeds empty first afterFirst :=
  Step.succeeds_of_isOk writes empty (by decide +kernel)

theorem length_first (bytes : List UInt8) (stored : afterFirst.store.block? first.path = some bytes) :
    bytes.length < UInt64.size := by
  obtain ⟨_, _, written⟩ := writes_of_succeeds_spill succeeds_writes
  rw [written, Option.some.injEq] at stored
  subst stored
  decide +kernel

end Sample

/-- A block stays guarded when another one is written after it. -/
theorem guarded_of_sample :
    Sample.writes.Succeeds Sample.empty Sample.first Sample.afterFirst ∧
      Body.ReadsBack Sample.empty.store.format Sample.numbers [Sample.rowless, Sample.one] ∧
      Sample.later.store.format = Sample.empty.store.format ∧
      (∀ bytes, Sample.afterFirst.store.block? Sample.first.path = some bytes →
        bytes.length < UInt64.size) ∧
      Sample.later.store.block? Sample.first.path = Sample.afterFirst.store.block? Sample.first.path ∧
      Guarded Sample.numbers [Sample.rowless, Sample.one] Sample.first Sample.later := by
  have held : Sample.later.store.block? Sample.first.path =
      Sample.afterFirst.store.block? Sample.first.path := by
    decide +kernel
  have reads : Body.ReadsBack Sample.empty.store.format Sample.numbers [Sample.rowless, Sample.one] :=
    Body.readsBack_of_fitting (by decide)
  exact ⟨Sample.succeeds_writes, reads, rfl, Sample.length_first, held,
    guarded_of_spilled Sample.succeeds_writes reads rfl Sample.length_first held⟩

end SpillArea
end Spillway
