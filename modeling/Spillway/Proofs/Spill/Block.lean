import Spillway.Proofs.Spill.Body
import Spillway.Proofs.Spill.Header

/-!
# Blocks in a store

A block that was written for chunks of one schema is read back as those of them that have rows, as
long as the store hands out the bytes that it was given. Writing a block takes a path that was free,
so all other blocks stay as they are; giving up a block changes no other path. What a store holds at
a path is therefore decided by the last block written there.
-/

namespace Spillway

namespace SpillArea

theorem rowCount_eq_length (chunks : List Chunk) :
    rowCount chunks = (chunks.flatMap Chunk.rows).length := by
  induction chunks with
  | nil => rfl
  | cons chunk chunks inductionHypothesis =>
      rw [rowCount, total_cons, ← rowCount, inductionHypothesis, List.flatMap_cons,
        List.length_append, Chunk.length]

/-- Chunks without rows hold no rows. -/
theorem flatMap_rows_filter (chunks : List Chunk) :
    (chunks.filter (!·.isEmpty)).flatMap Chunk.rows = chunks.flatMap Chunk.rows := by
  induction chunks with
  | nil => rfl
  | cons chunk chunks inductionHypothesis =>
      cases empty : chunk.isEmpty with
      | true =>
          have none : chunk.rows = [] := List.isEmpty_iff.mp empty
          simp [empty, none, inductionHypothesis]
      | false => simp [empty, inductionHypothesis]

/-- A block is decoded when its header is sound, names the schema, and states the length of the body
and the number of rows in it. -/
theorem decodeBlock_eq_ok_iff
    {format : Body.Format}
    {declaration : Declaration}
    {path : String}
    {bytes : List UInt8}
    {chunks : List Chunk} :
    decodeBlock format declaration path bytes = .ok chunks ↔
      ∃ header, BlockHeader.decode bytes = .ok header ∧ header.schemaHash = declaration.hash ∧
        (bytes.drop BlockHeader.size).length.toUInt64 = header.bodyLength ∧
        Body.decode format declaration (bytes.drop BlockHeader.size) = .ok chunks ∧
        (rowCount chunks).toUInt64 = header.rows := by
  simp only [decodeBlock, bind_eq_ok_iff, mapError_eq_ok_iff, ite_eq_iff, throw_ne_ok, pure_eq_ok_iff,
    false_and, exists_false, and_false, false_or, ne_eq, not_not]
  refine exists_congr fun header => and_congr_right fun _ => and_congr_right fun _ =>
    and_congr_right fun _ => ?_
  constructor
  · rintro ⟨_, body, rows, rfl⟩
    exact ⟨body, rows⟩
  · rintro ⟨body, rows⟩
    exact ⟨chunks, body, rows, rfl⟩

/-- The bytes of a block: its header, then its body. -/
def bytesOf
    (format : Body.Format)
    (compression : Compression)
    (declaration : Declaration)
    (chunks : List Chunk) : List UInt8 :=
  (headerOf format compression declaration chunks).encode ++ Body.encode format declaration chunks

variable
  {format : Body.Format}
  {compression : Compression}
  {declaration asked : Declaration}
  {path : String}
  {chunks : List Chunk}

theorem decode_bytesOf :
    BlockHeader.decode (bytesOf format compression declaration chunks) =
      .ok (headerOf format compression declaration chunks) :=
  BlockHeader.decode_encode _ _

theorem drop_bytesOf :
    (bytesOf format compression declaration chunks).drop BlockHeader.size =
      Body.encode format declaration chunks := by
  rw [bytesOf, ← BlockHeader.length_encode (headerOf format compression declaration chunks),
    List.drop_left]

/-- Where the body is read back, the whole block is, under every declaration with the same fields and the
same hash. -/
theorem decodeBlock_bytesOf
    (path : String)
    (reads : Body.ReadsBack format declaration chunks)
    (same : declaration.same asked = true)
    (hash : declaration.hash = asked.hash) :
    decodeBlock format asked path (bytesOf format compression declaration chunks) =
      .ok (chunks.filter (!·.isEmpty)) := by
  rw [decodeBlock_eq_ok_iff, drop_bytesOf]
  refine ⟨_, decode_bytesOf, hash, rfl, reads.decode same, ?_⟩
  rw [rowCount_eq_length, flatMap_rows_filter, ← rowCount_eq_length]
  rfl

/-- A block is decoded under no declaration with other fields than it was written for, not even where the
hashes of the two are the same. -/
theorem decodeBlock_bytesOf_of_not_same
    {decoded : List Chunk}
    (different : declaration.same asked = false) :
    decodeBlock format asked path (bytesOf format compression declaration chunks) ≠ .ok decoded := by
  intro succeeds
  obtain ⟨_, _, _, _, body, _⟩ := decodeBlock_eq_ok_iff.mp succeeds
  obtain ⟨_, refused⟩ := Body.exists_decode_of_not_same format different chunks
  rw [drop_bytesOf, refused] at body
  cases body

/-- Nor is it decoded under a declaration with another hash, whatever its fields are. -/
theorem decodeBlock_bytesOf_of_hash_ne
    {decoded : List Chunk}
    (different : declaration.hash ≠ asked.hash) :
    decodeBlock format asked path (bytesOf format compression declaration chunks) ≠ .ok decoded := by
  intro succeeds
  obtain ⟨_, read, hash, _⟩ := decodeBlock_eq_ok_iff.mp succeeds
  rw [decode_bytesOf, Except.ok.injEq] at read
  subst read
  exact different hash

/-- Chunks decoded under a declaration have its schema. -/
theorem schema_of_decodeBlock
    {bytes : List UInt8}
    (decoded : decodeBlock format declaration path bytes = .ok chunks) :
    ∀ chunk ∈ chunks, chunk.schema = declaration.schema := by
  obtain ⟨_, _, _, _, body, _⟩ := decodeBlock_eq_ok_iff.mp decoded
  exact Body.schema_of_decode body

end SpillArea

namespace Store

/-- The chunks that a reader finds at a path under a declaration, if there is a block for it. -/
def chunksAt?
    (store : Store)
    (declaration : Declaration)
    (path : String) : Option (List Chunk) :=
  (store.block? path).bind fun bytes =>
    (SpillArea.decodeBlock store.format declaration path (store.damaged path bytes)).toOption

/-- A store after calls that give up no other blocks than those at the given paths. -/
structure Keeps
    (before after : Store)
    (givenUp : List String) : Prop where
  format : after.format = before.format
  damage : after.damage = before.damage
  outageAt : after.outageAt = before.outageAt
  calls : before.calls ≤ after.calls
  block :
    ∀ path bytes, path ∉ givenUp →
      before.block? path = some bytes → after.block? path = some bytes

/-- A store whose blocks at the listed paths are as they were, in the format that they were in. -/
structure Spares
    (before after : Store)
    (listed : String → Prop) : Prop where
  format : after.format = before.format
  block : ∀ path, listed path → after.block? path = before.block? path

theorem Spares.refl
    (store : Store)
    (listed : String → Prop) :
    Spares store store listed :=
  ⟨rfl, fun _ _ => rfl⟩

/-- A block that is still there is read as before. -/
theorem chunksAt?_of_kept
    {before after : Store}
    {declaration : Declaration}
    {path : String}
    {chunks : List Chunk}
    (format : after.format = before.format)
    (damage : after.damage = before.damage)
    (kept : ∀ bytes, before.block? path = some bytes → after.block? path = some bytes)
    (held : before.chunksAt? declaration path = some chunks) :
    after.chunksAt? declaration path = some chunks := by
  unfold chunksAt? damaged at held ⊢
  obtain ⟨bytes, stored, decoded⟩ := Option.bind_eq_some_iff.mp held
  rw [kept bytes stored, damage, format]
  exact decoded

namespace Keeps

theorem refl (store : Store) : Keeps store store [] :=
  ⟨rfl, rfl, rfl, Nat.le_refl _, fun _ _ _ held => held⟩

theorem trans
    {first second third : Store}
    {givenUp later : List String}
    (one : Keeps first second givenUp)
    (another : Keeps second third later) :
    Keeps first third (givenUp ++ later) where
  format := another.format.trans one.format
  damage := another.damage.trans one.damage
  outageAt := another.outageAt.trans one.outageAt
  calls := Nat.le_trans one.calls another.calls
  block := by
    intro path bytes free held
    rw [List.mem_append, not_or] at free
    exact another.block path bytes free.2 (one.block path bytes free.1 held)

/-- What is read at a path that is not given up stays the same. -/
theorem chunksAt?
    {before after : Store}
    {givenUp : List String}
    {declaration : Declaration}
    {path : String}
    {chunks : List Chunk}
    (keeps : Keeps before after givenUp)
    (free : path ∉ givenUp)
    (held : before.chunksAt? declaration path = some chunks) :
    after.chunksAt? declaration path = some chunks :=
  chunksAt?_of_kept keeps.format keeps.damage (fun bytes => keeps.block path bytes free) held

end Keeps

/-- A store that can be read from now on. -/
def Readable (store : Store) : Prop :=
  ∀ call, store.calls ≤ call → (store.outageAt call).reads = false

theorem Readable.now
    {store : Store}
    (readable : store.Readable) :
    store.outage.reads = false :=
  readable store.calls (Nat.le_refl _)

theorem Readable.keeps
    {before after : Store}
    {givenUp : List String}
    (readable : before.Readable)
    (keeps : Keeps before after givenUp) :
    after.Readable := by
  intro call later
  rw [keeps.outageAt]
  exact readable call (Nat.le_trans keeps.calls later)

/-- A call that changes nothing else keeps all blocks. -/
theorem keeps_tick (store : Store) : Keeps store store.tick [] :=
  ⟨rfl, rfl, rfl, Nat.le_succ _, fun _ _ _ held => held⟩

theorem chunksAt?_of_block?
    {store : Store}
    {declaration : Declaration}
    {path : String}
    {bytes : List UInt8}
    {chunks : List Chunk}
    (faithful : store.damage = [])
    (stored : store.block? path = some bytes)
    (decoded : SpillArea.decodeBlock store.format declaration path bytes = .ok chunks) :
    store.chunksAt? declaration path = some chunks := by
  simp [chunksAt?, stored, damaged, faithful, decoded, Except.toOption]

/-- Bytes that are decoded as no chunks are not read. -/
theorem chunksAt?_eq_none
    {store : Store}
    {declaration : Declaration}
    {path : String}
    {bytes : List UInt8}
    (faithful : store.damage = [])
    (stored : store.block? path = some bytes)
    (unread : ∀ chunks, SpillArea.decodeBlock store.format declaration path bytes ≠ .ok chunks) :
    store.chunksAt? declaration path = none := by
  cases decoded : SpillArea.decodeBlock store.format declaration path bytes with
  | ok chunks => exact absurd decoded (unread chunks)
  | error fault => simp [chunksAt?, stored, damaged, faithful, decoded, Except.toOption]

/-- What is found at a path was decoded from the bytes there. -/
theorem exists_decodeBlock_of_chunksAt?
    {store : Store}
    {declaration : Declaration}
    {path : String}
    {chunks : List Chunk}
    (held : store.chunksAt? declaration path = some chunks) :
    ∃ bytes, store.block? path = some bytes ∧
      SpillArea.decodeBlock store.format declaration path (store.damaged path bytes) = .ok chunks := by
  obtain ⟨bytes, stored, decoded⟩ := Option.bind_eq_some_iff.mp held
  refine ⟨bytes, stored, ?_⟩
  cases result : SpillArea.decodeBlock store.format declaration path (store.damaged path bytes) with
  | error fault => simp [result, Except.toOption] at decoded
  | ok read => simpa [result, Except.toOption] using decoded

/-- Chunks read under a declaration have its schema. -/
theorem schema_of_chunksAt?
    {store : Store}
    {declaration : Declaration}
    {path : String}
    {chunks : List Chunk}
    (held : store.chunksAt? declaration path = some chunks) :
    ∀ chunk ∈ chunks, chunk.schema = declaration.schema := by
  obtain ⟨_, _, decoded⟩ := exists_decodeBlock_of_chunksAt? held
  exact SpillArea.schema_of_decodeBlock decoded

theorem exists_block?_of_chunksAt?
    {store : Store}
    {declaration : Declaration}
    {path : String}
    {chunks : List Chunk}
    (held : store.chunksAt? declaration path = some chunks) :
    ∃ bytes, store.block? path = some bytes := by
  obtain ⟨bytes, stored, _⟩ := exists_decodeBlock_of_chunksAt? held
  exact ⟨bytes, stored⟩

theorem block?_insert
    (store : Store)
    (path other : String)
    (bytes : List UInt8) :
    (store.insert path bytes).block? other =
      if other = path then some bytes else store.block? other := by
  unfold insert block?
  rw [List.lookup_cons]
  by_cases same : other = path
  · simp [same]
  · simp [same, beq_false_of_ne same]

/-- Bytes written to a path that was free, with all blocks kept. -/
structure Writes
    (before after : Store)
    (path : String)
    (bytes : List UInt8) : Prop where
  keeps : Keeps before after []
  free : before.block? path = none
  stored : after.block? path = some bytes

/-- Bytes written later were written, since a path that is free later was free before. -/
theorem Keeps.writes
    {first second third : Store}
    {path : String}
    {bytes : List UInt8}
    (keeps : Keeps first second [])
    (writes : Writes second third path bytes) :
    Writes first third path bytes where
  keeps := keeps.trans writes.keeps
  free := by
    by_contra taken
    obtain ⟨held, found⟩ := Option.ne_none_iff_exists'.mp taken
    have still := keeps.block path held List.not_mem_nil found
    rw [writes.free] at still
    exact Option.some_ne_none held still.symm
  stored := writes.stored

/-- Without the blocks of one path, those of all other paths are still found. -/
theorem block?_erase_of_ne
    {store : Store}
    {path other : String}
    (different : other ≠ path) :
    (store.erase path).block? other = store.block? other := by
  unfold erase block?
  induction store.blocks with
  | nil => rfl
  | cons block blocks inductionHypothesis =>
      obtain ⟨place, bytes⟩ := block
      simp only [List.filter_cons, List.lookup_cons]
      by_cases here : place = path
      · have passed : (other == place) = false := beq_false_of_ne (here ▸ different)
        simp only [here, ne_eq, not_true_eq_false, decide_false, Bool.false_eq_true, if_false]
        rw [here] at passed
        rw [passed, inductionHypothesis]
      · simp only [ne_eq, here, not_false_eq_true, decide_true, if_true, List.lookup_cons]
        rw [inductionHypothesis]

/-- Drawing a path touches no block. -/
theorem succeeds_drawPath
    {before after : Store}
    {path : String}
    (succeeds : drawPath.Succeeds before path after) :
    Keeps before after [] ∧ ∀ other, after.block? other = before.block? other := by
  change (_, _) = (_, after) at succeeds
  obtain ⟨_, rfl⟩ := Prod.mk.injEq .. ▸ succeeds
  exact ⟨⟨rfl, rfl, rfl, Nat.le_refl _, fun _ _ _ held => held⟩, fun _ => rfl⟩

/-- Reading succeeds with the bytes at the path, damaged as the store damages them. -/
theorem succeeds_read_iff
    {path : String}
    {before after : Store}
    {bytes : List UInt8} :
    (read path).Succeeds before bytes after ↔
      before.outage.reads = false ∧
        (∃ stored, before.block? path = some stored ∧ before.damaged path stored = bytes) ∧
        before.tick = after := by
  change (if before.outage.reads = true then _ else _) = (Except.ok bytes, after) ↔ _
  cases reads : before.outage.reads with
  | true => simp
  | false => cases found : before.block? path <;> simp

/-- Writing to a path keeps all blocks, whether it succeeds or not. -/
theorem keeps_create
    (path : String)
    (bytes : List UInt8)
    (store : Store) :
    Keeps store ((create path bytes).outcome store).2 [] := by
  change Keeps store
    (Prod.snd (if store.outage.writes = true then _ else
      if (store.block? path).isSome = true then _ else _)) []
  split
  · exact keeps_tick store
  · split
    · exact keeps_tick store
    · next free =>
      refine ⟨rfl, rfl, rfl, Nat.le_succ _, ?_⟩
      intro other held _ found
      change (store.insert path bytes).block? other = some held
      rw [block?_insert, if_neg, found]
      rintro rfl
      simp [found] at free

/-- Writing succeeds with `true` only at a free path, and then the path holds the bytes. -/
theorem succeeds_create
    {path : String}
    {bytes : List UInt8}
    {before after : Store}
    {created : Bool}
    (succeeds : (create path bytes).Succeeds before created after) :
    Keeps before after [] ∧
      (created = true → before.block? path = none ∧ after.block? path = some bytes) := by
  have keeps := keeps_create path bytes before
  rw [succeeds] at keeps
  refine ⟨keeps, ?_⟩
  change (if before.outage.writes = true then _ else _) = (Except.ok created, after) at succeeds
  split at succeeds
  · simp at succeeds
  · split at succeeds
    · simp only [Prod.mk.injEq, Except.ok.injEq] at succeeds
      obtain ⟨rfl, rfl⟩ := succeeds
      simp
    · next free =>
      simp only [Prod.mk.injEq, Except.ok.injEq] at succeeds
      obtain ⟨rfl, rfl⟩ := succeeds
      refine fun _ => ⟨by simpa using free, ?_⟩
      change (before.insert path bytes).block? path = some bytes
      rw [block?_insert, if_pos rfl]

/-- Deleting gives up at most the block at its path, whether it succeeds or not. -/
theorem keeps_delete
    (path : String)
    (store : Store) :
    Keeps store ((delete path).outcome store).2 [path] := by
  change Keeps store (Prod.snd (if store.outage.deletes = true then _ else _)) [path]
  split
  · exact ⟨rfl, rfl, rfl, Nat.le_succ _, fun _ _ _ held => held⟩
  · refine ⟨rfl, rfl, rfl, Nat.le_succ _, ?_⟩
    intro other bytes free held
    rw [List.mem_singleton] at free
    exact (block?_erase_of_ne free).trans held

end Store

namespace SpillArea

/-- A path is drawn and written to. If it was free the block is there; otherwise it is up to what
comes next to write the block. -/
theorem writes_of_succeeds_draw
    {bytes : List UInt8}
    {next : String → Step SpillArea String}
    {before after : SpillArea}
    {path : String}
    (succeeds : (do
      let drawn ← onStore Store.drawPath
      let created ← onStore (Store.create drawn bytes)
      if created then return drawn else next drawn : Step SpillArea String).Succeeds before path after)
    (later : ∀ drawn between, (next drawn).Succeeds between path after →
      between.store.Writes after.store path bytes) :
    before.store.Writes after.store path bytes := by
  simp only [onStore, Step.succeeds_bind, Step.succeeds_focus] at succeeds
  obtain ⟨drawn, _, ⟨_, draw, rfl⟩, created, _, ⟨store, create, rfl⟩, rest⟩ := succeeds
  obtain ⟨drawKeeps, same⟩ := Store.succeeds_drawPath draw
  obtain ⟨createKeeps, fresh⟩ := Store.succeeds_create create
  cases created with
  | false =>
      rw [if_neg Bool.false_ne_true] at rest
      exact (drawKeeps.trans createKeeps).writes (later _ _ rest)
  | true =>
      rw [if_pos rfl, Step.succeeds_pure] at rest
      obtain ⟨rfl, rfl⟩ := rest
      obtain ⟨free, stored⟩ := fresh rfl
      exact ⟨drawKeeps.trans createKeeps, same drawn ▸ free, stored⟩

/-- A new block takes a path that was free. -/
theorem succeeds_createBlock
    {bytes : List UInt8}
    {retries : Nat}
    {before after : SpillArea}
    {path : String}
    (succeeds : (createBlock bytes retries).Succeeds before path after) :
    before.store.Writes after.store path bytes := by
  induction retries generalizing before with
  | zero =>
      rw [createBlock] at succeeds
      refine writes_of_succeeds_draw succeeds ?_
      intro drawn between failed
      exact absurd failed (Step.succeeds_fail _ _ _ _)
  | succ retries inductionHypothesis =>
      rw [createBlock] at succeeds
      exact writes_of_succeeds_draw succeeds fun _ _ => inductionHypothesis

/-- Writing chunks writes the bytes of their block to the path that is handed out. -/
theorem writes_of_succeeds_spill
    {declaration : Declaration}
    {chunks : List Chunk}
    {before after : SpillArea}
    {block : Block}
    (succeeds : (spill declaration chunks).Succeeds before block after) :
    before.store.Writes after.store block.path
      (bytesOf before.store.format before.spiller.compression declaration chunks) := by
  simp only [spill, Step.succeeds_bind, Step.succeeds_get, Step.succeeds_pure, record,
    Step.succeeds_modify] at succeeds
  obtain ⟨_, _, ⟨rfl, rfl⟩, path, created, create, _, recorded, rfl, rfl, rfl⟩ := succeeds
  obtain ⟨keeps, free, stored⟩ := succeeds_createBlock create
  exact ⟨keeps, free, stored⟩

/-- Writing chunks of one schema keeps all blocks and adds one, at a path that was free, which is
read as those of the chunks that have rows. -/
theorem succeeds_spill
    {declaration : Declaration}
    {chunks : List Chunk}
    {before after : SpillArea}
    {block : Block}
    (succeeds : (spill declaration chunks).Succeeds before block after)
    (faithful : before.store.damage = [])
    (fitting : ∀ chunk ∈ chunks, chunk.schema = declaration.schema) :
    before.store.Keeps after.store [] ∧
      before.store.block? block.path = none ∧
      after.store.chunksAt? declaration block.path = some (chunks.filter (!·.isEmpty)) := by
  obtain ⟨keeps, free, stored⟩ := writes_of_succeeds_spill succeeds
  refine ⟨keeps, free, ?_⟩
  rw [← keeps.format] at stored
  exact Store.chunksAt?_of_block? (keeps.damage.trans faithful) stored
    (decodeBlock_bytesOf block.path (Body.readsBack_of_fitting fitting) declaration.same_self rfl)

/-- What is read back is what the store holds at the path of the block, and reading changes no
block. -/
theorem succeeds_restore
    {declaration : Declaration}
    {block : Block}
    {before after : SpillArea}
    {chunks : List Chunk}
    (succeeds : (restore declaration block).Succeeds before chunks after) :
    before.store.Keeps after.store [] ∧
      before.store.chunksAt? declaration block.path = some chunks := by
  simp only [restore, onStore, record, Step.succeeds_bind, Step.succeeds_get, Step.succeeds_focus,
    Step.succeeds_ofExcept, Step.succeeds_modify, Step.succeeds_pure, Store.succeeds_read_iff,
    mapError_eq_ok_iff] at succeeds
  obtain ⟨_, _, ⟨rfl, rfl⟩, _, _, ⟨_, ⟨_, ⟨stored, found, rfl⟩, rfl⟩, rfl⟩, _, _, ⟨decoded, rfl⟩, _, _,
    rfl, rfl, rfl⟩ := succeeds
  refine ⟨Store.keeps_tick _, ?_⟩
  simp [Store.chunksAt?, found, decoded, Except.toOption]

/-- Reading a block succeeds while the store can be read. -/
theorem exists_succeeds_restore
    {declaration : Declaration}
    {block : Block}
    {before : SpillArea}
    {chunks : List Chunk}
    (readable : before.store.outage.reads = false)
    (held : before.store.chunksAt? declaration block.path = some chunks) :
    ∃ after, (restore declaration block).Succeeds before chunks after := by
  obtain ⟨stored, found, decoded⟩ := Store.exists_decodeBlock_of_chunksAt? held
  simp only [restore, onStore, record, Step.succeeds_bind, Step.succeeds_get, Step.succeeds_focus,
    Step.succeeds_ofExcept, Step.succeeds_modify, Step.succeeds_pure, Store.succeeds_read_iff,
    mapError_eq_ok_iff]
  exact ⟨_, _, _, ⟨rfl, rfl⟩, _, _, ⟨_, ⟨readable, ⟨stored, found, rfl⟩, rfl⟩, rfl⟩, _, _, ⟨decoded, rfl⟩,
    (), _, rfl, rfl, rfl⟩

/-- Giving up a block touches no other path, whether it succeeds or not. -/
theorem keeps_release
    (block : Block)
    (area : SpillArea) :
    area.store.Keeps ((release block).outcome area).2.store [block.path] :=
  Store.keeps_delete block.path area.store

end SpillArea

end Spillway
