import Spillway.Partition.Partition
import Spillway.Proofs.Data.Numbers
import Spillway.Proofs.Spill.Block

/-!
# The rows of a partition

A partition stores a run of rows when its blocks, its pending tail and its chunks in memory hold them
in that order, and it holds them when it also counts them right. Appending adds rows at the end,
spilling and flushing move rows without changing them, releasing drops them all, and reading gives
them back. No operation on a partition touches blocks that are not its own.
-/

namespace Spillway

namespace Partition

variable {precise : Prop}

/-- The paths of the blocks of a partition. -/
def paths (partition : Partition) : List String :=
  partition.blocks.map Block.path

/-- What the blocks of a partition hold, block by block. -/
def Stored
    (store : Store)
    (partition : Partition)
    (stored : List (List Chunk)) : Prop :=
  List.Forall₂
    (fun block chunks => store.chunksAt? partition.schema block.path = some chunks)
    partition.blocks stored

/-- What is read as one block: the blocks, and the pending tail unless it is empty. -/
def segments
    (partition : Partition)
    (stored : List (List Chunk)) : List (List Chunk) :=
  stored ++ if partition.pending.isEmpty then [] else [partition.pending]

/-- The partition stores the rows in order. In memory it has no blocks, and spilled it has no chunks
in memory. Where this is to be `precise`, the rows of every chunk have different numbers. -/
structure Stores
    (precise : Prop)
    (store : Store)
    (schema : Schema)
    (partition : Partition)
    (rows : List Row) : Prop where
  schema_eq : partition.schema = schema
  fitting : ∀ chunk ∈ partition.pending ++ partition.chunks, chunk.Suits precise schema
  chunks_eq : partition.spilled = true → partition.chunks = []
  blocks_eq : partition.spilled = false → partition.blocks = [] ∧ partition.pending = []
  content : ∃ stored, partition.Stored store stored ∧
    (stored.flatten ++ partition.pending ++ partition.chunks).flatMap Chunk.rows = rows ∧
    (precise → ∀ chunk ∈ stored.flatten, chunk.Numbered)

/-- The partition stores the rows in order and counts them right. -/
structure Holds
    (precise : Prop)
    (store : Store)
    (schema : Schema)
    (partition : Partition)
    (rows : List Row) : Prop extends Stores precise store schema partition rows where
  counted : partition.rowCount = rows.length

/-- What is known of a partition whose rows have different numbers is known of any. -/
theorem Holds.relax
    {store : Store}
    {schema : Schema}
    {partition : Partition}
    {rows : List Row}
    (holds : partition.Holds precise store schema rows) :
    partition.Holds False store schema rows := by
  obtain ⟨stored, read, content, -⟩ := holds.content
  exact
    { holds with
      fitting := fun chunk member => (holds.fitting chunk member).relax
      content := ⟨stored, read, content, False.elim⟩ }

/-- What is read back of the blocks is one thing only. -/
theorem Stored.unique
    {store : Store}
    {partition : Partition}
    {stored more : List (List Chunk)}
    (one : partition.Stored store stored)
    (another : partition.Stored store more) :
    stored = more :=
  Relator.RightUnique.forall₂ (fun _ _ _ read again => Option.some.inj (read.symm.trans again)) one another

/-- A partition stores its rows and no others. -/
theorem Stores.unique
    {also : Prop}
    {store : Store}
    {schema other : Schema}
    {partition : Partition}
    {rows more : List Row}
    (one : partition.Stores precise store schema rows)
    (another : partition.Stores also store other more) :
    rows = more := by
  obtain ⟨stored, read, rfl, -⟩ := one.content
  obtain ⟨again, readAgain, rfl, -⟩ := another.content
  rw [read.unique readAgain]

/-- Only the rows that are counted depend on the count. -/
theorem Stores.recount
    {store : Store}
    {schema : Schema}
    {partition : Partition}
    {rows : List Row}
    (stores : partition.Stores precise store schema rows)
    (rowCount : Nat) :
    Stores precise store schema { partition with rowCount } rows :=
  ⟨stores.schema_eq, stores.fitting, stores.chunks_eq, stores.blocks_eq, stores.content⟩

theorem Stored.append
    {store : Store}
    {partition : Partition}
    {stored : List (List Chunk)}
    {block : Block}
    {chunks : List Chunk}
    (held : partition.Stored store stored)
    (read : store.chunksAt? partition.schema block.path = some chunks) :
    List.Forall₂
      (fun block chunks => store.chunksAt? partition.schema block.path = some chunks)
      (partition.blocks ++ [block]) (stored ++ [chunks]) :=
  List.rel_append held (.cons read .nil)

/-- Blocks that are still there hold what they held. -/
theorem Stored.elsewhere
    {before after : Store}
    {partition : Partition}
    {stored : List (List Chunk)}
    (held : partition.Stored before stored)
    (format : after.format = before.format)
    (damage : after.damage = before.damage)
    (kept : ∀ path ∈ partition.paths, ∀ bytes,
      before.block? path = some bytes → after.block? path = some bytes) :
    partition.Stored after stored := by
  unfold Stored at held ⊢
  have inside : ∀ block ∈ partition.blocks, ∀ bytes,
      before.block? block.path = some bytes → after.block? block.path = some bytes :=
    fun block member => kept block.path (List.mem_map_of_mem member)
  generalize partition.blocks = blocks at held inside
  induction held with
  | nil => exact .nil
  | cons read _ inductionHypothesis =>
      have first := Store.chunksAt?_of_kept format damage (inside _ List.mem_cons_self) read
      exact .cons first (inductionHypothesis fun block member =>
        inside block (List.mem_cons_of_mem _ member))

theorem Stored.keeps
    {before after : Store}
    {partition : Partition}
    {stored : List (List Chunk)}
    {givenUp : List String}
    (held : partition.Stored before stored)
    (keeps : before.Keeps after givenUp)
    (apart : ∀ path ∈ partition.paths, path ∉ givenUp) :
    partition.Stored after stored :=
  held.elsewhere keeps.format keeps.damage fun path member bytes => keeps.block path bytes (apart path member)

theorem Stores.keeps
    {before after : Store}
    {schema : Schema}
    {partition : Partition}
    {rows : List Row}
    {givenUp : List String}
    (stores : partition.Stores precise before schema rows)
    (keeps : before.Keeps after givenUp)
    (apart : ∀ path ∈ partition.paths, path ∉ givenUp) :
    partition.Stores precise after schema rows := by
  obtain ⟨stored, held, same⟩ := stores.content
  exact { stores with content := ⟨stored, held.keeps keeps apart, same⟩ }

theorem Holds.keeps
    {before after : Store}
    {schema : Schema}
    {partition : Partition}
    {rows : List Row}
    {givenUp : List String}
    (holds : partition.Holds precise before schema rows)
    (keeps : before.Keeps after givenUp)
    (apart : ∀ path ∈ partition.paths, path ∉ givenUp) :
    partition.Holds precise after schema rows :=
  ⟨holds.toStores.keeps keeps apart, holds.counted⟩

/-- All blocks of a partition are in the store. -/
theorem Stores.block?_ne_none
    {store : Store}
    {schema : Schema}
    {partition : Partition}
    {rows : List Row}
    (stores : partition.Stores precise store schema rows)
    {path : String}
    (member : path ∈ partition.paths) :
    store.block? path ≠ none := by
  obtain ⟨stored, held, _⟩ := stores.content
  obtain ⟨block, inside, rfl⟩ := List.mem_map.mp member
  obtain ⟨chunks, _, read⟩ := exists_left_of_forall₂ held.flip inside
  obtain ⟨bytes, found⟩ := Store.exists_block?_of_chunksAt? read
  simp [found]

theorem holds_empty
    (store : Store)
    (schema : Schema) :
    (empty schema).Holds precise store schema [] where
  schema_eq := rfl
  fitting := by simp [empty]
  chunks_eq := fun _ => rfl
  blocks_eq := fun _ => ⟨rfl, rfl⟩
  content := ⟨[], .nil, rfl, by simp⟩
  counted := rfl

theorem holds_emptySpilled
    (store : Store)
    (schema : Schema) :
    (emptySpilled schema).Holds precise store schema [] where
  schema_eq := rfl
  fitting := by simp [emptySpilled]
  chunks_eq := fun _ => rfl
  blocks_eq := fun _ => ⟨rfl, rfl⟩
  content := ⟨[], .nil, rfl, by simp⟩
  counted := rfl

theorem Holds.isEmpty_iff
    {store : Store}
    {schema : Schema}
    {partition : Partition}
    {rows : List Row}
    (holds : partition.Holds precise store schema rows) :
    partition.isEmpty = true ↔ rows = [] := by
  simp [isEmpty, holds.counted, List.length_eq_zero_iff]

end Partition

/-- A holding after an operation on its partition, which gave up the blocks at the given paths. New
blocks have paths that were free before, and a spilled partition stays spilled. -/
structure Holding.Moves
    (before after : Holding)
    (givenUp : List String) : Prop where
  keeps : before.area.store.Keeps after.area.store givenUp
  fresh : ∀ path ∈ after.partition.paths,
    path ∈ before.partition.paths ∨ before.area.store.block? path = none
  spilled : before.partition.spilled = true → after.partition.spilled = true

theorem Holding.Moves.refl (holding : Holding) : holding.Moves holding [] :=
  ⟨.refl _, fun _ member => .inl member, id⟩

namespace Partition

theorem succeeds_current_iff
    {before after : Holding}
    {partition : Partition} :
    current.Succeeds before partition after ↔ before.partition = partition ∧ before = after := by
  unfold current
  simp only [Step.succeeds_bind, Step.succeeds_get, Step.succeeds_pure]
  constructor
  · rintro ⟨_, _, ⟨rfl, rfl⟩, rfl, rfl⟩
    exact ⟨rfl, rfl⟩
  · rintro ⟨rfl, rfl⟩
    exact ⟨_, _, ⟨rfl, rfl⟩, rfl, rfl⟩

/-- Writing the pending tail keeps the rows: they are in one block more. -/
theorem succeeds_flush
    {schema : Schema}
    {before after : Holding}
    {rows : List Row}
    (succeeds : flush.Succeeds before () after)
    (faithful : before.area.store.damage = [])
    (stores : before.partition.Stores precise before.area.store schema rows)
    (spilled : before.partition.spilled = true) :
    after.partition.Stores precise after.area.store schema rows ∧ before.Moves after [] ∧
      after.partition.rowCount = before.partition.rowCount := by
  simp only [flush, onArea, change, Step.succeeds_bind, succeeds_current_iff] at succeeds
  obtain ⟨_, _, ⟨rfl, rfl⟩, succeeds⟩ := succeeds
  split at succeeds
  · simp only [Step.succeeds_pure, true_and] at succeeds
    subst succeeds
    exact ⟨stores, .refl _, rfl⟩
  · simp only [Step.succeeds_bind, Step.succeeds_focus, Step.succeeds_modify] at succeeds
    obtain ⟨block, _, ⟨area, spill, rfl⟩, rfl⟩ := succeeds
    obtain ⟨stored, held, same, all⟩ := stores.content
    have fitting : ∀ chunk ∈ before.partition.pending, chunk.Suits precise before.partition.schema := by
      intro chunk member
      rw [stores.schema_eq]
      exact stores.fitting chunk (List.mem_append_left _ member)
    obtain ⟨keeps, free, read⟩ := SpillArea.succeeds_spill spill faithful
      fun chunk member => (fitting chunk member).schema_eq
    have none := stores.chunks_eq spilled
    have moved := held.keeps keeps fun _ _ => List.not_mem_nil
    refine ⟨⟨stores.schema_eq, ?_, stores.chunks_eq, ?_, _, moved.append read, ?_, ?_⟩,
      ⟨keeps, ?_, id⟩, rfl⟩
    · intro chunk member
      exact stores.fitting chunk (List.mem_append_right _ member)
    · intro inMemory
      exact absurd spilled (inMemory ▸ Bool.false_ne_true)
    · rw [← same, none]
      simp [SpillArea.flatMap_rows_filter]
    · intro is chunk member
      rw [List.flatten_append, List.flatten_singleton, List.mem_append] at member
      obtain old | new := member
      · exact all is chunk old
      · exact (fitting chunk (List.mem_of_mem_filter new)).numbered is
    · intro path member
      change path ∈ (before.partition.blocks ++ [block]).map Block.path at member
      rw [List.map_append, List.mem_append, List.map_singleton, List.mem_singleton] at member
      obtain old | rfl := member
      · exact .inl old
      · exact .inr free

/-- The rows of a partition to which a chunk of its schema is added at the end, in memory or in the
pending tail. -/
theorem Stores.add
    {store : Store}
    {schema : Schema}
    {partition : Partition}
    {rows : List Row}
    {chunk : Chunk}
    (stores : partition.Stores precise store schema rows)
    (suits : chunk.Suits precise schema) :
    (partition.spilled = true →
      ∀ pendingBytes spilledBytes,
        Stores precise store schema
          { partition with pending := partition.pending ++ [chunk], pendingBytes, spilledBytes }
          (rows ++ chunk.rows)) ∧
    (partition.spilled = false →
      ∀ memoryBytes,
        Stores precise store schema { partition with chunks := partition.chunks ++ [chunk], memoryBytes }
          (rows ++ chunk.rows)) := by
  obtain ⟨stored, held, same, all⟩ := stores.content
  constructor
  · intro spilled pendingBytes spilledBytes
    have none := stores.chunks_eq spilled
    refine ⟨stores.schema_eq, ?_, stores.chunks_eq, ?_, stored, held, ?_, all⟩
    · intro other member
      simp only [none, List.append_nil, List.mem_append, List.mem_singleton] at member
      obtain old | rfl := member
      · exact stores.fitting other (List.mem_append_left _ old)
      · exact suits
    · intro inMemory
      exact absurd spilled (by simp [show partition.spilled = false from inMemory])
    · rw [← same]
      simp [none]
  · intro inMemory memoryBytes
    refine ⟨stores.schema_eq, ?_, ?_, stores.blocks_eq, stored, held, ?_, all⟩
    · intro other member
      simp only [List.mem_append, List.mem_singleton] at member
      obtain pending | old | rfl := member
      · exact stores.fitting other (List.mem_append_left _ pending)
      · exact stores.fitting other (List.mem_append_right _ old)
      · exact suits
    · intro spilled
      exact absurd (show partition.spilled = true from spilled) (by simp [inMemory])
    · rw [← same]
      simp

/-- Rows appended to the pending tail are stored, whether or not the tail is written at once. -/
theorem succeeds_appendPending
    {schema : Schema}
    {before after : Holding}
    {rows : List Row}
    {chunk : Chunk}
    (succeeds : (appendPending chunk).Succeeds before () after)
    (faithful : before.area.store.damage = [])
    (stores : before.partition.Stores precise before.area.store schema rows)
    (suits : chunk.Suits precise schema)
    (spilled : before.partition.spilled = true) :
    after.partition.Stores precise after.area.store schema (rows ++ chunk.rows) ∧ before.Moves after [] ∧
      after.partition.rowCount = before.partition.rowCount := by
  simp only [appendPending, change, Step.succeeds_bind, Step.succeeds_modify,
    Step.succeeds_get] at succeeds
  obtain ⟨_, _, rfl, _, _, ⟨rfl, rfl⟩, succeeds⟩ := succeeds
  have added := (stores.add suits).1 spilled
  split at succeeds
  · obtain ⟨flushed, moves, same⟩ := succeeds_flush succeeds faithful (added _ _) spilled
    exact ⟨flushed, ⟨moves.keeps, moves.fresh, moves.spilled⟩, same⟩
  · simp only [Step.succeeds_pure, true_and] at succeeds
    subst succeeds
    exact ⟨added _ _, ⟨.refl _, fun _ member => .inl member, id⟩, rfl⟩

/-- Appending a chunk of the schema adds its rows at the end. -/
theorem succeeds_append
    {schema : Schema}
    {before after : Holding}
    {rows : List Row}
    {chunk : Chunk}
    (succeeds : (append chunk).Succeeds before () after)
    (faithful : before.area.store.damage = [])
    (holds : before.partition.Holds precise before.area.store schema rows)
    (suits : chunk.Suits precise schema) :
    after.partition.Holds precise after.area.store schema (rows ++ chunk.rows) ∧ before.Moves after [] := by
  have counted : before.partition.rowCount + chunk.length = (rows ++ chunk.rows).length := by
    rw [holds.counted, List.length_append, Chunk.length]
  simp only [append] at succeeds
  split at succeeds
  · next empty =>
    have none : chunk.rows = [] := List.isEmpty_iff.mp empty
    simp only [Step.succeeds_pure, true_and] at succeeds
    subst succeeds
    rw [none, List.append_nil]
    exact ⟨holds, .refl _⟩
  · simp only [Step.succeeds_bind, succeeds_current_iff] at succeeds
    obtain ⟨_, _, ⟨rfl, rfl⟩, succeeds⟩ := succeeds
    split at succeeds
    · next spilled =>
      simp only [Step.succeeds_bind, change, Step.succeeds_modify] at succeeds
      obtain ⟨_, between, appended, rfl⟩ := succeeds
      obtain ⟨stores, moves, same⟩ :=
        succeeds_appendPending appended faithful holds.toStores suits spilled
      exact ⟨⟨stores.recount _, same ▸ counted⟩, moves.keeps, moves.fresh, moves.spilled⟩
    · next inMemory =>
      simp only [Step.succeeds_bind, appendInMemory, change, Step.succeeds_modify] at succeeds
      obtain ⟨_, between, rfl, rfl⟩ := succeeds
      have added := (holds.toStores.add suits).2 (Bool.eq_false_iff.mpr inMemory)
      exact ⟨⟨(added _).recount _, counted⟩, .refl _, fun _ member => .inl member, id⟩

/-- A partition in memory holds its rows in its chunks. -/
theorem Stores.chunks_of_inMemory
    {store : Store}
    {schema : Schema}
    {partition : Partition}
    {rows : List Row}
    (stores : partition.Stores precise store schema rows)
    (inMemory : partition.spilled = false) :
    partition.chunks.flatMap Chunk.rows = rows ∧
      ∀ chunk ∈ partition.chunks, chunk.Suits precise schema := by
  obtain ⟨noBlocks, noPending⟩ := stores.blocks_eq inMemory
  obtain ⟨stored, held, same, -⟩ := stores.content
  rw [Stored, noBlocks, List.forall₂_nil_left_iff] at held
  rw [held, noPending] at same
  exact ⟨same, fun chunk member => stores.fitting chunk (List.mem_append_right _ member)⟩

/-- Spilling keeps the rows, and gives up no block. -/
theorem succeeds_spill
    {schema : Schema}
    {before after : Holding}
    {rows : List Row}
    {freed : Nat}
    (succeeds : spill.Succeeds before freed after)
    (faithful : before.area.store.damage = [])
    (holds : before.partition.Holds precise before.area.store schema rows) :
    after.partition.Holds precise after.area.store schema rows ∧ before.Moves after [] := by
  simp only [spill, Step.succeeds_bind, succeeds_current_iff] at succeeds
  obtain ⟨_, _, ⟨rfl, rfl⟩, succeeds⟩ := succeeds
  split at succeeds
  · simp only [Step.succeeds_pure] at succeeds
    obtain ⟨_, rfl⟩ := succeeds
    exact ⟨holds, .refl _⟩
  · next inMemory =>
    have inMemory : before.partition.spilled = false := Bool.eq_false_iff.mpr inMemory
    obtain ⟨noBlocks, noPending⟩ := holds.blocks_eq inMemory
    obtain ⟨same, _⟩ := holds.toStores.chunks_of_inMemory inMemory
    split at succeeds
    · next none =>
      have none : before.partition.chunks = [] := List.isEmpty_iff.mp none
      simp only [change, Step.succeeds_bind, Step.succeeds_modify, Step.succeeds_pure] at succeeds
      obtain ⟨_, _, rfl, _, rfl⟩ := succeeds
      refine ⟨⟨⟨holds.schema_eq, holds.fitting, fun _ => none, ?_, [], ?_, ?_, by simp⟩, holds.counted⟩,
        .refl _, fun _ member => .inl member, fun _ => rfl⟩
      · exact fun inMemory => absurd inMemory (by simp)
      · simp [Stored, noBlocks]
      · simp [noPending, same]
    · simp only [onArea, change, Step.succeeds_bind, Step.succeeds_focus, Step.succeeds_modify,
        Step.succeeds_pure] at succeeds
      obtain ⟨block, _, ⟨area, spilled, rfl⟩, _, _, rfl, _, _, rfl, _, rfl⟩ := succeeds
      have fitting : ∀ chunk ∈ before.partition.chunks,
          chunk.Suits precise before.partition.schema := by
        intro chunk member
        rw [holds.schema_eq]
        exact holds.fitting chunk (List.mem_append_right _ member)
      obtain ⟨keeps, free, read⟩ := SpillArea.succeeds_spill spilled faithful
        fun chunk member => (fitting chunk member).schema_eq
      refine ⟨⟨⟨holds.schema_eq, ?_, fun _ => rfl, ?_,
        [before.partition.chunks.filter (!·.isEmpty)], ?_, ?_, ?_⟩, holds.counted⟩, keeps, ?_,
        fun _ => rfl⟩
      · simp [noPending]
      · exact fun inMemory => absurd inMemory (by simp)
      · simpa [Stored, noBlocks] using read
      · simp [noPending, SpillArea.flatMap_rows_filter, same]
      · intro is chunk member
        rw [List.flatten_singleton] at member
        exact (fitting chunk (List.mem_of_mem_filter member)).numbered is
      · intro path member
        simp only [paths, noBlocks, List.nil_append, List.map_cons, List.map_nil,
          List.mem_singleton] at member
        exact .inr (member ▸ free)

/-- Blocks that were in a store are read from it later, one after the other, as what they held, and
none changes meanwhile. -/
theorem succeeds_restoreBlocks
    {store : Store}
    {schema : Schema}
    {blocks : List Block}
    {before after : SpillArea}
    {chunks : List Chunk}
    {stored : List (List Chunk)}
    (succeeds : (restoreBlocks schema blocks).Succeeds before chunks after)
    (kept : store.Keeps before.store [])
    (held : List.Forall₂
      (fun block chunks => store.chunksAt? schema block.path = some chunks) blocks stored) :
    before.store.Keeps after.store [] ∧ chunks = stored.flatten := by
  induction held generalizing before chunks with
  | nil =>
      simp only [restoreBlocks, Step.succeeds_pure] at succeeds
      obtain ⟨rfl, rfl⟩ := succeeds
      exact ⟨.refl _, rfl⟩
  | cons read held inductionHypothesis =>
      simp only [restoreBlocks, Step.succeeds_bind, Step.succeeds_mapFailure,
        Step.succeeds_pure] at succeeds
      obtain ⟨first, between, restored, others, _, rest, rfl, rfl⟩ := succeeds
      obtain ⟨keeps, found⟩ := SpillArea.succeeds_restore restored
      obtain ⟨later, rfl⟩ := inductionHypothesis rest (kept.trans keeps)
      rw [kept.chunksAt? List.not_mem_nil read, Option.some.injEq] at found
      exact ⟨keeps.trans later, by rw [found, List.flatten_cons]⟩

theorem Stores.suits_of_stored
    {store : Store}
    {schema : Schema}
    {partition : Partition}
    {rows : List Row}
    {stored : List (List Chunk)}
    (stores : partition.Stores precise store schema rows)
    (held : partition.Stored store stored)
    {segment : List Chunk}
    (member : segment ∈ stored) :
    ∀ chunk ∈ segment, chunk.Suits precise schema := by
  intro chunk inside
  obtain ⟨block, _, read⟩ := exists_left_of_forall₂ held member
  obtain ⟨again, readAgain, -, all⟩ := stores.content
  obtain rfl := held.unique readAgain
  exact ⟨stores.schema_eq ▸ Store.schema_of_chunksAt? read chunk inside,
    fun is => all is chunk (List.mem_flatten_of_mem member inside)⟩

/-- Reloading yields the rows in order, as chunks of the schema, and changes no partition and no
block. -/
theorem succeeds_reload
    {schema : Schema}
    {before after : Holding}
    {rows : List Row}
    {chunks : List Chunk}
    (succeeds : reload.Succeeds before chunks after)
    (stores : before.partition.Stores precise before.area.store schema rows) :
    chunks.flatMap Chunk.rows = rows ∧ (∀ chunk ∈ chunks, chunk.Suits precise schema) ∧
      before.partition = after.partition ∧ before.area.store.Keeps after.area.store [] := by
  simp only [reload, onArea, Step.succeeds_bind, succeeds_current_iff, Step.succeeds_focus,
    Step.succeeds_pure] at succeeds
  obtain ⟨_, _, ⟨rfl, rfl⟩, restored, _, ⟨area, read, rfl⟩, rfl, rfl⟩ := succeeds
  obtain ⟨stored, held, same, -⟩ := stores.content
  obtain ⟨keeps, rfl⟩ := succeeds_restoreBlocks read (.refl _) held
  refine ⟨same, ?_, rfl, keeps⟩
  intro chunk member
  rw [List.append_assoc, List.mem_append] at member
  obtain inBlock | others := member
  · obtain ⟨segment, inside, there⟩ := List.mem_flatten.mp inBlock
    exact stores.suits_of_stored held inside chunk there
  · exact stores.fitting chunk others

/-- Blocks can be read one after the other as long as their store can be read. -/
theorem exists_succeeds_restoreBlocks
    {store : Store}
    {schema : Schema}
    {blocks : List Block}
    {before : SpillArea}
    {stored : List (List Chunk)}
    (readable : before.store.Readable)
    (kept : store.Keeps before.store [])
    (held : List.Forall₂
      (fun block chunks => store.chunksAt? schema block.path = some chunks) blocks stored) :
    ∃ after, (restoreBlocks schema blocks).Succeeds before stored.flatten after := by
  induction held generalizing before with
  | nil => exact ⟨before, by simp [restoreBlocks]⟩
  | cons read held inductionHypothesis =>
      obtain ⟨between, restored⟩ := SpillArea.exists_succeeds_restore (readable.now)
        (kept.chunksAt? List.not_mem_nil read)
      obtain ⟨keeps, _⟩ := SpillArea.succeeds_restore restored
      obtain ⟨after, rest⟩ := inductionHypothesis (readable.keeps keeps) (kept.trans keeps)
      refine ⟨after, ?_⟩
      simp only [restoreBlocks, Step.succeeds_bind, Step.succeeds_mapFailure, Step.succeeds_pure]
      exact ⟨_, between, restored, _, after, rest, by simp, rfl⟩

/-- A partition can be reloaded as long as its store can be read. -/
theorem exists_succeeds_reload
    {schema : Schema}
    {before : Holding}
    {rows : List Row}
    (readable : before.area.store.Readable)
    (stores : before.partition.Stores precise before.area.store schema rows) :
    ∃ chunks after, reload.Succeeds before chunks after := by
  obtain ⟨stored, held, _⟩ := stores.content
  obtain ⟨area, read⟩ := exists_succeeds_restoreBlocks readable (.refl _) held
  simp only [reload, onArea, Step.succeeds_bind, succeeds_current_iff, Step.succeeds_focus,
    Step.succeeds_pure]
  exact ⟨_, _, _, _, ⟨rfl, rfl⟩, _, _, ⟨area, read, rfl⟩, rfl, rfl⟩

theorem length_segments
    {store : Store}
    {partition : Partition}
    {stored : List (List Chunk)}
    (held : partition.Stored store stored) :
    (partition.segments stored).length = partition.blockCount := by
  rw [segments, blockCount, List.length_append, held.length_eq]
  split <;> rfl

theorem flatten_segments
    (partition : Partition)
    (stored : List (List Chunk)) :
    (partition.segments stored).flatten = stored.flatten ++ partition.pending := by
  rw [segments, List.flatten_append]
  split
  · next none => simp [List.isEmpty_iff.mp none]
  · simp

/-- Read block by block, a spilled partition yields its rows in order, as chunks of the schema. -/
theorem Stores.exists_segments
    {store : Store}
    {schema : Schema}
    {partition : Partition}
    {rows : List Row}
    (stores : partition.Stores precise store schema rows)
    (spilled : partition.spilled = true) :
    ∃ stored, partition.Stored store stored ∧
      (partition.segments stored).flatten.flatMap Chunk.rows = rows ∧
      ∀ segment ∈ partition.segments stored, ∀ chunk ∈ segment, chunk.Suits precise schema := by
  obtain ⟨stored, held, same, -⟩ := stores.content
  refine ⟨stored, held, ?_, ?_⟩
  · rw [flatten_segments, ← same, stores.chunks_eq spilled, List.append_nil]
  · intro segment member chunk inside
    rw [segments, List.mem_append] at member
    obtain written | last := member
    · exact stores.suits_of_stored held written chunk inside
    · split at last
      · exact absurd last List.not_mem_nil
      · rw [List.mem_singleton.mp last] at inside
        exact stores.fitting chunk (List.mem_append_left _ inside)

/-- Reading one block of a partition yields what is at its position. -/
theorem succeeds_restoreBlock
    {position : Nat}
    {before after : Holding}
    {chunks : List Chunk}
    {stored : List (List Chunk)}
    (succeeds : (restoreBlock position).Succeeds before chunks after)
    (held : before.partition.Stored before.area.store stored) :
    (before.partition.segments stored)[position]? = some chunks ∧
      before.partition = after.partition ∧ before.area.store.Keeps after.area.store [] := by
  simp only [restoreBlock, Step.succeeds_bind, succeeds_current_iff] at succeeds
  obtain ⟨_, _, ⟨rfl, rfl⟩, succeeds⟩ := succeeds
  split at succeeds
  · next last =>
    obtain ⟨rfl, tail⟩ := last
    rw [Step.succeeds_pure] at succeeds
    obtain ⟨rfl, rfl⟩ := succeeds
    refine ⟨?_, rfl, .refl _⟩
    rw [segments, if_neg tail, held.length_eq, List.getElem?_concat_length]
  · split at succeeds
    · next block found =>
      simp only [onArea, Step.succeeds_focus, Step.succeeds_mapFailure] at succeeds
      obtain ⟨area, restored, rfl⟩ := succeeds
      obtain ⟨keeps, read⟩ := SpillArea.succeeds_restore restored
      obtain ⟨inside, rfl⟩ := List.getElem?_eq_some_iff.mp found
      have stays : position < stored.length := held.length_eq ▸ inside
      have there := held.get inside stays
      simp only [List.get_eq_getElem] at there
      rw [read, Option.some.injEq] at there
      refine ⟨?_, rfl, keeps⟩
      rw [segments, List.getElem?_append_left stays, List.getElem?_eq_getElem stays, there]
    · exact absurd succeeds (Step.succeeds_fail _ _ _ _)

/-- A block can be read as long as the store can be read. -/
theorem exists_succeeds_restoreBlock
    {before : Holding}
    {stored : List (List Chunk)}
    {position : Nat}
    (readable : before.area.store.Readable)
    (held : before.partition.Stored before.area.store stored)
    (inside : position < (before.partition.segments stored).length) :
    ∃ after, (restoreBlock position).Succeeds before
      (before.partition.segments stored)[position] after := by
  simp only [restoreBlock, Step.succeeds_bind, succeeds_current_iff]
  by_cases last : position = before.partition.blocks.length ∧ ¬ before.partition.pending.isEmpty
  · obtain ⟨rfl, tail⟩ := last
    refine ⟨before, _, _, ⟨rfl, rfl⟩, ?_⟩
    rw [if_pos ⟨rfl, tail⟩, Step.succeeds_pure]
    refine ⟨?_, rfl⟩
    simp only [segments, if_neg tail, held.length_eq, List.getElem_concat_length]
  · have written : position < stored.length := by
      rw [length_segments held, blockCount, held.length_eq] at inside
      rw [held.length_eq] at last
      split at inside
      · omega
      · next tail =>
        have different : position ≠ stored.length := fun same => last ⟨same, tail⟩
        omega
    have there := held.get (held.length_eq ▸ written) written
    simp only [List.get_eq_getElem] at there
    obtain ⟨area, restored⟩ := SpillArea.exists_succeeds_restore readable.now there
    have found : (before.partition.segments stored)[position] = stored[position] :=
      List.getElem_append_left written
    refine ⟨{ before with area }, _, _, ⟨rfl, rfl⟩, ?_⟩
    rw [if_neg last, List.getElem?_eq_getElem (held.length_eq ▸ written), found]
    simp only [onArea, Step.succeeds_focus, Step.succeeds_mapFailure]
    exact ⟨area, restored, rfl⟩

/-- Deleting blocks gives up no others, whether it succeeds or not. -/
theorem keeps_deleteBlocks
    (blocks : List Block)
    {before after : SpillArea}
    (succeeds : (deleteBlocks blocks).Succeeds before () after) :
    before.store.Keeps after.store (blocks.map Block.path) := by
  induction blocks generalizing before with
  | nil =>
      simp only [deleteBlocks, Step.succeeds_pure, true_and] at succeeds
      subst succeeds
      exact .refl _
  | cons block blocks inductionHypothesis =>
      simp only [deleteBlocks, Step.succeeds_bind, Step.succeeds_attempt] at succeeds
      obtain ⟨result, between, released, rest⟩ := succeeds
      have first := SpillArea.keeps_release block before
      rw [released] at first
      exact first.trans (inductionHypothesis rest)

/-- Releasing drops all rows and gives up the blocks of the partition alone. -/
theorem succeeds_release
    {schema : Schema}
    {before after : Holding}
    {rows : List Row}
    (succeeds : release.Succeeds before () after)
    (holds : before.partition.Holds precise before.area.store schema rows) :
    after.partition.Holds precise after.area.store schema [] ∧
      before.Moves after before.partition.paths := by
  simp only [release, releaseBlocks, change, onArea, Step.succeeds_bind, succeeds_current_iff,
    Step.succeeds_modify, Step.succeeds_focus] at succeeds
  obtain ⟨_, _, rfl, _, _, ⟨_, _, ⟨rfl, rfl⟩, _, _, rfl, area, deleted, rfl⟩, rfl⟩ := succeeds
  have keeps := keeps_deleteBlocks _ deleted
  refine ⟨⟨⟨holds.schema_eq, ?_, fun _ => rfl, fun _ => ⟨rfl, rfl⟩, [], .nil, rfl, by simp⟩, rfl⟩, keeps, ?_,
    id⟩
  · simp
  · intro path member
    simp [paths] at member

end Partition

end Spillway
