import Spillway.Proofs.Partition.Bytes
import Spillway.Proofs.Partition.Rows
import Spillway.Proofs.Spill.Effects

/-!
# The blocks of a partition

A partition lists the blocks that it has in the store. Whatever is done with it, and whichever calls of
the store fail meanwhile, the store has the blocks that the partition lists and those that it has for
others, and no more, as long as blocks can be deleted. A partition without counted rows has nothing,
unless rows were refused halfway.
-/

namespace Spillway

/-- Blocks can be deleted at every call. -/
def Store.Deletes (store : Store) : Prop :=
  ∀ call, (store.outageAt call).deletes = false

theorem Store.Later.deletes
    {before after : Store}
    (later : before.Later after)
    (deletes : before.Deletes) :
    after.Deletes := by
  unfold Store.Deletes
  rw [later.outageAt]
  exact deletes

namespace Partition

open Step

/-- The store has the blocks of the partition, each listed once, and those for the rest. -/
structure Owns
    (rest : String → Prop)
    (holding : Holding) : Prop where
  held : ∀ path, holding.area.store.block? path ≠ none ↔ rest path ∨ path ∈ holding.partition.paths
  apart : ∀ path ∈ holding.partition.paths, ¬ rest path
  distinct : holding.partition.paths.Nodup

/-- The partition is as it was made, but for its mode. -/
def Cleared (partition : Partition) : Prop :=
  partition = { empty partition.schema with spilled := partition.spilled }

/-- The partition has nothing unless it has counted rows. -/
def Counted (partition : Partition) : Prop :=
  partition.rowCount = 0 → partition.Cleared

theorem Cleared.paths_eq
    {partition : Partition}
    (cleared : partition.Cleared) :
    partition.paths = [] := by
  rw [cleared]
  rfl

theorem Cleared.memoryBytes_eq
    {partition : Partition}
    (cleared : partition.Cleared) :
    partition.memoryBytes = 0 := by
  rw [cleared]
  rfl

theorem Cleared.chunks_eq
    {partition : Partition}
    (cleared : partition.Cleared) :
    partition.chunks = [] := by
  rw [cleared]
  rfl

variable {rest : String → Prop} {holding : Holding} {partition : Partition} {area : SpillArea}

theorem Owns.same
    (owns : Owns rest holding)
    (same : holding.area.store.Same area.store)
    (paths : partition.paths = holding.partition.paths) :
    Owns rest ⟨partition, area⟩ where
  held path := by
    rw [same.block, paths]
    exact owns.held path
  apart := paths ▸ owns.apart
  distinct := paths ▸ owns.distinct

/-- A block that was free becomes one of the partition. -/
theorem Owns.gains
    {path : String}
    (owns : Owns rest holding)
    (gains : holding.area.store.Gains area.store path)
    (paths : partition.paths = holding.partition.paths ++ [path]) :
    Owns rest ⟨partition, area⟩ := by
  have free : ¬ (rest path ∨ path ∈ holding.partition.paths) :=
    fun taken => (owns.held path).mpr taken gains.free
  rw [not_or] at free
  refine ⟨fun other => ?_, fun other member => ?_, ?_⟩
  · dsimp only
    rw [paths, List.mem_append, List.mem_singleton]
    by_cases same : other = path
    · subst same
      simp [gains.taken]
    · rw [gains.others other same, owns.held other]
      simp [same]
  · dsimp only at member
    rw [paths, List.mem_append, List.mem_singleton] at member
    obtain there | rfl := member
    · exact owns.apart other there
    · exact free.1
  · dsimp only
    rw [paths, List.nodup_append]
    refine ⟨owns.distinct, by simp, fun other there another member same => ?_⟩
    exact free.2 (List.mem_singleton.mp member ▸ same ▸ there)

/-- Where all blocks of the partition were deleted, those for the rest are left. -/
theorem Owns.loses
    (owns : Owns rest holding)
    (gone : ∀ path, area.store.block? path =
      if path ∈ holding.partition.paths then none else holding.area.store.block? path)
    (paths : partition.paths = []) :
    Owns rest ⟨partition, area⟩ where
  held path := by
    dsimp only
    rw [gone path, paths]
    split
    case isTrue member => simp [owns.apart path member]
    case isFalse outside => simp [owns.held path, outside]
  apart := by simp [paths]
  distinct := by simp [paths]

/-! ## What becomes of a holding -/

/-- The blocks that the partition lists are still those that it has in the store. -/
structure Tidies (before after : Holding) : Prop where
  later : before.area.store.Later after.area.store
  schema_eq : after.partition.schema = before.partition.schema
  fresh : before.area.store.Fresh → after.area.store.Fresh
  owns : before.area.store.Deletes → ∀ rest, Owns rest before → Owns rest after

/-- The partition has nothing but what it lists and counts, unless rows were refused. -/
structure Changes (met : Bool) (before after : Holding) : Prop extends Tidies before after where
  counted : met = true → before.partition.Counted → after.partition.Counted

theorem Tidies.trans
    {first second third : Holding}
    (one : Tidies first second)
    (another : Tidies second third) :
    Tidies first third where
  later := one.later.trans another.later
  schema_eq := another.schema_eq.trans one.schema_eq
  fresh := another.fresh ∘ one.fresh
  owns deletes rest owns :=
    another.owns (one.later.deletes deletes) rest (one.owns deletes rest owns)

theorem Tidies.of_same
    (same : holding.area.store.Same area.store)
    (schema_eq : partition.schema = holding.partition.schema)
    (paths : partition.paths = holding.partition.paths) :
    Tidies holding ⟨partition, area⟩ :=
  ⟨same.toLater, schema_eq, same.fresh, fun _ _ owns => owns.same same paths⟩

theorem Tidies.of_gains
    {path : String}
    (gains : holding.area.store.Gains area.store path)
    (schema_eq : partition.schema = holding.partition.schema)
    (paths : partition.paths = holding.partition.paths ++ [path]) :
    Tidies holding ⟨partition, area⟩ :=
  ⟨gains.toLater, schema_eq, gains.fresh, fun _ _ owns => owns.gains gains paths⟩

theorem Tidies.refl (holding : Holding) : Tidies holding holding :=
  .of_same (.refl _) rfl rfl

instance : Composes Changes where
  refl _ holding := ⟨.refl holding, fun _ counted => counted⟩
  trans one another := ⟨one.toTidies.trans another.toTidies, fun met counted =>
    another.counted met (one.counted rfl counted)⟩

/-- The partition is not changed, and no block is. -/
theorem Changes.of_same
    (met : Bool)
    (same : holding.area.store.Same area.store) :
    Changes met holding { holding with area } :=
  ⟨.of_same same rfl rfl, fun _ counted => counted⟩

theorem Tidies.failed
    {after : Holding}
    (tidies : Tidies holding after) :
    Changes false holding after :=
  ⟨tidies, fun met => absurd met (by decide)⟩

/-- The tail becomes one block more, or nothing changes. -/
theorem ends_flush_tidies (holding : Holding) :
    flush.Ends holding
      (fun _ after => Tidies holding after ∧
        after.partition.rowCount = holding.partition.rowCount)
      fun _ after => Tidies holding after := by
  rw [flush, ends_bind, ends_current, ends_ite]
  refine ⟨fun _ => ⟨.refl holding, rfl⟩, fun _ => ?_⟩
  rw [ends_bind, onArea, ends_focus]
  refine (SpillArea.ends_spill _ _ holding.area).mono (fun block area gains => ⟨?_, rfl⟩)
    fun _ area unwritten => .of_same unwritten.1 rfl rfl
  exact .of_gains gains rfl (List.map_append ..)

theorem follows_append (chunk : Chunk) : (append chunk).Follows Changes := by
  intro holding
  rw [append, ends_ite]
  refine ⟨fun _ => Composes.refl true holding, fun rows => ?_⟩
  have counts : ∀ {after : Holding}, Tidies holding after → Changes true holding { after with
      partition := { after.partition with rowCount := after.partition.rowCount + chunk.length } } := by
    intro after tidies
    refine ⟨⟨tidies.later, tidies.schema_eq, tidies.fresh, fun deletes rest owns => ?_⟩,
      fun _ _ none => ?_⟩
    · exact (tidies.owns deletes rest owns).same (.refl _) rfl
    · have some : 0 < chunk.length := List.length_pos_iff.mpr (by simpa [Chunk.isEmpty] using rows)
      dsimp only at none
      omega
  rw [ends_bind, ends_current]
  dsimp only
  rw [ends_ite]
  refine ⟨fun _ => ?_, fun _ => counts (.of_same (.refl _) rfl rfl)⟩
  rw [ends_bind, appendPending, ends_bind, change, ends_modify, ends_bind, ends_get, ends_ite]
  have pends : Tidies holding { holding with partition := { holding.partition with
      pending := holding.partition.pending ++ [chunk]
      pendingBytes := holding.partition.pendingBytes + chunk.logicalBytes
      spilledBytes := holding.partition.spilledBytes + chunk.logicalBytes } } :=
    .of_same (.refl _) rfl rfl
  refine ⟨fun _ => ?_, fun _ => counts pends⟩
  exact (ends_flush_tidies _).mono (fun _ _ flushed => counts (pends.trans flushed.1))
    fun _ _ tidies => (pends.trans tidies).failed

theorem follows_spill : spill.Follows Changes := by
  intro holding
  rw [spill, ends_bind, ends_current, ends_ite]
  refine ⟨fun _ => Composes.refl true holding, fun _ => ?_⟩
  dsimp only
  rw [ends_ite]
  refine ⟨fun _ => ⟨.of_same (.refl _) rfl rfl, fun _ counted none => ?_⟩, fun some => ?_⟩
  · obtain ⟨partition, area⟩ := holding
    have cleared : partition.Cleared := counted none
    unfold Cleared at cleared ⊢
    dsimp only
    rw [cleared]
    rfl
  · rw [ends_bind, onArea, ends_focus]
    refine (SpillArea.ends_spill _ _ holding.area).mono (fun block area gains => ?_)
      fun _ _ unwritten => .of_same false unwritten.1
    refine ⟨.of_gains gains rfl (List.map_append ..), fun _ counted none => ?_⟩
    rw [(counted none).chunks_eq] at some
    exact absurd rfl some

theorem ends_restoreBlocks
    {schema : Schema}
    (blocks : List Block)
    (area : SpillArea) :
    (restoreBlocks schema blocks).Ends area (fun _ after => area.store.Same after.store)
      fun _ after => area.store.Same after.store := by
  induction blocks generalizing area with
  | nil => exact .refl _
  | cons block blocks inductionHypothesis =>
      rw [restoreBlocks, ends_bind, ends_mapFailure]
      refine (SpillArea.ends_restore schema block area).mono (fun _ between first => ?_)
        fun _ _ failed => failed.1
      rw [ends_bind]
      exact (inductionHypothesis between).mono (fun _ _ rest => first.trans rest)
        fun _ _ rest => first.trans rest

/-- The partition stays as it is, and so do the blocks of the store, whether the step fails or not. -/
def Reads (_met : Bool) (before after : Holding) : Prop :=
  after.partition = before.partition ∧ before.area.store.Same after.area.store

theorem reads_reload : reload.Follows Reads := by
  intro holding
  rw [reload, ends_bind, ends_current, ends_bind, onArea, ends_focus]
  exact (ends_restoreBlocks _ holding.area).mono (fun _ _ same => ⟨rfl, same⟩)
    fun _ _ same => ⟨rfl, same⟩

theorem reads_restoreBlock (position : Nat) : (restoreBlock position).Follows Reads := by
  intro holding
  rw [restoreBlock, ends_bind, ends_current, ends_ite]
  refine ⟨fun _ => ⟨rfl, .refl _⟩, fun _ => ?_⟩
  split
  · rw [onArea, ends_focus, ends_mapFailure]
    exact (SpillArea.ends_restore _ _ _).mono (fun _ _ same => ⟨rfl, same⟩)
      fun _ _ failed => ⟨rfl, failed.1⟩
  · exact ⟨rfl, .refl _⟩

theorem Reads.changes
    {met : Bool}
    {before after : Holding}
    (reads : Reads met before after) :
    Changes met before after := by
  obtain ⟨partition, area⟩ := after
  obtain ⟨rfl, same⟩ : partition = before.partition ∧ before.area.store.Same area.store := reads
  exact .of_same met same

theorem follows_reload : reload.Follows Changes :=
  reads_reload.mono fun _ _ _ reads => Reads.changes reads

theorem follows_restoreBlock (position : Nat) : (restoreBlock position).Follows Changes :=
  (reads_restoreBlock position).mono fun _ _ _ reads => Reads.changes reads

/-- Blocks are deleted as far as the store deletes blocks, and no others are. -/
theorem ends_deleteBlocks_gone
    (blocks : List Block)
    (area : SpillArea) :
    (deleteBlocks blocks).Ends area
      (fun _ after => area.store.Later after.store ∧ (area.store.Fresh → after.store.Fresh) ∧
        (area.store.Deletes → ∀ path, after.store.block? path =
          if path ∈ blocks.map Block.path then none else area.store.block? path))
      fun _ _ => False := by
  induction blocks generalizing area with
  | nil =>
      exact ⟨(Store.Same.refl _).toLater, id, fun _ path => by simp⟩
  | cons block blocks inductionHypothesis =>
      rw [deleteBlocks, ends_bind, ends_attempt]
      refine (SpillArea.ends_release block area).mono (fun _ between loses => ?_)
        fun _ between failed => ?_
      · refine (inductionHypothesis between).mono (fun _ after rest => ?_) fun _ _ => id
        obtain ⟨later, fresh, gone⟩ := rest
        refine ⟨loses.toLater.trans later, fresh ∘ loses.fresh, fun deletes path => ?_⟩
        rw [gone (loses.toLater.deletes deletes) path]
        by_cases here : path = block.path
        · simp [here, loses.gone]
        · simp [here, loses.others path here]
      · obtain ⟨same, refused⟩ := failed
        refine (inductionHypothesis between).mono (fun _ after rest => ?_) fun _ _ => id
        obtain ⟨later, fresh, _⟩ := rest
        refine ⟨same.toLater.trans later, fresh ∘ same.fresh, fun deletes => ?_⟩
        exact absurd (refused.symm.trans (deletes _)) (by decide)

/-- Releasing clears the partition and cannot fail. -/
theorem ends_release_cleared (holding : Holding) :
    release.Ends holding
      (fun _ after => Changes true holding after ∧
        after.partition = { empty holding.partition.schema with spilled := holding.partition.spilled })
      fun _ _ => False := by
  unfold release releaseBlocks
  simp only [ends_bind]
  refine (ends_focus _ _ _).mpr ((ends_deleteBlocks_gone _ _).mono (fun _ area deleted => ?_)
    fun _ _ => id)
  obtain ⟨later, fresh, gone⟩ := deleted
  refine ⟨⟨⟨later, rfl, fresh, fun deletes rest owns => ?_⟩, fun _ _ _ => rfl⟩, rfl⟩
  exact owns.loses (gone deletes) rfl

theorem follows_release : release.Follows Changes :=
  fun holding => (ends_release_cleared holding).mono (fun _ _ released => released.1)
    fun _ _ => False.elim

/-! ## In a reliable store -/

section Reliable

variable (reliable : holding.area.store.Reliable)
include reliable

theorem serves_flush : flush.Serves holding := by
  rw [flush, Serves, ends_bind, ends_current, ends_ite]
  refine ⟨fun _ => trivial, fun _ => ?_⟩
  rw [ends_bind, onArea, ends_focus]
  exact (SpillArea.serves_spill reliable _ _).mono (fun _ _ _ => trivial) fun _ _ => id

theorem serves_append (chunk : Chunk) : (append chunk).Serves holding := by
  rw [append, Serves, ends_ite]
  refine ⟨fun _ => trivial, fun _ => ?_⟩
  rw [ends_bind, ends_current]
  dsimp only
  rw [ends_ite]
  refine ⟨fun _ => ?_, fun _ => trivial⟩
  rw [ends_bind, appendPending, ends_bind, change, ends_modify, ends_bind, ends_get, ends_ite]
  refine ⟨fun _ => ?_, fun _ => trivial⟩
  exact (serves_flush (by exact reliable)).mono (fun _ _ _ => trivial) fun _ _ => id

theorem serves_spill : spill.Serves holding := by
  rw [spill, Serves, ends_bind, ends_current, ends_ite]
  refine ⟨fun _ => trivial, fun _ => ?_⟩
  dsimp only
  rw [ends_ite]
  refine ⟨fun _ => trivial, fun _ => ?_⟩
  rw [ends_bind, onArea, ends_focus]
  exact (SpillArea.serves_spill reliable _ _).mono (fun _ _ _ => trivial) fun _ _ => id

end Reliable

end Partition
end Spillway
