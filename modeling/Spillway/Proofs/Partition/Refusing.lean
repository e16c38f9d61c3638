import Spillway.Proofs.Partition.Sequence
import Spillway.Proofs.Spill.Narrowing

/-!
# What a refused chunk leaves in a partition

A chunk that is appended to a spilled partition is in the pending tail before the tail is written, and
its rows are counted after that. If writing fails the chunk is refused, but it stays in the tail: it
takes up bytes, it is read back, and only the count of rows does not know of it. So in every state a
reload yields the rows that are counted and those of the chunks that were refused since the last release.
-/

namespace Spillway
namespace Partition

open Step

/-! ## One refusal -/

/-- The chunk is at the end of the pending tail of a spilled partition, and its rows are not counted. -/
structure Pends
    (chunk : Chunk)
    (before after : Partition) : Prop where
  spilled : before.spilled = true
  full : chunk.isEmpty = false
  eq : after = { before with
    pending := before.pending ++ [chunk]
    pendingBytes := before.pendingBytes + chunk.logicalBytes
    spilledBytes := before.spilledBytes + chunk.logicalBytes }

/-- A tail that cannot be written stays as it is. -/
theorem ends_flush_count (holding : Holding) :
    flush.Ends holding (fun _ after => after.partition.rowCount = holding.partition.rowCount)
      fun _ after => after.partition = holding.partition := by
  rw [flush, ends_bind, ends_current, ends_ite]
  refine ⟨fun _ => rfl, fun _ => ?_⟩
  rw [ends_bind, onArea, ends_focus]
  exact .of_forall (fun _ _ => rfl) fun _ _ => rfl

/-- A chunk is counted if it is accepted, and stays in the tail if it is refused. -/
theorem ends_append_count
    (chunk : Chunk)
    (holding : Holding) :
    (append chunk).Ends holding
      (fun _ after => after.partition.rowCount = holding.partition.rowCount + chunk.length)
      fun _ after => Pends chunk holding.partition after.partition := by
  rw [append, ends_ite]
  refine ⟨fun none => ?_, fun some => ?_⟩
  · have zero : chunk.length = 0 := List.isEmpty_iff_length_eq_zero.mp none
    rw [zero]
    rfl
  · have full : chunk.isEmpty = false := Bool.eq_false_iff.mpr some
    rw [ends_bind, ends_current]
    dsimp only
    rw [ends_ite]
    refine ⟨fun spilled => ?_, fun _ => rfl⟩
    rw [ends_bind, appendPending, ends_bind, change, ends_modify, ends_bind, ends_get, ends_ite]
    refine ⟨fun _ => ?_, fun _ => rfl⟩
    refine (ends_flush_count _).mono (fun _ after same => ?_) fun _ _ same => ⟨spilled, full, same⟩
    exact congrArg (· + chunk.length) same

/-- How two partitions of which the second one has refused a chunk compare, whatever the spill area is
when they are read. -/
structure Trace
    (chunk : Chunk)
    (before after : Partition) : Prop where
  rowCount : after.rowCount = before.rowCount
  isEmpty : after.isEmpty = before.isEmpty
  spilled : after.spilled = before.spilled
  size : after.estimatedSize = before.estimatedSize + chunk.logicalBytes
  blockCount : after.blockCount = before.blocks.length + 1
  reload : ∀ area, (reload.outcome ⟨after, area⟩).1 =
    (reload.outcome ⟨before, area⟩).1.map (· ++ [chunk])
  blocks : ∀ area, ∀ position < before.blocks.length,
    ((restoreBlock position).outcome ⟨after, area⟩).1 =
      ((restoreBlock position).outcome ⟨before, area⟩).1
  tail : ∀ area, ((restoreBlock before.blocks.length).outcome ⟨after, area⟩).1 =
    .ok (before.pending ++ [chunk])

/-- Reloading depends on the blocks that are listed, the tail, and the chunks in memory. -/
theorem reload_outcome
    (partition : Partition)
    (area : SpillArea) :
    (reload.outcome ⟨partition, area⟩).1 =
      ((restoreBlocks partition.schema partition.blocks).outcome area).1.map fun restored =>
        restored ++ partition.pending ++ partition.chunks := by
  rw [reload, outcome_bind]
  change (Step.outcome (onArea (restoreBlocks partition.schema partition.blocks) >>= _) _).1 = _
  rw [outcome_bind, onArea, outcome_focus]
  cases (restoreBlocks partition.schema partition.blocks).outcome area with
  | mk result after => cases result <;> rfl

/-- A block that was written is read without a look at the tail. -/
theorem restoreBlock_outcome
    {partition : Partition}
    {position : Nat}
    (area : SpillArea)
    (inside : position < partition.blocks.length) :
    ((restoreBlock position).outcome ⟨partition, area⟩).1 =
      (((SpillArea.restore partition.schema partition.blocks[position]).mapFailure
        (wording "restore spill block")).outcome area).1 := by
  have written : ¬ (position = partition.blocks.length ∧ ¬ partition.pending.isEmpty = true) :=
    fun last => absurd last.1 (Nat.ne_of_lt inside)
  rw [restoreBlock, outcome_bind]
  change (Step.outcome (if position = partition.blocks.length ∧ ¬ partition.pending.isEmpty = true then _
    else _) _).1 = _
  rw [if_neg written, List.getElem?_eq_getElem inside]
  dsimp only
  rw [onArea, outcome_focus]

/-- The tail is read as the block after the last one that was written. -/
theorem restoreBlock_outcome_tail
    {partition : Partition}
    (area : SpillArea)
    (some : partition.pending.isEmpty = false) :
    ((restoreBlock partition.blocks.length).outcome ⟨partition, area⟩).1 = .ok partition.pending := by
  rw [restoreBlock, outcome_bind]
  change (Step.outcome (if partition.blocks.length = partition.blocks.length ∧
    ¬ partition.pending.isEmpty = true then _ else _) _).1 = _
  rw [if_pos ⟨rfl, by rw [some]; decide⟩]
  rfl

/-- A chunk in the tail is all that a refusal leaves. -/
theorem Pends.trace
    {chunk : Chunk}
    {before after : Partition}
    (pends : Pends chunk before after)
    (unloaded : before.chunks = []) :
    Trace chunk before after := by
  have longer : (before.pending ++ [chunk]).isEmpty = false := by simp
  rw [pends.eq]
  refine ⟨rfl, rfl, rfl, (Nat.add_assoc ..).symm, ?_, fun area => ?_, fun area position inside => ?_,
    fun area => restoreBlock_outcome_tail area longer⟩
  · rw [blockCount, longer]
    rfl
  · rw [reload_outcome, reload_outcome, unloaded]
    cases ((restoreBlocks before.schema before.blocks).outcome area).1 with
    | error status => rfl
    | ok restored => simp [Except.map]
  · rw [restoreBlock_outcome area inside]
    exact restoreBlock_outcome area (by exact inside)

/-! ## What the partition has on record -/

/-- The block was written for the chunks. -/
def Wrote
    (store : Store)
    (schema : Schema)
    (block : Block)
    (chunks : List Chunk) : Prop :=
  ∃ compression, store.block? block.path =
    some (SpillArea.bytesOf store.format compression schema chunks)

/-- Of every chunk that was offered, whether it was accepted or refused, the partition has what is left of
it under the schema, in order. -/
structure Records
    (schema : Schema)
    (offered : List Chunk)
    (holding : Holding) : Prop where
  faithful : holding.area.store.damage = []
  schema_eq : holding.partition.schema = schema
  full : ∀ chunk ∈ offered, chunk.isEmpty = false
  unloaded : holding.partition.spilled = true → holding.partition.chunks = []
  unspilled : holding.partition.spilled = false →
    holding.partition.blocks = [] ∧ holding.partition.pending = []
  content : ∃ written,
    List.Forall₂ (Wrote holding.area.store schema) holding.partition.blocks written ∧
    List.Forall₂ (Chunk.Survives schema) offered
      (written.flatten ++ holding.partition.pending ++ holding.partition.chunks)

variable {schema : Schema} {offered : List Chunk} {holding : Holding}

/-- Blocks that are still there are those that were written. -/
theorem wrote_elsewhere
    {before after : Store}
    {blocks : List Block}
    {written : List (List Chunk)}
    (wrote : List.Forall₂ (Wrote before schema) blocks written)
    (format : after.format = before.format)
    (kept : ∀ path ∈ blocks.map Block.path, ∀ bytes,
      before.block? path = some bytes → after.block? path = some bytes) :
    List.Forall₂ (Wrote after schema) blocks written := by
  induction wrote with
  | nil => exact .nil
  | cons first _ inductionHypothesis =>
      obtain ⟨compression, stored⟩ := first
      refine .cons ⟨compression, format ▸ kept _ List.mem_cons_self _ stored⟩ (inductionHypothesis ?_)
      exact fun path member => kept path (List.mem_cons_of_mem _ member)

theorem Records.elsewhere
    {area : SpillArea}
    (records : Records schema offered holding)
    (format : area.store.format = holding.area.store.format)
    (faithful : area.store.damage = [])
    (kept : ∀ path ∈ holding.partition.paths, ∀ bytes,
      holding.area.store.block? path = some bytes → area.store.block? path = some bytes) :
    Records schema offered { holding with area } := by
  obtain ⟨written, wrote, survive⟩ := records.content
  exact { records with faithful, content := ⟨written, wrote_elsewhere wrote format kept, survive⟩ }

theorem Records.keeps
    {area : SpillArea}
    (records : Records schema offered holding)
    (keeps : holding.area.store.Keeps area.store []) :
    Records schema offered { holding with area } :=
  records.elsewhere keeps.format (keeps.damage.trans records.faithful) fun path _ bytes =>
    keeps.block path bytes List.not_mem_nil

/-- Reading leaves everything on record. -/
theorem Records.reads
    {met : Bool}
    {after : Holding}
    (records : Records schema offered holding)
    (reads : Reads met holding after) :
    Records schema offered after := by
  obtain ⟨partition, area⟩ := after
  obtain ⟨rfl, same⟩ : partition = holding.partition ∧ holding.area.store.Same area.store := reads
  exact records.keeps same.keeps

/-- Chunks that are written as a block are there, or nothing changes. -/
theorem ends_spill_wrote
    (schema : Schema)
    (chunks : List Chunk)
    (area : SpillArea) :
    (SpillArea.spill schema chunks).Ends area
      (fun block after => area.store.Keeps after.store [] ∧ Wrote after.store schema block chunks)
      fun _ after => area.store.Keeps after.store [] :=
  (SpillArea.ends_spill schema chunks area).and_succeeds.mono (fun _ _ written =>
    have writes := SpillArea.writes_of_succeeds_spill written.1
    ⟨writes.keeps, _, writes.keeps.format.symm ▸ writes.stored⟩) fun _ _ unwritten => unwritten.1.keeps

/-- Once the tail is a block, or while it cannot be written, everything is on record. -/
theorem Records.ends_flush
    (records : Records schema offered holding) :
    flush.Ends holding (fun _ => Records schema offered) fun _ => Records schema offered := by
  rw [flush, ends_bind, ends_current, ends_ite]
  refine ⟨fun _ => records, fun some => ?_⟩
  rw [ends_bind, onArea, ends_focus, records.schema_eq]
  refine (ends_spill_wrote _ _ _).mono (fun block area result => ?_) fun _ _ keeps => records.keeps keeps
  obtain ⟨keeps, wrote⟩ := result
  obtain ⟨written, before, survive⟩ := (records.keeps keeps).content
  refine { records.keeps keeps with
    unspilled := fun inMemory => ?_
    content := ⟨_, List.rel_append before (.cons wrote .nil), by simpa using survive⟩ }
  rw [(records.unspilled inMemory).2] at some
  exact absurd rfl some

/-- A partition that was in memory has everything on record in its blocks once it is marked as
spilled. -/
theorem Records.marked
    {blocks : List Block}
    {written : List (List Chunk)}
    {area : SpillArea}
    (records : Records schema offered holding)
    (inMemory : holding.partition.spilled = false)
    (faithful : area.store.damage = [])
    (wrote : List.Forall₂ (Wrote area.store schema) blocks written)
    (same : written.flatten = holding.partition.chunks) :
    Records schema offered {
      partition := { holding.partition with
        blocks
        chunks := []
        spilledBytes := holding.partition.spilledBytes + holding.partition.memoryBytes
        memoryBytes := 0
        spilled := true }
      area } := by
  obtain ⟨noBlocks, noPending⟩ := records.unspilled inMemory
  obtain ⟨before, wroteBefore, survive⟩ := records.content
  rw [noBlocks, List.forall₂_nil_left_iff] at wroteBefore
  refine { records with
    faithful
    unloaded := fun _ => rfl
    unspilled := fun unspilled => absurd unspilled (by simp)
    content := ⟨written, wrote, ?_⟩ }
  rw [wroteBefore, ← same] at survive
  simpa [noPending] using survive

/-- Once the chunks in memory are a block, or while they cannot be written, everything is on record. -/
theorem Records.ends_spill
    (records : Records schema offered holding) :
    Partition.spill.Ends holding (fun _ => Records schema offered) fun _ => Records schema offered := by
  rw [Partition.spill, ends_bind, ends_current, ends_ite]
  refine ⟨fun _ => records, fun unspilled => ?_⟩
  have inMemory := Bool.eq_false_iff.mpr unspilled
  obtain ⟨noBlocks, _⟩ := records.unspilled inMemory
  dsimp only
  rw [ends_ite]
  refine ⟨fun none => ?_, fun _ => ?_⟩
  · have empty : holding.partition.chunks = [] := List.isEmpty_iff.mp none
    have wrote : List.Forall₂ (Wrote holding.area.store schema) holding.partition.blocks [] :=
      noBlocks ▸ .nil
    have marked := records.marked inMemory records.faithful wrote empty.symm
    rw [← empty] at marked
    exact marked
  · rw [ends_bind, onArea, ends_focus, records.schema_eq]
    refine (ends_spill_wrote _ _ _).mono (fun block area result => ?_) fun _ _ keeps => records.keeps keeps
    obtain ⟨keeps, wrote⟩ := result
    have alone : List.Forall₂ (Wrote area.store schema) (holding.partition.blocks ++ [block])
        [holding.partition.chunks] := by
      rw [noBlocks]
      exact .cons wrote .nil
    exact records.marked inMemory (keeps.damage.trans records.faithful) alone
      List.flatten_singleton

/-- A chunk that is offered is on record afterwards, whether it is accepted or refused. -/
theorem Records.ends_append
    (records : Records schema offered holding)
    (chunk : Chunk) :
    (append chunk).Ends holding (fun _ => Records schema (listedAfter offered chunk))
      fun _ => Records schema (listedAfter offered chunk) := by
  rw [append, ends_ite, listedAfter]
  refine ⟨fun none => by rw [if_pos none]; exact records, fun some => ?_⟩
  rw [if_neg some, ends_bind, ends_current]
  obtain ⟨written, wrote, survive⟩ := records.content
  have full : ∀ other ∈ offered ++ [chunk], other.isEmpty = false := by
    simpa [or_imp, forall_and] using And.intro records.full some
  have survives : List.Forall₂ (Chunk.Survives schema) [chunk] [chunk] := .cons (.refl chunk) .nil
  have recount : ∀ {after : Holding}, Records schema (offered ++ [chunk]) after →
      Records schema (offered ++ [chunk]) { after with
        partition := { after.partition with rowCount := after.partition.rowCount + chunk.length } } :=
    fun records => ⟨records.faithful, records.schema_eq, records.full, records.unloaded,
      records.unspilled, records.content⟩
  dsimp only
  rw [ends_ite]
  refine ⟨fun spilled => ?_, fun unspilled => ?_⟩
  · have pends : Records schema (offered ++ [chunk]) { holding with
        partition := { holding.partition with
          pending := holding.partition.pending ++ [chunk]
          pendingBytes := holding.partition.pendingBytes + chunk.logicalBytes
          spilledBytes := holding.partition.spilledBytes + chunk.logicalBytes } } := by
      refine { records with
        full
        unspilled := fun inMemory => absurd (spilled.symm.trans inMemory) (by decide)
        content := ⟨written, wrote, ?_⟩ }
      rw [records.unloaded spilled, List.append_nil] at survive
      simpa [records.unloaded spilled] using List.rel_append survive survives
    rw [ends_bind, appendPending, ends_bind, change, ends_modify, ends_bind, ends_get, ends_ite]
    exact ⟨fun _ => pends.ends_flush.mono (fun _ _ => recount) fun _ _ => id, fun _ => recount pends⟩
  · have loads : Records schema (offered ++ [chunk]) { holding with
        partition := { holding.partition with
          chunks := holding.partition.chunks ++ [chunk]
          memoryBytes := holding.partition.memoryBytes + chunk.logicalBytes } } := by
      refine { records with
        full
        unloaded := fun spilled => absurd spilled unspilled
        content := ⟨written, wrote, ?_⟩ }
      simpa using List.rel_append survive survives
    rw [ends_bind, appendInMemory, change, ends_modify]
    exact recount loads

/-! ## Reading -/

/-- A block is read as what is left of the chunks with rows that it was written for. -/
theorem Wrote.survive
    {store : Store}
    {block : Block}
    {chunks found : List Chunk}
    (wrote : Wrote store schema block chunks)
    (faithful : store.damage = [])
    (held : store.chunksAt? schema block.path = some found) :
    List.Forall₂ (Chunk.Survives schema) (chunks.filter (!·.isEmpty)) found := by
  obtain ⟨compression, stored⟩ := wrote
  obtain ⟨bytes, there, decoded⟩ := Store.exists_decodeBlock_of_chunksAt? held
  rw [stored, Option.some.injEq] at there
  subst there
  have undamaged : store.damaged block.path
      (SpillArea.bytesOf store.format compression schema chunks) =
        SpillArea.bytesOf store.format compression schema chunks := by
    rw [Store.damaged, faithful]
    rfl
  rw [undamaged] at decoded
  obtain ⟨_, _, _, _, body, _⟩ := SpillArea.decodeBlock_eq_ok_iff.mp decoded
  rw [SpillArea.drop_bytesOf] at body
  exact Body.survive_of_decode body

/-- A block of chunks that have rows and the schema is read as it was written. -/
theorem Wrote.held
    {store : Store}
    {block : Block}
    {chunks : List Chunk}
    (wrote : Wrote store schema block chunks)
    (faithful : store.damage = [])
    (proper : ∀ chunk ∈ chunks, chunk.schema = schema ∧ chunk.isEmpty = false) :
    store.chunksAt? schema block.path = some chunks := by
  obtain ⟨compression, stored⟩ := wrote
  have reads : Body.ReadsBack store.format schema chunks :=
    Body.readsBack_of_fitting fun chunk member => (proper chunk member).1
  have decoded : SpillArea.decodeBlock store.format schema block.path
      (SpillArea.bytesOf store.format compression schema chunks) = .ok (chunks.filter (!·.isEmpty)) :=
    SpillArea.decodeBlock_bytesOf block.path reads (Declaration.same_self _) rfl
  rw [List.filter_eq_self.mpr fun chunk member => by rw [(proper chunk member).2]; rfl] at decoded
  exact Store.chunksAt?_of_block? faithful stored decoded

theorem held_of_wrote
    {store : Store}
    {blocks : List Block}
    {written : List (List Chunk)}
    (faithful : store.damage = [])
    (wrote : List.Forall₂ (Wrote store schema) blocks written)
    (proper : ∀ chunk ∈ written.flatten, chunk.schema = schema ∧ chunk.isEmpty = false) :
    List.Forall₂ (fun block chunks => store.chunksAt? schema block.path = some chunks)
      blocks written := by
  induction wrote with
  | nil => exact .nil
  | cons first _ inductionHypothesis =>
      rw [List.flatten_cons] at proper
      have here := first.held faithful fun chunk member =>
        proper chunk (List.mem_append_left _ member)
      exact .cons here (inductionHypothesis fun chunk member =>
        proper chunk (List.mem_append_right _ member))

/-- Blocks are read as what is left of the chunks that were written, as long as all of them have rows. -/
theorem survive_of_restoreBlocks
    {blocks : List Block}
    {written : List (List Chunk)}
    {before after : SpillArea}
    {chunks : List Chunk}
    (reads : (restoreBlocks schema blocks).Succeeds before chunks after)
    (faithful : before.store.damage = [])
    (wrote : List.Forall₂ (Wrote before.store schema) blocks written)
    (full : ∀ chunk ∈ written.flatten, chunk.isEmpty = false) :
    List.Forall₂ (Chunk.Survives schema) written.flatten chunks := by
  induction blocks generalizing before written chunks with
  | nil =>
      rw [List.forall₂_nil_left_iff] at wrote
      rw [restoreBlocks, succeeds_pure] at reads
      rw [wrote, ← reads.1]
      exact .nil
  | cons block blocks inductionHypothesis =>
      obtain ⟨first, others, stored, wroteOthers, rfl⟩ := List.forall₂_cons_left_iff.mp wrote
      simp only [restoreBlocks, succeeds_bind, succeeds_mapFailure, succeeds_pure] at reads
      obtain ⟨found, between, restored, more, _, rest, rfl, rfl⟩ := reads
      obtain ⟨keeps, held⟩ := SpillArea.succeeds_restore restored
      rw [List.flatten_cons] at full ⊢
      have later := inductionHypothesis rest (keeps.damage.trans faithful)
        (wrote_elsewhere wroteOthers keeps.format fun path _ bytes => keeps.block path bytes List.not_mem_nil)
        fun chunk member => full chunk (List.mem_append_right _ member)
      have here := stored.survive faithful held
      rw [List.filter_eq_self.mpr fun chunk member => by
        rw [full chunk (List.mem_append_left _ member)]; rfl] at here
      exact List.rel_append here later

/-- A reload yields what is left of the chunks that were offered. -/
theorem Records.survive_of_reload
    {after : Holding}
    {chunks : List Chunk}
    (records : Records schema offered holding)
    (reads : reload.Succeeds holding chunks after) :
    List.Forall₂ (Chunk.Survives schema) offered chunks := by
  simp only [reload, onArea, succeeds_bind, succeeds_current_iff, succeeds_focus, succeeds_pure] at reads
  obtain ⟨_, _, ⟨rfl, rfl⟩, restored, _, ⟨area, reads, rfl⟩, rfl, rfl⟩ := reads
  obtain ⟨written, wrote, survive⟩ := records.content
  rw [records.schema_eq] at reads
  have full : ∀ chunk ∈ written.flatten, chunk.isEmpty = false := by
    intro chunk member
    obtain ⟨other, inside, survives⟩ := exists_left_of_forall₂ survive
      (List.mem_append_left _ (List.mem_append_left _ member))
    exact survives.isEmpty_eq.trans (records.full other inside)
  have read := survive_of_restoreBlocks reads records.faithful wrote full
  rw [List.append_assoc] at survive ⊢
  exact Chunk.survive_trans survive (List.rel_append read (Chunk.survive_refl _))

/-- What is left of the chunks is on record once it is back in memory, or while it cannot be read. -/
theorem Records.ends_unspill
    (records : Records schema offered holding) :
    unspill.Ends holding (fun _ => Records schema offered) fun _ => Records schema offered := by
  rw [unspill, ends_bind, ends_current, ends_ite]
  refine ⟨fun _ => records, fun _ => ?_⟩
  rw [ends_bind]
  refine (reads_reload holding).and_succeeds.mono (fun chunks between reloaded => ?_)
    fun _ _ reads => records.reads reads
  obtain ⟨reloaded, reads⟩ := reloaded
  have same := records.reads reads
  rw [ends_bind]
  refine ends_releaseBlocks.mono (fun _ after released => ?_) fun _ _ => False.elim
  obtain ⟨damage, rest⟩ := released
  rw [ends_bind, ends_change, rest]
  exact {
    faithful := damage.trans same.faithful
    schema_eq := same.schema_eq
    full := same.full
    unloaded := fun spilled => absurd spilled (by simp)
    unspilled := fun _ => ⟨rfl, rfl⟩
    content := ⟨[], .nil, records.survive_of_reload reloaded⟩ }

/-- Nothing is on record after a release. -/
theorem Records.ends_release
    (records : Records schema offered holding) :
    release.Ends holding (fun _ after => Records schema [] after ∧ after.partition.rowCount = 0)
      fun _ _ => False := by
  refine (ends_release_cleared holding).mono (fun _ after released => ?_) fun _ _ => id
  obtain ⟨partition, area⟩ := after
  obtain ⟨changes, rfl⟩ := released
  exact ⟨{
    faithful := changes.later.damage.trans records.faithful
    schema_eq := records.schema_eq
    full := fun _ member => absurd member List.not_mem_nil
    unloaded := fun _ => rfl
    unspilled := fun _ => ⟨rfl, rfl⟩
    content := ⟨[], .nil, .nil⟩ }, rfl⟩

/-- Chunks of the schema are stored as they are. -/
theorem Records.stores
    (records : Records schema offered holding)
    (fitting : ∀ chunk ∈ offered, chunk.schema = schema) :
    holding.partition.Stores False holding.area.store schema (offered.flatMap Chunk.rows) := by
  obtain ⟨written, wrote, survive⟩ := records.content
  have same := Chunk.eq_of_survives survive fitting
  have inside : ∀ chunk ∈ written.flatten ++ holding.partition.pending ++ holding.partition.chunks,
      chunk.schema = schema ∧ chunk.isEmpty = false := by
    rw [same]
    exact fun chunk member => ⟨fitting chunk member, records.full chunk member⟩
  refine {
    schema_eq := records.schema_eq
    fitting := fun chunk member => ⟨(inside chunk (by
      rw [List.append_assoc]
      exact List.mem_append_right _ member)).1, False.elim⟩
    chunks_eq := records.unloaded
    blocks_eq := records.unspilled
    content := ⟨written, ?_, by rw [same], False.elim⟩ }
  rw [Stored, records.schema_eq]
  exact held_of_wrote records.faithful wrote fun chunk member =>
    inside chunk (List.mem_append_left _ (List.mem_append_left _ member))

/-! ## Any calls in a row -/

/-- Reading, spilling and taking back count no rows. -/
theorem Call.keeps_rowCount
    {call : Call}
    (moving : call.moves = true)
    (count : Nat) :
    call.step.Keeps fun holding => holding.partition.rowCount = count := by
  have changes : ∀ {update : Partition → Partition},
      (∀ partition, (update partition).rowCount = partition.rowCount) →
      (change update).Keeps fun holding => holding.partition.rowCount = count :=
    fun same => @keeps_change (fun partition => partition.rowCount = count) _
      fun partition counted => (same partition).trans counted
  have areas : ∀ {α : Type} (step : Step SpillArea α),
      (onArea step).Keeps fun holding => holding.partition.rowCount = count :=
    fun step => @keeps_onArea _ (fun partition => partition.rowCount = count) step
  have reading : ∀ {α : Type} {step : Step Holding α}, step.Follows Reads →
      step.Keeps fun holding => holding.partition.rowCount = count :=
    fun reads => reads.keeps fun _ _ _ same counted => by rw [same.1, counted]
  cases call with
  | append chunk => exact absurd moving (by simp [moves])
  | spill =>
      refine Keeps.bind (keeps_current.bind fun partition => ?_) fun _ => keeps_pure _
      split
      · exact keeps_pure _
      · have marks : (do
            change fun partition =>
              { partition with
                spilledBytes := partition.spilledBytes + partition.memoryBytes
                memoryBytes := 0
                spilled := true }
            return partition.memoryBytes : Step Holding Nat).Keeps
              fun holding => holding.partition.rowCount = count :=
          (changes (by intro; rfl)).bind fun _ => keeps_pure _
        dsimp only
        split
        · exact marks
        · exact (areas _).bind fun _ => (changes (by intro; rfl)).bind fun _ => marks
  | flush =>
      refine keeps_current.bind fun partition => ?_
      split
      · exact keeps_pure _
      · exact (areas _).bind fun _ => changes (by intro; rfl)
  | unspill =>
      refine Keeps.bind (keeps_current.bind fun partition => ?_) fun _ => keeps_pure _
      split
      · exact keeps_pure _
      · have releases : releaseBlocks.Keeps fun holding => holding.partition.rowCount = count :=
          keeps_current.bind fun _ => (changes (by intro; rfl)).bind fun _ => areas _
        exact (reading reads_reload).bind fun _ => releases.bind fun _ =>
          (changes (by intro; rfl)).bind fun _ => keeps_pure _
  | reload => exact (reading reads_reload).bind fun _ => keeps_pure _
  | restoreBlock position => exact (reading (reads_restoreBlock position)).bind fun _ => keeps_pure _
  | release => exact absurd moving (by simp [moves])

/-- A call that moves rows leaves everything on record, and counts none. -/
theorem Call.ends_moves_records
    {call : Call}
    (moving : call.moves = true)
    (records : Records schema offered holding) :
    call.step.Ends holding (fun _ => Records schema offered) fun _ => Records schema offered := by
  cases call with
  | append chunk => exact absurd moving (by simp [moves])
  | spill => exact (ends_bind _ _).mpr records.ends_spill
  | flush => exact records.ends_flush
  | unspill => exact (ends_bind _ _).mpr records.ends_unspill
  | reload =>
      exact (ends_bind _ _).mpr ((reads_reload holding).mono (fun _ _ => records.reads)
        fun _ _ => records.reads)
  | restoreBlock position =>
      exact (ends_bind _ _).mpr ((reads_restoreBlock position holding).mono (fun _ _ => records.reads)
        fun _ _ => records.reads)
  | release => exact absurd moving (by simp [moves])

/-- The chunks refused since the last release, after a call. -/
def Call.refused
    (holding : Holding)
    (before : List Chunk) : Call → List Chunk
  | append chunk =>
    if ((Partition.append chunk).outcome holding).1.isOk then before else before ++ [chunk]
  | release => []
  | _ => before

/-- What becomes of a partition under any calls with any chunks, and under what others do to the spill
area meanwhile: the chunks that were offered to it since the last release, those of them that were
refused, and the partition. -/
inductive History (schema : Schema) (start : Holding) : List Chunk → List Chunk → Holding → Prop
  | start : History schema start [] [] start
  | call
    {offered refused : List Chunk}
    {holding : Holding}
    (history : History schema start offered refused holding)
    (call : Call) :
    History schema start (call.listed offered) (call.refused holding refused)
      (call.step.outcome holding).2
  | others
    {offered refused : List Chunk}
    {holding : Holding}
    (history : History schema start offered refused holding)
    (area : SpillArea)
    (format : area.store.format = holding.area.store.format)
    (faithful : area.store.damage = [])
    (kept : ∀ path ∈ holding.partition.paths, ∀ bytes,
      holding.area.store.block? path = some bytes → area.store.block? path = some bytes) :
    History schema start offered refused { holding with area }

/-- What is offered is on record, and what is not refused is counted. -/
structure Accounts
    (schema : Schema)
    (offered refused : List Chunk)
    (holding : Holding) : Prop extends Records schema offered holding where
  counted : holding.partition.rowCount + total Chunk.length refused = total Chunk.length offered

theorem accounts_of_made
    {start : Holding}
    (made : start.partition = .empty schema ∨ start.partition = .emptySpilled schema)
    (faithful : start.area.store.damage = []) :
    Accounts schema [] [] start := by
  obtain ⟨partition, area⟩ := start
  obtain rfl | rfl := made <;>
    exact ⟨⟨faithful, rfl, fun _ member => absurd member List.not_mem_nil, fun _ => rfl,
      fun _ => ⟨rfl, rfl⟩, [], .nil, .nil⟩, rfl⟩

theorem total_length_listedAfter
    (offered : List Chunk)
    (chunk : Chunk) :
    total Chunk.length (listedAfter offered chunk) = total Chunk.length offered + chunk.length := by
  rw [listedAfter]
  split
  · next none =>
    have zero : chunk.length = 0 := List.isEmpty_iff_length_eq_zero.mp none
    rw [zero, Nat.add_zero]
  · rw [total_append, total_cons, total_nil, Nat.add_zero]

/-- Every call keeps account of what is offered and refused. -/
theorem Accounts.call
    {refused : List Chunk}
    (accounts : Accounts schema offered refused holding)
    (call : Call) :
    Accounts schema (call.listed offered) (call.refused holding refused)
      (call.step.outcome holding).2 := by
  cases moving : call.moves with
  | true =>
      have same : call.listed offered = offered ∧ call.refused holding refused = refused := by
        cases call <;> first | exact ⟨rfl, rfl⟩ | cases moving
      have records := (Call.ends_moves_records moving accounts.toRecords).state
      have counted := (Call.keeps_rowCount moving holding.partition.rowCount).outcome rfl
      rw [same.1, same.2]
      exact ⟨records, by rw [counted, accounts.counted]⟩
  | false =>
      cases call with
      | append chunk =>
          have records := (accounts.ends_append chunk).state
          refine ⟨records, ?_⟩
          have counts := ends_append_count chunk holding
          have counted := accounts.counted
          rw [Call.listed, total_length_listedAfter, Call.refused, Call.step]
          unfold Ends at counts
          split at counts
          · next value after outcome =>
            rw [outcome]
            exact (congrArg (· + total Chunk.length refused) counts).trans (by omega)
          · next status after outcome =>
            have same : after.partition.rowCount = holding.partition.rowCount := by rw [counts.eq]
            rw [outcome]
            change after.partition.rowCount + total Chunk.length (refused ++ [chunk]) = _
            rw [same, total_append, total_cons, total_nil]
            omega
      | release =>
          obtain ⟨records, none⟩ := ((accounts.ends_release).mono (fun _ _ released => released)
            fun _ _ => False.elim).state
          exact ⟨records, by rw [Call.step, none]; rfl⟩
      | _ => cases moving

theorem History.accounts
    {start : Holding}
    {refused : List Chunk}
    (history : History schema start offered refused holding)
    (made : start.partition = .empty schema ∨ start.partition = .emptySpilled schema)
    (faithful : start.area.store.damage = []) :
    Accounts schema offered refused holding := by
  induction history with
  | start => exact accounts_of_made made faithful
  | call _ call inductionHypothesis => exact inductionHypothesis.call call
  | others _ area format faithful kept inductionHypothesis =>
      exact ⟨inductionHypothesis.toRecords.elsewhere format faithful kept, inductionHypothesis.counted⟩

/-- What is counted and what is read in terms of the chunks that were offered and refused since the last
release, and what one more refusal changes. -/
structure Accounted
    (schema : Schema)
    (offered refused : List Chunk)
    (holding : Holding) : Prop where
  counted : holding.partition.rowCount + total Chunk.length refused = total Chunk.length offered
  reloaded : ∀ chunks after, reload.Succeeds holding chunks after →
    total Chunk.length chunks = holding.partition.rowCount + total Chunk.length refused
  listed : (∀ chunk ∈ offered, chunk.schema = schema) →
    (∀ chunks after, reload.Succeeds holding chunks after → chunks = offered) ∧
      (holding.area.store.Readable → ∃ after, reload.Succeeds holding offered after)
  refuses : ∀ chunk status after, (append chunk).outcome holding = (.error status, after) →
    Trace chunk holding.partition after.partition

/-- Whatever happens to a partition, it reads back the chunks that it refused since the last release
together with those that it accepted, and counts only these. A refusal changes nothing but that the chunk
is last in the pending tail. -/
theorem accounted_of_history
    {start : Holding}
    {refused : List Chunk}
    (made : start.partition = .empty schema ∨ start.partition = .emptySpilled schema)
    (faithful : start.area.store.damage = [])
    (history : History schema start offered refused holding) :
    Accounted schema offered refused holding := by
  have accounts := history.accounts made faithful
  refine ⟨accounts.counted, ?_, ?_, ?_⟩
  · intro chunks after reads
    rw [accounts.counted]
    exact Chunk.total_length_of_survives (accounts.survive_of_reload reads)
  · intro fitting
    have same : ∀ chunks after, reload.Succeeds holding chunks after → chunks = offered :=
      fun chunks after reads => Chunk.eq_of_survives (accounts.survive_of_reload reads) fitting
    refine ⟨same, fun readable => ?_⟩
    obtain ⟨chunks, after, reads⟩ := exists_succeeds_reload readable (accounts.stores fitting)
    exact ⟨after, same chunks after reads ▸ reads⟩
  · intro chunk status after refuses
    have pends := (ends_append_count chunk holding).of_fails refuses
    exact pends.trace (accounts.unloaded pends.spilled)

namespace Sample

/-- An area whose first call fails to write, and whose spiller writes every chunk at once. -/
def eager : SpillArea where
  spiller := { blockSize := 1 }
  store := { outageAt := fun call => { writes := call = 0 } }

def fragile : Holding := ⟨.emptySpilled narrow, eager⟩

def refusal : Holding := ((append first).outcome fragile).2

/-- A chunk that was refused is read back, although no row is counted. -/
theorem not_traceless :
    ((append first).outcome fragile).1.isOk = false ∧ fragile.partition.rowCount = 0 ∧
      refusal.partition.rowCount = 0 ∧ refusal.partition.isEmpty = true ∧
      fragile.partition.estimatedSize = 0 ∧ refusal.partition.estimatedSize = first.logicalBytes ∧
      fragile.partition.blockCount = 0 ∧ refusal.partition.blockCount = 1 ∧
      (∃ after, reload.Succeeds fragile [] after) ∧ ∃ after, reload.Succeeds refusal [first] after := by
  refine ⟨by decide +kernel, rfl, by decide +kernel, by decide +kernel, rfl, by decide +kernel, rfl,
    by decide +kernel, ⟨_, rfl⟩, ⟨_, rfl⟩⟩

/-- A chunk that is refused once and accepted when it is offered again is read twice and counted once. -/
theorem accounted_of_refusal :
    (fragile.partition = .empty narrow ∨ fragile.partition = .emptySpilled narrow) ∧
      fragile.area.store.damage = [] ∧
      History narrow fragile [first, first] [first] ((Call.append first).step.outcome refusal).2 ∧
      Accounted narrow [first, first] [first] ((Call.append first).step.outcome refusal).2 := by
  have history : History narrow fragile [first, first] [first]
      ((Call.append first).step.outcome refusal).2 :=
    (History.start.call (.append first)).call (.append first)
  exact ⟨.inr rfl, rfl, history, accounted_of_history (.inr rfl) rfl history⟩

end Sample

end Partition
end Spillway
