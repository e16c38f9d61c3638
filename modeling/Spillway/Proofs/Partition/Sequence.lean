import Spillway.Proofs.Partition.Ownership

/-!
# A partition as a sequence of chunks

Whatever is called on a partition, and whichever calls of the store fail meanwhile, its blocks, its
pending tail and its chunks in memory list the chunks that were appended since it was last released, in
order and without those that have no rows. The mode says which of the three can hold any: blocks and
tail in a spilled partition, chunks in one in memory. A call that fails leaves the partition as it was,
except for one that appends.
-/

namespace Spillway
namespace Partition

open Step

/-- The partition lists the chunks in order, and counts their bytes right. -/
structure Lists
    (schema : Schema)
    (accepted : List Chunk)
    (holding : Holding) : Prop where
  faithful : holding.area.store.damage = []
  schema_eq : holding.partition.schema = schema
  proper : ∀ chunk ∈ accepted, chunk.schema = schema ∧ chunk.isEmpty = false
  unloaded : holding.partition.spilled = true →
    holding.partition.chunks = [] ∧ holding.partition.memoryBytes = 0
  unspilled : holding.partition.spilled = false →
    holding.partition.blocks = [] ∧ holding.partition.pending = [] ∧ holding.partition.spilledBytes = 0
  content : ∃ stored, holding.partition.Stored holding.area.store stored ∧
    stored.flatten ++ holding.partition.pending ++ holding.partition.chunks = accepted
  size : holding.partition.estimatedSize = total Chunk.logicalBytes accepted

/-- The partition lists the chunks in order, and counts their bytes and their rows right. -/
structure Tracks
    (schema : Schema)
    (accepted : List Chunk)
    (holding : Holding) : Prop extends Lists schema accepted holding where
  counted : holding.partition.rowCount = total Chunk.length accepted

variable {schema : Schema} {accepted : List Chunk} {holding : Holding}

/-- A partition lists what it listed as long as its blocks are there as they were written. -/
theorem Lists.elsewhere
    {area : SpillArea}
    (lists : Lists schema accepted holding)
    (format : area.store.format = holding.area.store.format)
    (faithful : area.store.damage = [])
    (kept : ∀ path ∈ holding.partition.paths, ∀ bytes,
      holding.area.store.block? path = some bytes → area.store.block? path = some bytes) :
    Lists schema accepted { holding with area } where
  faithful
  schema_eq := lists.schema_eq
  proper := lists.proper
  unloaded := lists.unloaded
  unspilled := lists.unspilled
  content := by
    obtain ⟨stored, held, same⟩ := lists.content
    exact ⟨stored, held.elsewhere format (faithful.trans lists.faithful.symm) kept, same⟩
  size := lists.size

theorem Lists.keeps
    {area : SpillArea}
    (lists : Lists schema accepted holding)
    (keeps : holding.area.store.Keeps area.store []) :
    Lists schema accepted { holding with area } :=
  lists.elsewhere keeps.format (keeps.damage.trans lists.faithful) fun path _ bytes =>
    keeps.block path bytes List.not_mem_nil

theorem Tracks.keeps
    {area : SpillArea}
    (tracks : Tracks schema accepted holding)
    (keeps : holding.area.store.Keeps area.store []) :
    Tracks schema accepted { holding with area } :=
  ⟨tracks.toLists.keeps keeps, tracks.counted⟩

/-- The chunks in the pending tail and in memory are among those that are listed. -/
theorem Lists.proper_of_mem
    (lists : Lists schema accepted holding)
    {chunk : Chunk}
    (member : chunk ∈ holding.partition.pending ++ holding.partition.chunks) :
    chunk.schema = holding.partition.schema ∧ chunk.isEmpty = false := by
  obtain ⟨stored, _, rfl⟩ := lists.content
  rw [lists.schema_eq]
  exact lists.proper chunk (by rw [List.append_assoc]; exact List.mem_append_right _ member)

/-- A partition that lists chunks stores their rows. -/
theorem Lists.stores
    (lists : Lists schema accepted holding) :
    holding.partition.Stores False holding.area.store schema (accepted.flatMap Chunk.rows) where
  schema_eq := lists.schema_eq
  fitting chunk member := ⟨(lists.proper_of_mem member).1.trans lists.schema_eq, False.elim⟩
  chunks_eq spilled := (lists.unloaded spilled).1
  blocks_eq inMemory := ⟨(lists.unspilled inMemory).1, (lists.unspilled inMemory).2.1⟩
  content := by
    obtain ⟨stored, held, rfl⟩ := lists.content
    exact ⟨stored, held, rfl, False.elim⟩

/-- Chunks that all have rows are read back as they were written; if they are not written, nothing
changes. -/
theorem ends_spill_proper
    {area : SpillArea}
    {chunks : List Chunk}
    (faithful : area.store.damage = [])
    (proper : ∀ chunk ∈ chunks, chunk.schema = schema ∧ chunk.isEmpty = false) :
    (SpillArea.spill schema chunks).Ends area
      (fun block after => area.store.Keeps after.store [] ∧
        after.store.chunksAt? schema block.path = some chunks)
      fun _ after => area.store.Keeps after.store [] := by
  refine (SpillArea.ends_spill schema chunks area).and_succeeds.mono (fun block after written => ?_)
    fun _ _ unwritten => unwritten.1.keeps
  obtain ⟨keeps, _, read⟩ :=
    SpillArea.succeeds_spill written.1 faithful fun chunk member => (proper chunk member).1
  rw [List.filter_eq_self.mpr fun chunk member => by rw [(proper chunk member).2]; rfl] at read
  exact ⟨keeps, read⟩

/-- The tail becomes one block more, or nothing changes. -/
theorem Lists.ends_flush
    (lists : Lists schema accepted holding)
    (spilled : holding.partition.spilled = true) :
    flush.Ends holding
      (fun _ after => Lists schema accepted after ∧
        after.partition.rowCount = holding.partition.rowCount)
      fun _ after => Lists schema accepted after ∧ after.partition = holding.partition := by
  rw [flush, ends_bind, ends_current, ends_ite]
  refine ⟨fun _ => ⟨lists, rfl⟩, fun _ => ?_⟩
  rw [ends_bind, onArea, ends_focus]
  refine (ends_spill_proper lists.faithful fun chunk member =>
    lists.proper_of_mem (List.mem_append_left _ member)).mono (fun block area written => ?_)
    fun _ area keeps => ⟨lists.keeps keeps, rfl⟩
  obtain ⟨keeps, read⟩ := written
  obtain ⟨stored, held, same⟩ := (lists.keeps keeps).content
  refine ⟨{ lists.keeps keeps with
    unspilled := fun inMemory => absurd (spilled.symm.trans inMemory) (by decide)
    content := ⟨_, held.append read, ?_⟩ }, rfl⟩
  simpa using same

/-- A partition in memory lists its chunks and nothing else. -/
theorem Lists.chunks_of_inMemory
    (lists : Lists schema accepted holding)
    (inMemory : holding.partition.spilled = false) :
    holding.partition.chunks = accepted ∧
      holding.partition.memoryBytes = total Chunk.logicalBytes accepted := by
  obtain ⟨noBlocks, noPending, noBytes⟩ := lists.unspilled inMemory
  obtain ⟨stored, held, same⟩ := lists.content
  rw [Stored, noBlocks, List.forall₂_nil_left_iff] at held
  rw [held, noPending] at same
  have size := lists.size
  rw [estimatedSize, noBytes, Nat.add_zero] at size
  exact ⟨same, size⟩

/-- A partition that was in memory lists its chunks in its blocks once it is marked as spilled. -/
theorem Tracks.marked
    {blocks : List Block}
    {stored : List (List Chunk)}
    {area : SpillArea}
    (tracks : Tracks schema accepted holding)
    (inMemory : holding.partition.spilled = false)
    (faithful : area.store.damage = [])
    (held : List.Forall₂
      (fun block chunks => area.store.chunksAt? holding.partition.schema block.path = some chunks)
      blocks stored)
    (same : stored.flatten = accepted) :
    Tracks schema accepted {
      partition := { holding.partition with
        blocks
        chunks := []
        spilledBytes := holding.partition.spilledBytes + holding.partition.memoryBytes
        memoryBytes := 0
        spilled := true }
      area } := by
  obtain ⟨_, noPending, noBytes⟩ := tracks.unspilled inMemory
  refine { tracks with
    faithful
    unloaded := fun _ => ⟨rfl, rfl⟩
    unspilled := fun unspilled => absurd unspilled (by simp)
    content := ⟨stored, held, ?_⟩
    size := ?_ }
  · simp [noPending, same]
  · rw [estimatedSize, noBytes, (tracks.chunks_of_inMemory inMemory).2]
    simp

/-- The chunks in memory become one block, or nothing changes. -/
theorem Tracks.ends_spill
    (tracks : Tracks schema accepted holding) :
    Partition.spill.Ends holding (fun _ after => Tracks schema accepted after)
      fun _ after => Tracks schema accepted after ∧ after.partition = holding.partition := by
  rw [Partition.spill, ends_bind, ends_current, ends_ite]
  refine ⟨fun _ => tracks, fun unspilled => ?_⟩
  have inMemory := Bool.eq_false_iff.mpr unspilled
  obtain ⟨noBlocks, _, _⟩ := tracks.unspilled inMemory
  obtain ⟨listed, _⟩ := tracks.chunks_of_inMemory inMemory
  dsimp only
  rw [ends_ite]
  refine ⟨fun none => ?_, fun _ => ?_⟩
  · have empty : holding.partition.chunks = [] := List.isEmpty_iff.mp none
    have held : List.Forall₂ (fun block chunks =>
        holding.area.store.chunksAt? holding.partition.schema block.path = some chunks)
        holding.partition.blocks [] := noBlocks ▸ .nil
    have marked := tracks.marked inMemory tracks.faithful held (empty.symm.trans listed)
    rw [← empty] at marked
    exact marked
  · rw [ends_bind, onArea, ends_focus]
    refine (ends_spill_proper tracks.faithful fun chunk member =>
      tracks.proper_of_mem (List.mem_append_right _ member)).mono (fun block area written => ?_)
      fun _ area keeps => ⟨tracks.keeps keeps, rfl⟩
    obtain ⟨keeps, read⟩ := written
    have held : List.Forall₂ (fun block chunks =>
        area.store.chunksAt? holding.partition.schema block.path = some chunks)
        (holding.partition.blocks ++ [block]) [holding.partition.chunks] := by
      rw [noBlocks]
      exact .cons read .nil
    exact tracks.marked inMemory (keeps.damage.trans tracks.faithful) held
      (by rw [List.flatten_singleton, listed])

/-- Only the rows that are counted depend on the count. -/
theorem Lists.counts
    {rowCount : Nat}
    (lists : Lists schema accepted holding)
    (counted : rowCount = total Chunk.length accepted) :
    Tracks schema accepted { holding with partition := { holding.partition with rowCount } } :=
  ⟨⟨lists.faithful, lists.schema_eq, lists.proper, lists.unloaded, lists.unspilled, lists.content,
    lists.size⟩, counted⟩

theorem proper_concat
    {chunk : Chunk}
    (proper : ∀ chunk ∈ accepted, chunk.schema = schema ∧ chunk.isEmpty = false)
    (fits : chunk.schema = schema)
    (full : chunk.isEmpty = false) :
    ∀ other ∈ accepted ++ [chunk], other.schema = schema ∧ other.isEmpty = false := by
  intro other member
  obtain there | here := List.mem_append.mp member
  · exact proper other there
  · rw [List.mem_singleton.mp here]
    exact ⟨fits, full⟩

/-- A chunk that is appended to a spilled partition comes last in the tail. -/
theorem Lists.pend
    {chunk : Chunk}
    (lists : Lists schema accepted holding)
    (spilled : holding.partition.spilled = true)
    (fits : chunk.schema = schema)
    (full : chunk.isEmpty = false) :
    Lists schema (accepted ++ [chunk]) { holding with
      partition := { holding.partition with
        pending := holding.partition.pending ++ [chunk]
        pendingBytes := holding.partition.pendingBytes + chunk.logicalBytes
        spilledBytes := holding.partition.spilledBytes + chunk.logicalBytes } } := by
  obtain ⟨stored, held, same⟩ := lists.content
  obtain ⟨noChunks, _⟩ := lists.unloaded spilled
  refine { lists with
    proper := proper_concat lists.proper fits full
    unspilled := fun inMemory => absurd (spilled.symm.trans inMemory) (by decide)
    content := ⟨stored, held, ?_⟩
    size := ?_ }
  · rw [noChunks, List.append_nil] at same
    simp [noChunks, ← same]
  · have size := lists.size
    rw [estimatedSize] at size ⊢
    rw [total_append, total_cons, total_nil]
    dsimp only
    omega

/-- A chunk that is appended in memory comes last. -/
theorem Lists.load
    {chunk : Chunk}
    (lists : Lists schema accepted holding)
    (inMemory : holding.partition.spilled = false)
    (fits : chunk.schema = schema)
    (full : chunk.isEmpty = false) :
    Lists schema (accepted ++ [chunk]) { holding with
      partition := { holding.partition with
        chunks := holding.partition.chunks ++ [chunk]
        memoryBytes := holding.partition.memoryBytes + chunk.logicalBytes } } := by
  obtain ⟨stored, held, same⟩ := lists.content
  refine { lists with
    proper := proper_concat lists.proper fits full
    unloaded := fun spilled => absurd (inMemory.symm.trans spilled) (by decide)
    content := ⟨stored, held, ?_⟩
    size := ?_ }
  · rw [← same, List.append_assoc _ _ [chunk]]
  · have size := lists.size
    rw [estimatedSize] at size ⊢
    rw [total_append, total_cons, total_nil]
    dsimp only
    omega

/-- The chunks that are listed after a chunk was accepted. -/
def listedAfter (accepted : List Chunk) (chunk : Chunk) : List Chunk :=
  if chunk.isEmpty then accepted else accepted ++ [chunk]

/-- A chunk that is appended comes last, unless it has no rows. -/
theorem Tracks.ends_append
    {chunk : Chunk}
    (tracks : Tracks schema accepted holding)
    (fits : chunk.schema = schema) :
    (append chunk).Ends holding (fun _ after => Tracks schema (listedAfter accepted chunk) after)
      fun _ _ => True := by
  rw [append, ends_ite, listedAfter]
  refine ⟨fun none => by rw [if_pos none]; exact tracks, fun some => ?_⟩
  have full : chunk.isEmpty = false := Bool.eq_false_iff.mpr some
  rw [if_neg some, ends_bind, ends_current]
  have counted : ∀ {after : Holding}, Lists schema (accepted ++ [chunk]) after →
      after.partition.rowCount = holding.partition.rowCount →
      Tracks schema (accepted ++ [chunk]) { after with
        partition := { after.partition with rowCount := after.partition.rowCount + chunk.length } } := by
    intro after lists same
    refine lists.counts ?_
    rw [same, tracks.counted, total_append, total_cons, total_nil, Nat.add_zero]
  dsimp only
  rw [ends_ite]
  refine ⟨fun spilled => ?_, fun unspilled => ?_⟩
  · have pends := tracks.toLists.pend spilled fits full
    rw [ends_bind, appendPending]
    rw [ends_bind, change, ends_modify, ends_bind, ends_get, ends_ite]
    refine ⟨fun _ => ?_, fun _ => counted pends rfl⟩
    exact (pends.ends_flush spilled).mono (fun _ _ flushed => counted flushed.1 flushed.2)
      fun _ _ _ => trivial
  · rw [ends_bind, appendInMemory, change, ends_modify]
    exact counted (tracks.toLists.load (Bool.eq_false_iff.mpr unspilled) fits full) rfl

/-! ## Reading -/

/-- Reloading yields the chunks that are listed. The partition stays as it is in any case. -/
theorem Tracks.ends_reload
    (tracks : Tracks schema accepted holding) :
    reload.Ends holding
      (fun chunks after => chunks = accepted ∧ Tracks schema accepted after ∧
        after.partition = holding.partition)
      fun _ after => Tracks schema accepted after ∧ after.partition = holding.partition := by
  rw [reload, ends_bind, ends_current, ends_bind, onArea, ends_focus]
  refine (ends_restoreBlocks _ holding.area).and_succeeds.mono (fun restored area reads => ?_)
    fun _ area same => ⟨tracks.keeps same.keeps, rfl⟩
  obtain ⟨stored, held, same⟩ := tracks.content
  obtain ⟨_, rfl⟩ := succeeds_restoreBlocks reads.1 (.refl _) held
  exact ⟨same, tracks.keeps reads.2.keeps, rfl⟩

theorem Tracks.ends_restoreBlock
    (tracks : Tracks schema accepted holding)
    (position : Nat) :
    (restoreBlock position).Ends holding
      (fun _ after => Tracks schema accepted after ∧ after.partition = holding.partition)
      fun _ after => Tracks schema accepted after ∧ after.partition = holding.partition := by
  rw [restoreBlock, ends_bind, ends_current, ends_ite]
  refine ⟨fun _ => ⟨tracks, rfl⟩, fun _ => ?_⟩
  split
  · rw [onArea, ends_focus, ends_mapFailure]
    exact (SpillArea.ends_restore _ _ _).mono (fun _ _ same => ⟨tracks.keeps same.keeps, rfl⟩)
      fun _ _ failed => ⟨tracks.keeps failed.1.keeps, rfl⟩
  · exact ⟨tracks, rfl⟩

/-- A spilled partition is made up of as many blocks as it counts, and each of them that is read yields
the next of the chunks that are listed. -/
theorem Lists.exists_segments
    (lists : Lists schema accepted holding)
    (spilled : holding.partition.spilled = true) :
    ∃ stored, holding.partition.Stored holding.area.store stored ∧
      (holding.partition.segments stored).length = holding.partition.blockCount ∧
      (holding.partition.segments stored).flatten = accepted := by
  obtain ⟨stored, held, same⟩ := lists.content
  refine ⟨stored, held, length_segments held, ?_⟩
  rw [flatten_segments, ← same, (lists.unloaded spilled).1, List.append_nil]

/-! ## Giving up blocks -/

theorem ends_change
    {ok : Unit → Holding → Prop}
    {failed : Status → Holding → Prop}
    (update : Partition → Partition) :
    (change update).Ends holding ok failed ↔
      ok () { holding with partition := update holding.partition } :=
  Iff.rfl

/-- The tail and the blocks are given up in any case, whether the blocks are deleted or not. -/
theorem ends_releaseBlocks :
    releaseBlocks.Ends holding
      (fun _ after => after.area.store.damage = holding.area.store.damage ∧
        after.partition = { holding.partition with pending := [], pendingBytes := 0, blocks := [] })
      fun _ _ => False := by
  rw [releaseBlocks, ends_bind, ends_current, ends_bind, ends_change, onArea, ends_focus]
  exact (ends_deleteBlocks _ _).and_succeeds.mono
    (fun _ _ deletes => ⟨(keeps_deleteBlocks _ deletes.1).damage, rfl⟩) fun _ _ => id

/-- Releasing leaves an empty partition of the same mode. -/
theorem Tracks.ends_release
    (tracks : Tracks schema accepted holding) :
    release.Ends holding (fun _ after => Tracks schema [] after) fun _ _ => False := by
  rw [release, ends_bind, ends_change, ends_bind]
  refine ends_releaseBlocks.mono (fun _ after released => ?_) fun _ _ => id
  obtain ⟨damage, same⟩ := released
  rw [ends_change, same]
  exact {
    faithful := damage.trans tracks.faithful
    schema_eq := tracks.schema_eq
    proper := fun _ member => absurd member List.not_mem_nil
    unloaded := fun _ => ⟨rfl, rfl⟩
    unspilled := fun _ => ⟨rfl, rfl, rfl⟩
    content := ⟨[], .nil, rfl⟩
    size := rfl
    counted := rfl }

/-- Taking a partition back into memory keeps the chunks that are listed, or changes nothing. -/
theorem Tracks.ends_unspill
    (tracks : Tracks schema accepted holding) :
    unspill.Ends holding (fun _ after => Tracks schema accepted after)
      fun _ after => Tracks schema accepted after ∧ after.partition = holding.partition := by
  rw [unspill, ends_bind, ends_current, ends_ite]
  refine ⟨fun _ => tracks, fun _ => ?_⟩
  rw [ends_bind]
  refine tracks.ends_reload.mono (fun chunks between reloaded => ?_) fun _ _ same => same
  obtain ⟨rfl, tracks, same⟩ := reloaded
  rw [ends_bind]
  refine ends_releaseBlocks.mono (fun _ after released => ?_) fun _ _ => False.elim
  obtain ⟨damage, rest⟩ := released
  rw [ends_bind, ends_change, rest]
  exact {
    faithful := damage.trans tracks.faithful
    schema_eq := tracks.schema_eq
    proper := tracks.proper
    unloaded := fun spilled => absurd spilled (by simp)
    unspilled := fun _ => ⟨rfl, rfl, rfl⟩
    content := ⟨[], .nil, rfl⟩
    size := Nat.add_zero _
    counted := tracks.counted }

/-- Writing the tail keeps the chunks that are listed, or changes nothing. -/
theorem Tracks.ends_flush
    (tracks : Tracks schema accepted holding) :
    Partition.flush.Ends holding (fun _ after => Tracks schema accepted after)
      fun _ after => Tracks schema accepted after ∧ after.partition = holding.partition := by
  by_cases spilled : holding.partition.spilled = true
  · refine (tracks.toLists.ends_flush spilled).mono (fun _ after flushed => ?_) fun _ after failed => ?_
    · exact ⟨flushed.1, flushed.2.trans tracks.counted⟩
    · obtain ⟨lists, same⟩ := failed
      exact ⟨⟨lists, same ▸ tracks.counted⟩, same⟩
  · obtain ⟨_, noPending, _⟩ := tracks.unspilled (Bool.eq_false_iff.mpr spilled)
    rw [Partition.flush, ends_bind, ends_current, noPending]
    exact tracks

/-! ## Runs -/

/-- What is called on a partition. -/
inductive Call where
  | append (chunk : Chunk)
  | spill
  | flush
  | unspill
  | reload
  | restoreBlock (position : Nat)
  | release

namespace Call

/-- The step of a call; what it yields is not looked at. -/
def step : Call → Step Holding Unit
  | append chunk => Partition.append chunk
  | spill => do let _ ← Partition.spill
  | flush => Partition.flush
  | unspill => do let _ ← Partition.unspill
  | reload => do let _ ← Partition.reload
  | restoreBlock position => do let _ ← Partition.restoreBlock position
  | release => Partition.release

/-- The chunks appended since the last release, after a call. -/
def listed (before : List Chunk) : Call → List Chunk
  | append chunk => listedAfter before chunk
  | release => []
  | _ => before

/-- A call that appends brings a chunk of the schema and succeeds. -/
def Proper (schema : Schema) (holding : Holding) : Call → Prop
  | append chunk => chunk.schema = schema ∧ ∃ after, (Partition.append chunk).Succeeds holding () after
  | _ => True

/-- Whether a call leaves the rows of the partition alone: it does not append or release. -/
def moves : Call → Bool
  | append _ => false
  | release => false
  | _ => true

/-- A call that moves rows keeps the chunks that are listed. If it fails the partition is as before. -/
theorem ends_of_moves
    {call : Call}
    (moving : call.moves = true)
    (tracks : Tracks schema accepted holding) :
    call.step.Ends holding (fun _ after => Tracks schema accepted after)
      fun _ after => Tracks schema accepted after ∧ after.partition = holding.partition := by
  cases call with
  | append chunk => exact absurd moving (by simp [moves])
  | spill => exact (ends_bind _ _).mpr tracks.ends_spill
  | flush => exact tracks.ends_flush
  | unspill => exact (ends_bind _ _).mpr tracks.ends_unspill
  | reload =>
      exact (ends_bind _ _).mpr (tracks.ends_reload.mono (fun _ _ read => read.2.1) fun _ _ same => same)
  | restoreBlock position =>
      exact (ends_bind _ _).mpr
        ((tracks.ends_restoreBlock position).mono (fun _ _ read => read.1) fun _ _ same => same)
  | release => exact absurd moving (by simp [moves])

/-- A call keeps count of the chunks that were appended since the last release, whether it succeeds or
fails. -/
theorem tracks_outcome
    {call : Call}
    (proper : call.Proper schema holding)
    (tracks : Tracks schema accepted holding) :
    Tracks schema (call.listed accepted) (call.step.outcome holding).2 := by
  cases moving : call.moves with
  | true =>
      have same : call.listed accepted = accepted := by cases call <;> first | rfl | cases moving
      rw [same]
      exact ((ends_of_moves moving tracks).mono (fun _ _ kept => kept) fun _ _ kept => kept.1).state
  | false =>
      cases call with
      | append chunk =>
          obtain ⟨fits, after, appends⟩ := proper
          rw [step, appends]
          exact (tracks.ends_append fits).of_succeeds appends
      | release => exact (tracks.ends_release.mono (fun _ _ kept => kept) fun _ _ => False.elim).state
      | _ => cases moving

end Call

/-- What becomes of a partition that is called, where the chunks are those appended since the last
release. Others use the store meanwhile; they leave the blocks of the partition alone, but the store can
begin or cease to fail at any time. -/
inductive Run (schema : Schema) (start : Holding) : List Chunk → Holding → Prop
  | start : Run schema start [] start
  | call
    {listed : List Chunk}
    {holding : Holding}
    (run : Run schema start listed holding)
    (call : Call)
    (proper : call.Proper schema holding) :
    Run schema start (call.listed listed) (call.step.outcome holding).2
  | others
    {listed : List Chunk}
    {holding : Holding}
    (run : Run schema start listed holding)
    (area : SpillArea)
    (format : area.store.format = holding.area.store.format)
    (faithful : area.store.damage = [])
    (kept : ∀ path ∈ holding.partition.paths, ∀ bytes,
      holding.area.store.block? path = some bytes → area.store.block? path = some bytes) :
    Run schema start listed { holding with area }

theorem tracks_of_made
    {start : Holding}
    (made : start.partition = .empty schema ∨ start.partition = .emptySpilled schema)
    (faithful : start.area.store.damage = []) :
    Tracks schema [] start := by
  obtain ⟨partition, area⟩ := start
  obtain rfl | rfl := made <;>
    exact ⟨⟨faithful, rfl, fun _ member => absurd member List.not_mem_nil, fun _ => ⟨rfl, rfl⟩,
      fun _ => ⟨rfl, rfl, rfl⟩, ⟨[], .nil, rfl⟩, rfl⟩, rfl⟩

/-- After every run the partition lists what was appended since the last release. -/
theorem Run.tracks
    {start : Holding}
    (run : Run schema start accepted holding)
    (made : start.partition = .empty schema ∨ start.partition = .emptySpilled schema)
    (faithful : start.area.store.damage = []) :
    Tracks schema accepted holding := by
  induction run with
  | start => exact tracks_of_made made faithful
  | call run call proper inductionHypothesis => exact Call.tracks_outcome proper inductionHypothesis
  | others run area format faithful kept inductionHypothesis =>
      exact ⟨inductionHypothesis.toLists.elsewhere format faithful kept, inductionHypothesis.counted⟩

/-- What can be read of a partition, what it counts, and what calls that fail do to it, in terms of the
chunks appended since the last release. -/
structure Ordered
    (accepted : List Chunk)
    (holding : Holding) : Prop where
  reloaded : ∀ chunks after, reload.Succeeds holding chunks after → chunks = accepted
  reloads : holding.area.store.Readable → ∃ after, reload.Succeeds holding accepted after
  blocks : holding.partition.spilled = true → ∃ segments : List (List Chunk),
    segments.length = holding.partition.blockCount ∧ segments.flatten = accepted ∧
      (∀ position chunks after, (restoreBlock position).Succeeds holding chunks after →
        segments[position]? = some chunks) ∧
      (holding.area.store.Readable → ∀ position (inside : position < segments.length),
        ∃ after, (restoreBlock position).Succeeds holding segments[position] after)
  rows : holding.partition.rowCount = (accepted.flatMap Chunk.rows).length
  size : holding.partition.estimatedSize = total Chunk.logicalBytes accepted
  memory : holding.partition.memoryBytes =
    if holding.partition.spilled then 0 else holding.partition.estimatedSize
  unchanged : ∀ call : Call, call.moves = true → ∀ status after,
    call.step.outcome holding = (.error status, after) → after.partition = holding.partition

/-- A partition is an ordered sequence of chunks under every run of calls and every pattern of failures
of its store: what was appended since the last release is what is read back, at once or block by block,
and what is counted. -/
theorem ordered_of_run
    {start : Holding}
    (made : start.partition = .empty schema ∨ start.partition = .emptySpilled schema)
    (faithful : start.area.store.damage = [])
    (run : Run schema start accepted holding) :
    Ordered accepted holding := by
  have tracks := run.tracks made faithful
  have reloaded : ∀ chunks after, reload.Succeeds holding chunks after → chunks = accepted :=
    fun chunks after reads => (tracks.ends_reload.of_succeeds reads).1
  refine
    { reloaded, reloads := ?_, blocks := ?_, rows := ?_, size := tracks.size, memory := ?_, unchanged := ?_ }
  · intro readable
    obtain ⟨chunks, after, reads⟩ := exists_succeeds_reload readable tracks.stores
    exact ⟨after, reloaded chunks after reads ▸ reads⟩
  · intro spilled
    obtain ⟨stored, held, length, same⟩ := tracks.exists_segments spilled
    exact ⟨_, length, same, fun position chunks after reads => (succeeds_restoreBlock reads held).1,
      fun readable position inside => exists_succeeds_restoreBlock readable held inside⟩
  · rw [tracks.counted]
    exact SpillArea.rowCount_eq_length accepted
  · split
    · next spilled => exact (tracks.unloaded spilled).2
    · next unspilled =>
      rw [estimatedSize, (tracks.unspilled (Bool.eq_false_iff.mpr unspilled)).2.2, Nat.add_zero]
  · intro call moving status after fails
    have ends := Call.ends_of_moves moving tracks
    unfold Ends at ends
    rw [fails] at ends
    exact ends.2

namespace Sample

def narrow : Schema := [{ name := "k", type := .int64 }]

def first : Chunk := ⟨narrow, [[.int 1], [.int 2]], by decide⟩

def second : Chunk := ⟨narrow, [[.int 3]], by decide⟩

/-- A store whose first call fails to write. -/
def area : SpillArea where
  store := { outageAt := fun call => { writes := call = 0 } }

def start : Holding := ⟨.empty narrow, area⟩

def loaded : Holding := ((Call.append first).step.outcome start).2

def refused : Holding := (Call.spill.step.outcome loaded).2

def spilled : Holding := (Call.spill.step.outcome refused).2

def extended : Holding := ((Call.append second).step.outcome spilled).2

/-- A chunk is taken, the partition is not spilled because the store fails, it is spilled when that is
tried again, and another chunk is taken. -/
theorem run_extended : Run narrow start [first, second] extended := by
  have takes : ∃ after, (append first).Succeeds start () after :=
    ⟨_, Step.succeeds_of_isOk _ _ (by decide +kernel)⟩
  have takesMore : ∃ after, (append second).Succeeds spilled () after :=
    ⟨_, Step.succeeds_of_isOk _ _ (by decide +kernel)⟩
  exact (((Run.start.call (.append first) ⟨rfl, takes⟩).call .spill trivial).call .spill trivial).call
    (.append second) ⟨rfl, takesMore⟩

/-- A partition that was spilled at the second attempt has two blocks and lists both chunks. -/
theorem ordered_of_refused :
    (start.partition = .empty narrow ∨ start.partition = .emptySpilled narrow) ∧
      start.area.store.damage = [] ∧ Run narrow start [first, second] extended ∧
      (Call.spill.step.outcome loaded).1.isOk = false ∧ extended.partition.blockCount = 2 ∧
      Ordered [first, second] extended :=
  ⟨.inl rfl, rfl, run_extended, by decide +kernel, by decide +kernel,
    ordered_of_run (.inl rfl) rfl run_extended⟩

/-! A partition does not look at the schema of what is appended. -/

/-- A chunk with one column more than the schema has. -/
def wide : Chunk :=
  ⟨narrow ++ [{ name := "v", type := .int64 }], [[.int 1, .int 3], [.int 2, .int 4]], by decide⟩

def taken : Holding := ((append wide).outcome ⟨.emptySpilled narrow, {}⟩).2

def written : Holding := (flush.outcome taken).2

/-- A chunk of another schema is taken and written, and read back without the column that the schema
does not have. -/
theorem reload_narrows :
    (append wide).Succeeds ⟨.emptySpilled narrow, {}⟩ () taken ∧ flush.Succeeds taken () written ∧
      ∃ chunks after, reload.Succeeds written chunks after ∧
        chunks.flatMap Chunk.rows = [[.int 1], [.int 2]] ∧ chunks.flatMap Chunk.rows ≠ wide.rows := by
  refine ⟨Step.succeeds_of_isOk _ _ (by decide +kernel), Step.succeeds_of_isOk _ _ (by decide +kernel),
    _, _, Step.succeeds_of_isOk _ _ (by decide +kernel), by decide +kernel, by decide +kernel⟩

end Sample

end Partition
end Spillway
