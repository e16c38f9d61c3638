import Spillway.Spill.Spiller

/-!
# Partitions

A partition is an ordered run of chunks that is either in memory or spilled. A spilled partition
collects what is appended in a pending tail, which is written as one block as soon as it reaches the
block size; the tail counts as spilled and is read back like a last block. Rows come back to memory
only when the partition is taken back as a whole.
-/

namespace Spillway

/-- Rows of one partition, in memory or in blocks. -/
structure Partition where
  schema : Schema
  chunks : List Chunk := []
  memoryBytes : Nat := 0
  blocks : List Block := []
  pending : List Chunk := []
  pendingBytes : Nat := 0
  spilledBytes : Nat := 0
  rowCount : Nat := 0
  spilled : Bool := false
  deriving DecidableEq

/-- A partition and the spill area that keeps its blocks. -/
structure Holding where
  partition : Partition
  area : SpillArea

namespace Partition

/-- The empty partition, in memory. -/
def empty (schema : Schema) : Partition where
  schema

/-- The empty partition that sends whatever is appended to the store. -/
def emptySpilled (schema : Schema) : Partition where
  schema
  spilled := true

/-- Bytes in memory and bytes spilled. -/
def estimatedSize (partition : Partition) : Nat :=
  partition.memoryBytes + partition.spilledBytes

/-- Whether no row is counted. -/
def isEmpty (partition : Partition) : Bool :=
  partition.rowCount = 0

/-- Number of written blocks, with the pending tail counted as one more. -/
def blockCount (partition : Partition) : Nat :=
  partition.blocks.length + (if partition.pending.isEmpty then 0 else 1)

/-- Runs a step of the spill area. -/
def onArea {α : Type} (step : Step SpillArea α) : Step Holding α :=
  step.focus Holding.area fun holding area => { holding with area }

/-- Changes the partition. -/
def change (update : Partition → Partition) : Step Holding Unit :=
  modify fun holding => { holding with partition := update holding.partition }

/-- The partition of the holding. -/
def current : Step Holding Partition := do
  return (← get).partition

/-- Writes the pending tail as one block. -/
def flush : Step Holding Unit := do
  let partition ← current
  unless partition.pending.isEmpty do
    let block ← onArea (SpillArea.spill partition.schema partition.pending)
    change fun partition =>
      { partition with blocks := partition.blocks ++ [block], pending := [], pendingBytes := 0 }

/-- Appends a chunk to the pending tail and writes the tail if it has reached the block size. -/
def appendPending (chunk : Chunk) : Step Holding Unit := do
  let bytes := chunk.logicalBytes
  change fun partition =>
    { partition with
      pending := partition.pending ++ [chunk]
      pendingBytes := partition.pendingBytes + bytes
      spilledBytes := partition.spilledBytes + bytes }
  let holding ← get
  if holding.area.spiller.blockSize ≤ holding.partition.pendingBytes then flush

/-- Appends a chunk in memory. -/
def appendInMemory (chunk : Chunk) : Step Holding Unit :=
  change fun partition =>
    { partition with
      chunks := partition.chunks ++ [chunk]
      memoryBytes := partition.memoryBytes + chunk.logicalBytes }

/-- Appends a chunk. Its rows are counted once it is in place. -/
def append (chunk : Chunk) : Step Holding Unit := do
  unless chunk.isEmpty do
    let partition ← current
    if partition.spilled then appendPending chunk else appendInMemory chunk
    change fun partition => { partition with rowCount := partition.rowCount + chunk.length }

/-- Writes the rows in memory to one block and marks the partition as spilled. Yields the bytes that
this frees in memory. -/
def spill : Step Holding Nat := do
  let partition ← current
  if partition.spilled then return 0
  unless partition.chunks.isEmpty do
    let block ← onArea (SpillArea.spill partition.schema partition.chunks)
    change fun partition => { partition with blocks := partition.blocks ++ [block], chunks := [] }
  change fun partition =>
    { partition with
      spilledBytes := partition.spilledBytes + partition.memoryBytes
      memoryBytes := 0
      spilled := true }
  return partition.memoryBytes

/-- Names the operation in the failure of a block. -/
def wording (operation : String) (status : Status) : Status :=
  .storage (operation ++ " failed: " ++ status.message)

/-- Reads blocks, one after the other. -/
def restoreBlocks (schema : Schema) : List Block → Step SpillArea (List Chunk)
  | [] => return []
  | block :: rest => do
    let first ← (SpillArea.restore schema block).mapFailure (wording "reload spilled partition")
    let others ← restoreBlocks schema rest
    return first ++ others

/-- All rows in the order in which they were appended. The partition stays as it is. -/
def reload : Step Holding (List Chunk) := do
  let partition ← current
  let restored ← onArea (restoreBlocks partition.schema partition.blocks)
  return restored ++ partition.pending ++ partition.chunks

/-- The chunks of one block; the position after the last written block stands for the pending
tail. -/
def restoreBlock (position : Nat) : Step Holding (List Chunk) := do
  let partition ← current
  if position = partition.blocks.length ∧ ¬ partition.pending.isEmpty then return partition.pending
  match partition.blocks[position]? with
  | some block =>
    onArea ((SpillArea.restore partition.schema block).mapFailure (wording "restore spill block"))
  | none =>
    Step.fail (.internal ("spill block index " ++ toString position ++ " out of range (" ++
      toString partition.blockCount ++ " blocks)"))

/-- Deletes blocks. A block that cannot be deleted is left behind. -/
def deleteBlocks : List Block → Step SpillArea Unit
  | [] => return ()
  | block :: rest => do
    let _ ← (SpillArea.release block).attempt
    deleteBlocks rest

/-- Gives up the pending tail and the blocks. -/
def releaseBlocks : Step Holding Unit := do
  let partition ← current
  change fun partition => { partition with pending := [], pendingBytes := 0, blocks := [] }
  onArea (deleteBlocks partition.blocks)

/-- Takes a spilled partition back into memory. Yields the bytes that are now in memory. -/
def unspill : Step Holding Nat := do
  let partition ← current
  if ¬ partition.spilled then return 0
  let chunks ← reload
  releaseBlocks
  let bytes := total Chunk.logicalBytes chunks
  change fun partition =>
    { partition with memoryBytes := bytes, chunks, spilledBytes := 0, spilled := false }
  return bytes

/-- Drops all rows and deletes the blocks. -/
def release : Step Holding Unit := do
  change fun partition => { partition with chunks := [], memoryBytes := 0 }
  releaseBlocks
  change fun partition => { partition with spilledBytes := 0, rowCount := 0 }

end Partition

end Spillway
