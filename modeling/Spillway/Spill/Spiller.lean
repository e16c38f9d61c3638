import Spillway.Spill.Header
import Spillway.Spill.Store

/-!
# Spiller

A spiller writes chunks to a store as blocks that describe themselves, and reads them back. A block
is restored only under the schema it was written with, at its full length, and with the number of rows
its header states.
-/

namespace Spillway

/-- What a spiller has written and read so far. -/
structure SpillStats where
  spilledRows : Nat := 0
  spilledBlocks : Nat := 0
  restoredRows : Nat := 0
  bytesWritten : Nat := 0
  bytesRead : Nat := 0
  deriving DecidableEq, Repr

/-- Settings and counters of a spiller. A spilled partition writes its pending rows once they reach
the block size. -/
structure Spiller where
  compression : Compression := .none
  blockSize : Nat := 1048576
  stats : SpillStats := {}
  deriving DecidableEq, Repr

/-- The spiller with another block size, of at least one byte. -/
def Spiller.withBlockSize (spiller : Spiller) (bytes : Nat) : Spiller :=
  { spiller with blockSize := max bytes 1 }

/-- Handle to a block. -/
structure Block where
  path : String
  header : BlockHeader
  deriving DecidableEq, Repr

/-- Length of a block in the store. -/
def Block.storedBytes (block : Block) : Nat :=
  BlockHeader.size + block.header.bodyLength.toNat

/-- A spiller and the store it writes to. -/
structure SpillArea where
  spiller : Spiller := {}
  store : Store := {}

/-- Why a block was not written or restored. -/
inductive BlockFault where
  | pathTaken (path : String)
  | badHeader (cause : HeaderFault)
  | schema (path : String)
  | bodyLength (path : String) (expected found : Nat)
  | body (cause : Body.Fault)
  | rowCount (path : String) (header decoded : Nat)
  deriving DecidableEq, Repr

/-- The status that reports the fault; all of them are failures of the storage. -/
def BlockFault.status : BlockFault → Status
  | pathTaken path => .storage ("create spill block failed: " ++ path ++ " already exists")
  | badHeader cause => .storage cause.message
  | schema path => .storage ("spill block " ++ path ++ " schema mismatch")
  | bodyLength path expected found =>
    .storage ("spill block " ++ path ++ " truncated: expected " ++ toString expected ++
      " body bytes, got " ++ toString found)
  | body cause => .storage cause.message
  | rowCount path header decoded =>
    .storage ("spill block " ++ path ++ " row count mismatch: header=" ++ toString header ++
      " decoded=" ++ toString decoded)

namespace SpillArea

/-- Runs a step of the store. -/
def onStore {α : Type} (step : Step Store α) : Step SpillArea α :=
  step.focus SpillArea.store fun area store => { area with store }

/-- Changes the counters. -/
def record (change : SpillStats → SpillStats) : Step SpillArea Unit :=
  modify fun area =>
    { area with spiller := { area.spiller with stats := change area.spiller.stats } }

/-- Tries paths until one is free: the one drawn now and at most `retries` more. -/
def createBlock (bytes : List UInt8) (retries : Nat) : Step SpillArea String := do
  let path ← onStore Store.drawPath
  let created ← onStore (Store.create path bytes)
  if created then return path
  else
    match retries with
    | 0 => Step.fail (BlockFault.pathTaken path).status
    | retries + 1 => createBlock bytes retries

/-- How often another path is tried before writing a block is given up. -/
def maxRetries : Nat := 2

/-- Number of rows of several chunks. -/
def rowCount (chunks : List Chunk) : Nat :=
  total Chunk.length chunks

/-- The header of the block that holds the chunks, fewer than 2^32 of them. -/
def headerOf
    (format : Body.Format)
    (compression : Compression)
    (declaration : Declaration)
    (chunks : List Chunk) : BlockHeader where
  compression
  batches := (chunks.filter (!·.isEmpty)).length.toUInt32
  rows := (rowCount chunks).toUInt64
  bodyLength := (Body.encode format declaration chunks).length.toUInt64
  schemaHash := declaration.hash

/-- Writes chunks as one block; chunks without rows are left out. -/
def spill (declaration : Declaration) (chunks : List Chunk) : Step SpillArea Block := do
  let area ← get
  let header := headerOf area.store.format area.spiller.compression declaration chunks
  let bytes := header.encode ++ Body.encode area.store.format declaration chunks
  let path ← createBlock bytes maxRetries
  record fun stats =>
    { stats with
      spilledRows := stats.spilledRows + rowCount chunks
      spilledBlocks := stats.spilledBlocks + 1
      bytesWritten := stats.bytesWritten + bytes.length }
  return { path, header }

/-- The chunks that the bytes of a block hold, and their number of rows. -/
def decodeBlock
    (format : Body.Format)
    (declaration : Declaration)
    (path : String)
    (bytes : List UInt8) : Except BlockFault (List Chunk) := do
  let header ← (BlockHeader.decode bytes).mapError .badHeader
  if header.schemaHash ≠ declaration.hash then throw (.schema path)
  let body := bytes.drop BlockHeader.size
  if body.length.toUInt64 ≠ header.bodyLength then
    throw (.bodyLength path header.bodyLength.toNat body.length)
  let chunks ← (Body.decode format declaration body).mapError .body
  if (rowCount chunks).toUInt64 ≠ header.rows then
    throw (.rowCount path header.rows.toNat (rowCount chunks))
  return chunks

/-- Reads the chunks of a block. -/
def restore (declaration : Declaration) (block : Block) : Step SpillArea (List Chunk) := do
  let format := (← get).store.format
  let bytes ← onStore (Store.read block.path)
  let chunks ← Step.ofExcept
    ((decodeBlock format declaration block.path bytes).mapError BlockFault.status)
  record fun stats =>
    { stats with
      restoredRows := stats.restoredRows + rowCount chunks
      bytesRead := stats.bytesRead + bytes.length }
  return chunks

/-- Deletes a block. -/
def release (block : Block) : Step SpillArea Unit :=
  onStore (Store.delete block.path)

end SpillArea

end Spillway
