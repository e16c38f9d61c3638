import Spillway.Memory.Ledger
import Spillway.Operator.Params
import Spillway.Partition.Arena
import Spillway.Partition.Directory

/-!
# Partitioned input

What joins and aggregations have in common. The rows of the build side are dealt out to partitions by
their keys and kept within the account of the operator: when a reservation fails, the largest partition
in memory is spilled, and if that is not enough the partition at hand. A spilled partition that is too
large to load is split into children one level deeper, block by block, until the depth limit is
reached. Rows of a probe side go to the partition of their key and always to the store.
-/

namespace Spillway

/-- Schema and key of a probe side. -/
structure ProbeSide where
  schema : Schema
  key : String
  deriving DecidableEq, Repr

/-- Partitions of one operator, with the account, the spill area and the counters it works with. -/
structure Partitioned where
  operator : String
  params : Params
  valid : params.Valid
  buildSchema : Schema
  buildKey : String
  probeSide : Option ProbeSide
  area : SpillArea
  ledger : Ledger
  account : Nat
  /-- Whether somebody who looks finds the query cancelled. Others raise the flag at a time of their
  own, which is told by how far the partitions and the store have come. -/
  cancelledAt : Arena → SpillArea → Bool := fun _ _ => false
  arena : Arena := {}
  /-- Bytes charged for spilled partitions that are loaded, by partition. -/
  pinned : List (Nat × Nat) := []
  partitionsSpilled : Nat := 0
  repartitions : Nat := 0

/-- Counters of an operator. -/
structure PartitionedStats where
  created : Nat
  spilled : Nat
  repartitions : Nat
  maxLevel : Nat
  peakMemory : Nat
  spilledRows : Nat
  spilledBytes : Nat
  deriving DecidableEq, Repr

namespace Partitioned

/-- Why partitioned input refuses a request. -/
inductive Fault where
  | cancelled
  | buildKey (operator key : String)
  | probeKey (operator key : String)
  | charged (operator : String) (bytes : Nat)
  | noProbeSide (operator : String) (partition : Nat)
  | tooDeep (operator : String) (partition level maxDepth rows bytes memLimit : Nat)
  deriving DecidableEq, Repr

/-- The status that reports the fault. -/
def Fault.status : Fault → Status
  | cancelled => .cancelled "query cancelled"
  | buildKey operator key =>
    .invalidArgument (operator ++ " build key '" ++ key ++ "' not in schema")
  | probeKey operator key =>
    .invalidArgument (operator ++ " probe key '" ++ key ++ "' not in schema")
  | charged operator bytes =>
    .illegalState (operator ++ " budget already holds " ++ toString bytes ++ " bytes")
  | noProbeSide operator partition =>
    .internal (operator ++ " partition " ++ toString partition ++ " has no probe side")
  | tooDeep operator partition level maxDepth rows bytes memLimit =>
    .resourceLimitExceeded ("Cannot perform " ++ operator ++
      ". Partitioned input data too many times. This could mean there is too much skew in the " ++
      "data or the memory limit is set too low. (partition=" ++ toString partition ++ " level=" ++
      toString level ++ " max_partition_depth=" ++ toString maxDepth ++ " rows=" ++
      toString rows ++ " bytes=" ++ toString bytes ++ " mem_limit=" ++ toString memLimit ++ ")")

/-- Whether the query is found to be cancelled now. -/
def cancelled (input : Partitioned) : Bool :=
  input.cancelledAt input.arena input.area

/-- The directory of a level. -/
def directory (input : Partitioned) (level : Nat) : Directory where
  fanOut := input.params.partitionCount
  level := level.toUInt32
  valid := input.valid.partitionCount

/-- The partitions of level zero, in order of their buckets. -/
def roots (input : Partitioned) : List Nat :=
  List.range input.params.partitionCount

/-- A new record with empty sides. -/
def newRecord (input : Partitioned) (parent : Option Nat) (level bucket : Nat) :
    PartitionRecord where
  parent
  level
  bucket
  build := .empty input.buildSchema
  probe := input.probeSide.map fun side => .emptySpilled side.schema

/-- Runs a step of the state that may be refused by the arena. -/
def onArena {α : Type} (step : Arena → Except ArenaFault (α × Arena)) : Step Partitioned α :=
  fun input =>
    match step input.arena with
    | .ok (result, arena) => (.ok result, { input with arena })
    | .error fault => (.error fault.status, input)

/-- The record of a partition. -/
def record (partition : Nat) : Step Partitioned PartitionRecord :=
  onArena fun arena => do return (← arena.record partition, arena)

/-- Changes the record of a partition. -/
def changeRecord (partition : Nat) (change : PartitionRecord → PartitionRecord) :
    Step Partitioned Unit :=
  modify fun input => { input with arena := input.arena.modify partition change }

/-- Moves a partition to another state. -/
def setState (partition : Nat) (state : PartitionState) : Step Partitioned Unit :=
  changeRecord partition fun record => { record with state }

/-- Runs a step on the build side of a partition. -/
def onBuild {α : Type} (partition : Nat) (step : Step Holding α) : Step Partitioned α := do
  let record ← record partition
  fun input =>
    let (result, holding) := step.outcome ⟨record.build, input.area⟩
    (result, { input with
      area := holding.area
      arena := input.arena.modify partition fun record =>
        { record with build := holding.partition } })

/-- Runs a step on the probe side of a partition. Without a probe side it yields `absent`. -/
def onProbe {α : Type} (partition : Nat) (absent : Step Partitioned α) (step : Step Holding α) :
    Step Partitioned α := do
  let record ← record partition
  match record.probe with
  | none => absent
  | some probe => fun input =>
    let (result, holding) := step.outcome ⟨probe, input.area⟩
    (result, { input with
      area := holding.area
      arena := input.arena.modify partition fun record =>
        { record with probe := some holding.partition } })

/-- Gives bytes back to the account. -/
def releaseBytes (bytes : Nat) : Step Partitioned Unit :=
  modify fun input => { input with ledger := input.ledger.release input.account bytes }

/-- Charges bytes to the account whether they fit or not. -/
def chargeBytes (bytes : Nat) : Step Partitioned Unit :=
  modify fun input => { input with ledger := input.ledger.reserve input.account bytes }

/-- Charges bytes to the account if they fit. -/
def tryCharge (bytes : Nat) : Step Partitioned Bool := fun input =>
  let (granted, ledger) := input.ledger.tryReserve input.account bytes
  (.ok granted, { input with ledger })

/-- Fails once the query is cancelled. -/
def checkCancelled : Step Partitioned Unit := do
  if (← get).cancelled then Step.fail Fault.cancelled.status

/-- The record of largest size in memory among those that could be spilled; of several equally large
ones the last. -/
def largestOpen? (arena : Arena) : Option Nat :=
  let candidates := (List.range arena.size).filterMap fun partition =>
    arena.records[partition]?.bind fun record =>
      if record.state = .opened ∧ ¬ record.build.spilled ∧ 0 < record.build.memoryBytes then
        some (partition, record.build.memoryBytes)
      else none
  (candidates.foldl (fun best candidate =>
    match best with
    | none => some candidate
    | some held => if held.2 ≤ candidate.2 then some candidate else some held) none).map (·.1)

/-- Spills the build side of a partition and yields the bytes that this frees. -/
def spillPartition (partition : Nat) : Step Partitioned Nat := do
  let before ← record partition
  if before.build.spilled then return 0
  let freed ← onBuild partition Partition.spill
  releaseBytes freed
  modify fun input => { input with partitionsSpilled := input.partitionsSpilled + 1 }
  return freed

/-- Makes room for more bytes by spilling one partition. -/
def spillLargest : Step Partitioned Unit := do
  match largestOpen? (← get).arena with
  | some victim => let _ ← spillPartition victim
  | none => return ()

/-- Appends to the build side in memory, after its bytes were charged. -/
def appendCharged (partition bytes : Nat) (chunk : Chunk) : Step Partitioned Unit := do
  match ← (onBuild partition (Partition.append chunk)).attempt with
  | .ok () => return ()
  | .error status =>
    releaseBytes bytes
    Step.fail status

/-- Appends a chunk to the build side of a partition, and spills where the account has no room. -/
def appendBuild (partition : Nat) (chunk : Chunk) : Step Partitioned Unit := do
  let target ← record partition
  if target.build.spilled then onBuild partition (Partition.append chunk)
  else
    let bytes := chunk.logicalBytes
    if ← tryCharge bytes then appendCharged partition bytes chunk
    else
      spillLargest
      let target ← record partition
      if target.build.spilled then onBuild partition (Partition.append chunk)
      else if ← tryCharge bytes then appendCharged partition bytes chunk
      else
        let _ ← spillPartition partition
        onBuild partition (Partition.append chunk)

/-- Appends a chunk to the probe side of a partition. -/
def appendProbe (partition : Nat) (chunk : Chunk) : Step Partitioned Unit := do
  let operator := (← get).operator
  onProbe partition (Step.fail (Fault.noProbeSide operator partition).status)
    (Partition.append chunk)

/-- Hands the parts of a split chunk to the partitions of their buckets. -/
def deal (append : Nat → Chunk → Step Partitioned Unit) : List (Nat × Option Chunk) →
    Step Partitioned Unit
  | [] => return ()
  | (_, none) :: rest => deal append rest
  | (partition, some part) :: rest => do
    append partition part
    deal append rest

/-- Deals out the rows of a chunk to the partitions of a directory's buckets. -/
def route
    (append : Nat → Chunk → Step Partitioned Unit)
    (directory : Directory)
    (key : String)
    (partitions : List Nat)
    (chunk : Chunk) :
    Step Partitioned Unit := do
  let parts ← Step.ofExcept (directory.split chunk key)
  deal append (partitions.zip parts)

/-- Accepts a chunk of the build side. -/
def addBuildChunk (chunk : Chunk) : Step Partitioned Unit := do
  checkCancelled
  let input ← get
  route appendBuild (input.directory 0) input.buildKey input.roots chunk

/-- Whether a spilled partition is too large for what is left of the account. -/
def needsRepartition (partition : Nat) : Step Partitioned Bool := do
  let record ← record partition
  let input ← get
  return record.build.spilled && 1 < record.build.rowCount &&
    input.ledger.available input.account < record.build.estimatedSize

/-- Adds one empty child for each of the given buckets. -/
def addChildren (parent level : Nat) : List Nat → Step Partitioned (List Nat)
  | [] => return []
  | bucket :: rest => do
    let input ← get
    let child ← onArena fun arena => arena.add (input.newRecord (some parent) level bucket)
    let others ← addChildren parent level rest
    return child :: others

/-- Hands the rows of blocks to the partitions of a directory's buckets, block by block. -/
def streamBlocks
    (restore : Nat → Step Partitioned (List Chunk))
    (accept : Chunk → Step Partitioned Unit) :
    List Nat → Step Partitioned Unit
  | [] => return ()
  | block :: rest => do
    checkCancelled
    let chunks ← restore block
    chunks.forM accept
    streamBlocks restore accept rest

/-- Number of blocks of the probe side of a partition. -/
def probeBlocks (partition : Nat) : Step Partitioned Nat := do
  return ((← record partition).probe.map Partition.blockCount).getD 0

/-- The chunks of one block of the build side. -/
def restoreBuildBlock (partition block : Nat) : Step Partitioned (List Chunk) :=
  onBuild partition (Partition.restoreBlock block)

/-- The chunks of one block of the probe side. -/
def restoreProbeBlock (partition block : Nat) : Step Partitioned (List Chunk) :=
  onProbe partition (return []) (Partition.restoreBlock block)

/-- Gives up the probe side of a partition. -/
def releaseProbe (partition : Nat) : Step Partitioned Unit :=
  onProbe partition (return ()) Partition.release

/-- The children among the given ones that have build rows. The others are done with. -/
def keepNonEmpty : List Nat → Step Partitioned (List Nat)
  | [] => return []
  | child :: rest => do
    let record ← record child
    if record.build.isEmpty then
      setState child .completed
      releaseProbe child
      keepNonEmpty rest
    else
      let others ← keepNonEmpty rest
      return child :: others

/-- Splits a partition into children one level deeper, and yields those that have build rows. -/
def repartition (partition : Nat) : Step Partitioned (List Nat) := do
  let before ← record partition
  let input ← get
  let level := before.level + 1
  if input.params.maxDepth ≤ level then
    Step.fail (Fault.tooDeep input.operator partition before.level input.params.maxDepth
      before.build.rowCount before.build.estimatedSize input.params.memLimit).status
  let directory := input.directory level
  setState partition .pinned
  let children ← addChildren partition level (List.range input.params.partitionCount)
  let blocks := (← record partition).build.blockCount
  streamBlocks (restoreBuildBlock partition)
    (route appendBuild directory input.buildKey children) (List.range blocks)
  match input.probeSide with
  | none => pure ()
  | some side =>
    let blocks ← probeBlocks partition
    streamBlocks (restoreProbeBlock partition)
      (route appendProbe directory side.key children) (List.range blocks)
  onBuild partition Partition.release
  releaseProbe partition
  setState partition .repartitioned
  modify fun input => { input with repartitions := input.repartitions + 1 }
  keepNonEmpty children

/-- The order in which children are processed: first those in memory, which give their bytes back,
then those that have to be loaded; later children come before earlier ones. -/
def processingOrder (children : List Nat) : Step Partitioned (List Nat) := do
  let arena := (← get).arena
  let inMemory := fun child =>
    arena.records[child]?.any fun record => !record.build.spilled
  return (children.filter inMemory).reverse ++ (children.filter (!inMemory ·)).reverse

/-- The build rows of a partition, for processing. Those of a spilled partition are charged to the
account until the partition is completed. -/
def loadBuild (partition : Nat) : Step Partitioned (List Chunk) := do
  setState partition .pinned
  let loading ← record partition
  if ¬ loading.build.spilled then return loading.build.chunks
  let chunks ← onBuild partition Partition.reload
  let size := loading.build.estimatedSize
  chargeBytes size
  modify fun input =>
    { input with pinned := (partition, size) :: input.pinned.filter (·.1 ≠ partition) }
  return chunks

/-- Gives up the rows and the bytes of a partition whose output has been produced. -/
def complete (partition : Nat) : Step Partitioned Unit := do
  let held := (← record partition).build.memoryBytes
  onBuild partition Partition.release
  releaseProbe partition
  setState partition .completed
  releaseBytes held
  match (← get).pinned.lookup partition with
  | none => return ()
  | some size =>
    modify fun input => { input with pinned := input.pinned.filter (·.1 ≠ partition) }
    releaseBytes size

/-- Partitioned input without rows. Its account is opened in the ledger and belongs to no other. -/
def make
    (operator : String)
    (params : Params)
    (buildSchema : Schema)
    (buildKey : String)
    (probeSide : Option ProbeSide)
    (area : SpillArea)
    (ledger : Ledger) :
    Except Status Partitioned := do
  let ⟨valid⟩ ← (params.validate).mapError Params.Fault.status
  if (buildSchema.position? buildKey).isNone then
    throw (Fault.buildKey operator buildKey).status
  match probeSide with
  | none => pure ()
  | some side =>
    if (side.schema.position? side.key).isNone then throw (Fault.probeKey operator side.key).status
  let (account, ledger) := ledger.openAccount operator params.memLimit
  let bare : Partitioned :=
    { operator, params, valid, buildSchema, buildKey, probeSide, area, ledger, account }
  let records := bare.roots.map (bare.newRecord none 0)
  return { bare with arena := { records := records.toArray } }

/-- Opens a new account for the operator, which belongs to another one of the ledger. This is possible
only while the operator holds nothing; its peak starts anew. -/
def chargeTo (parent : Nat) : Step Partitioned Unit := do
  let input ← get
  let held := input.ledger.used input.account
  if held ≠ 0 then Step.fail (Fault.charged input.operator held).status
  let (account, ledger) :=
    input.ledger.openAccount input.operator input.params.memLimit (some parent)
  modify fun input => { input with ledger, account }

/-- Counters of the input. -/
def stats (input : Partitioned) : PartitionedStats where
  created := input.arena.size
  spilled := input.partitionsSpilled
  repartitions := input.repartitions
  maxLevel := input.arena.maxLevel
  peakMemory := input.ledger.peak input.account
  spilledRows := input.area.spiller.stats.spilledRows
  spilledBytes := input.area.spiller.stats.bytesWritten

end Partitioned

end Spillway
