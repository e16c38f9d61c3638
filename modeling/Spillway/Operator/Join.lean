import Spillway.Filter.Descriptor
import Spillway.Operator.JoinTable
import Spillway.Operator.Partitioned
import Spillway.Operator.WorkList

/-!
# Partitioned join

An inner join of two inputs by equality of one key each. The build side comes first: its rows are
partitioned, and its keys are collected in filters. Then the probe side: rows whose partition is in
memory are joined at once, the others are stored and joined at the end, partition by partition.
Absent keys match nothing.
-/

namespace Spillway

/-- A filter that a join computes from its build keys. -/
structure FilterSpec where
  id : FilterId
  kind : FilterKind
  bloomBytes : Nat
  deriving DecidableEq, Repr

/-- Which input a join is taking. -/
inductive JoinPhase where
  | build
  | probe
  | finished
  deriving DecidableEq, Repr

/-- Name of a phase as it is printed. -/
def JoinPhase.name : JoinPhase → String
  | build => "Build"
  | probe => "Probe"
  | finished => "Finished"

/-- A join under way. -/
structure Join where
  input : Partitioned
  probe : ProbeSide
  specs : List FilterSpec
  filters : List KeyFilter
  tables : List (Nat × JoinTable) := []
  phase : JoinPhase := .build
  outputRows : Nat := 0

namespace Join

/-- Why a join refuses a request. -/
inductive Fault where
  | buildFinished
  | probeIn (phase : JoinPhase)
  | finishIn (phase : JoinPhase)
  deriving DecidableEq, Repr

/-- The status that reports the fault. -/
def Fault.status : Fault → Status
  | buildFinished => .illegalState "hash join build side is already finished"
  | probeIn phase => .illegalState ("hash join cannot probe in phase " ++ phase.name)
  | finishIn phase => .illegalState ("hash join cannot finish probe in phase " ++ phase.name)

/-- The fields of the output: those of the probe side, then those of the build side. -/
def outputSchema (join : Join) : Schema :=
  join.probe.schema ++ join.input.buildSchema

/-- A join without rows. -/
def make
    (params : Params)
    (buildSchema : Schema)
    (buildKey : String)
    (probe : ProbeSide)
    (specs : List FilterSpec)
    (area : SpillArea)
    (ledger : Ledger) :
    Except Status Join := do
  let input ←
    Partitioned.make "hash join" params buildSchema buildKey (some probe) area ledger
  return {
    input, probe, specs
    filters := specs.map fun spec => KeyFilter.empty spec.kind spec.bloomBytes }

/-- Runs a step of the partitioned input. -/
def onInput {α : Type} (step : Step Partitioned α) : Step Join α :=
  step.focus Join.input fun join input => { join with input }

/-- The rows of a chunk that have a key. -/
def dropAbsentKeys (chunk : Chunk) (key : String) : Except Status Chunk := do
  let position ← chunk.position key
  return chunk.filterRows fun row => !(Row.cell row position).isNull

/-- Adds the keys of a column to filters, one filter after the other. -/
def insertKeys (cells : List Cell) (done : List KeyFilter) :
    List KeyFilter → Step Join Unit
  | [] => modify fun join => { join with filters := done }
  | filter :: rest =>
    match filter.insertColumn cells with
    | .ok filter => insertKeys cells (done ++ [filter]) rest
    | .error fault => do
      modify fun join => { join with filters := done ++ filter :: rest }
      Step.fail fault.status

/-- Accepts a chunk of the build side. -/
def addBuildChunk (chunk : Chunk) : Step Join Unit := do
  let join ← get
  if join.phase ≠ .build then Step.fail Fault.buildFinished.status
  let chunk ← Step.ofExcept (dropAbsentKeys chunk join.input.buildKey)
  unless chunk.isEmpty do
    unless join.filters.isEmpty do
      let cells ← Step.ofExcept (chunk.keyCells join.input.buildKey)
      insertKeys cells [] join.filters
    onInput (Partitioned.addBuildChunk chunk)

/-- Makes tables of the partitions that are in memory and have rows. -/
def makeTables : List Nat → Step Join Unit
  | [] => return ()
  | partition :: rest => do
    let record ← onInput (Partitioned.record partition)
    unless record.build.spilled || record.build.isEmpty do
      let input := (← get).input
      let table ← Step.ofExcept
        (JoinTable.ofChunks input.buildSchema record.build.chunks input.buildKey)
      modify fun join =>
        { join with tables := (partition, table) :: join.tables.filter (·.1 ≠ partition) }
    makeTables rest

/-- Ends the build side and yields the filters of its keys. -/
def finishBuild : Step Join (List (FilterId × KeyFilter)) := do
  let join ← get
  if join.phase ≠ .build then Step.fail Fault.buildFinished.status
  onInput Partitioned.checkCancelled
  makeTables join.input.roots
  modify fun join => { join with phase := .probe, filters := [] }
  return (join.specs.map FilterSpec.id).zip join.filters

/-- Joins a chunk with the rows of a table. -/
def joinWith (table : JoinTable) (chunk : Chunk) : Step Join (List Chunk) := do
  let join ← get
  let joined ← Step.ofExcept (table.joinChunk join.outputSchema chunk join.probe.key)
  return joined.toList

/-- Joins the part of a probe chunk that belongs to a partition, or stores it for later. -/
def probePart (partition : Nat) (part : Chunk) : Step Join (List Chunk) := do
  match (← get).tables.lookup partition with
  | some table => joinWith table part
  | none =>
    let record ← onInput (Partitioned.record partition)
    unless record.build.isEmpty do
      onInput (Partitioned.appendProbe partition part)
    return []

/-- Joins or stores the parts of a probe chunk. -/
def probeParts : List (Nat × Option Chunk) → Step Join (List Chunk)
  | [] => return []
  | (_, none) :: rest => probeParts rest
  | (partition, some part) :: rest => do
    let joined ← probePart partition part
    let others ← probeParts rest
    return joined ++ others

/-- Counts the rows of the output. -/
def countOutput (chunks : List Chunk) : Step Join Unit :=
  modify fun join => { join with outputRows := join.outputRows + SpillArea.rowCount chunks }

/-- Accepts a chunk of the probe side and yields what can be joined at once. -/
def probeChunk (chunk : Chunk) : Step Join (List Chunk) := do
  let join ← get
  if join.phase ≠ .probe then Step.fail (Fault.probeIn join.phase).status
  onInput Partitioned.checkCancelled
  let chunk ← Step.ofExcept (dropAbsentKeys chunk join.probe.key)
  if chunk.isEmpty then return []
  let parts ← Step.ofExcept ((join.input.directory 0).split chunk join.probe.key)
  let output ← probeParts (join.input.roots.zip parts)
  countOutput output
  return output

/-- Joins the chunks of probe blocks with a table, block by block. -/
def joinBlocks (partition : Nat) (table : JoinTable) : List Nat → Step Join (List Chunk)
  | [] => return []
  | block :: rest => do
    onInput Partitioned.checkCancelled
    let chunks ← onInput (Partitioned.restoreProbeBlock partition block)
    let joined ← chunks.mapM (joinWith table)
    let others ← joinBlocks partition table rest
    return joined.flatten ++ others

/-- Joins the stored probe rows of a partition with its build rows. -/
def joinPartition (partition : Nat) : Step Join (List Chunk) := do
  let chunks ← onInput (Partitioned.loadBuild partition)
  let input := (← get).input
  let table ← Step.ofExcept (JoinTable.ofChunks input.buildSchema chunks input.buildKey)
  let blocks ← onInput (Partitioned.probeBlocks partition)
  let output ← joinBlocks partition table (List.range blocks)
  onInput (Partitioned.complete partition)
  return output

/-- Completes a partition, joins it, or splits it if it is too large to load. -/
def visit (partition : Nat) : Step Join (Visit Chunk) := do
  onInput Partitioned.checkCancelled
  let record ← onInput (Partitioned.record partition)
  if record.state ≠ .opened then return .done []
  if record.build.isEmpty || record.probe.all Partition.isEmpty then
    onInput (Partitioned.complete partition)
    return .done []
  if ← onInput (Partitioned.needsRepartition partition) then
    let children ← onInput (Partitioned.repartition partition)
    return .split (← onInput (Partitioned.processingOrder children))
  return .done (← joinPartition partition)

/-- Completes the partitions that have a table. -/
def completeTables : List Nat → Step Join Unit
  | [] => return ()
  | partition :: rest => do
    modify fun join => { join with tables := join.tables.filter (·.1 ≠ partition) }
    onInput (Partitioned.complete partition)
    completeTables rest

/-- Ends the probe side and yields what is left to be joined. -/
def finishProbe : Step Join (List Chunk) := do
  let join ← get
  if join.phase ≠ .probe then Step.fail (Fault.finishIn join.phase).status
  completeTables (join.tables.map (·.1))
  let output ← drain visit join.input.params.maxDepth join.input.roots
  modify fun join => { join with phase := .finished }
  countOutput output
  return output

end Join

end Spillway
