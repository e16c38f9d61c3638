import Spillway.Cluster.Query
import Spillway.Operator.Aggregation
import Spillway.Operator.Join
import Spillway.Settings.Source

/-!
# Demonstration

A join of two generated tables under a small memory limit. A quarter of the build rows share one key. The
build keys are counted first, to decide whether a membership filter is worth having; the filters of the
build side then reach a scan of the probe side over the network of a query, and the rows that the scan
lets through are joined. The outcome is a report of what was counted on the way.
-/

namespace Spillway
namespace Demo

/-- Number of build rows. -/
def buildRows : Nat := 200000

/-- Number of build rows that share one key. -/
def hotRows : Nat := 50000

/-- Number of ranges of the probe side. -/
def probeRanges : Nat := 8

/-- Most rows of a chunk. -/
def chunkRows : Nat := 4096

/-- Largest memory limit when none is asked for. -/
def memLimit : Nat := 2097152

/-- Columns of the build side. -/
def buildSchema : Schema :=
  [{ name := "b_key", type := .int64 }, { name := "b_payload", type := .utf8 }]

/-- Columns of the probe side. -/
def probeSchema : Schema :=
  [{ name := "p_key", type := .int64 }, { name := "p_value", type := .int64 }]

/-- A number as a cell. -/
def number (value : Nat) : Cell :=
  .int (Int64.ofNat value)

/-- Chunks of the rows for consecutive numbers. -/
def chunksOf (schema : Schema) (row : Nat → Row) (start count : Nat) : Except Status (List Chunk) :=
  (List.range ((count + chunkRows - 1) / chunkRows)).mapM fun part =>
    let offset := part * chunkRows
    let rows := (List.range (min chunkRows (count - offset))).map fun i => row (start + offset + i)
    (Chunk.assemble schema (schema.map Field.type) rows).mapError ColumnFault.status

/-- The build side: the first rows share the key zero, the others have even keys of their own. -/
def buildChunks : Except Status (List Chunk) :=
  chunksOf buildSchema (fun i =>
    let key := if i < hotRows then 0 else i * 2
    [number key, .text ("row-" ++ toString key)]) 0 buildRows

/-- The probe side: ranges of consecutive keys with their bounds. -/
def probeSide : Except Status (List ScanRange) :=
  (List.range probeRanges).mapM fun position => do
    let span := buildRows * 4 / probeRanges
    let low := position * span + 1
    let chunks ← chunksOf probeSchema (fun key => [number key, number (key * 10)]) low span
    return {
      chunks
      bounds := [("p_key", .int (Int64.ofNat low), .int (Int64.ofNat (low + span - 1)))] }

/-- Runs one step for each of some values. -/
def each {σ α : Type} (step : α → Step σ Unit) (values : List α) : Step σ Unit :=
  values.forM step

/-- Number of distinct keys, with what the aggregation that counts them leaves behind. -/
def countKeys (params : Params) (chunks : List Chunk) (area : SpillArea) (ledger : Ledger) :
    Except Status (Nat × SpillArea × Ledger) := do
  let aggregation ← Aggregation.make params buildSchema "b_key" [.countStar] area ledger
  let (groups, aggregation) ← Step.run? (do
    Aggregation.onInput (Partitioned.chargeTo 0)
    each Aggregation.addChunk chunks
    Aggregation.finish) aggregation
  return (total Chunk.length groups, aggregation.input.area, aggregation.input.ledger)

/-- The worker that builds and scans. -/
def worker : WorkerId := ⟨1⟩

/-- Filter of the range of the build keys. -/
def rangeFilter : FilterId := ⟨1⟩

/-- Filter of the build keys themselves. -/
def keyFilter : FilterId := ⟨2⟩

/-- Hands the filters of the build side to the query. -/
def publish (filters : List (FilterId × KeyFilter)) : Step Query Unit :=
  each (fun (id, filter) =>
    Query.atWorker worker fun now bank => bank.contribute now id ⟨1⟩ filter) filters

/-- Opens the filters of the query, and tells which of them the build side is to make. -/
def openFilters (settings : Settings) (keys : Nat) : Step Query (List FilterSpec) := do
  let descriptors := [
    settings.descriptor rangeFilter .minMax "p_key" "b_key" 1,
    settings.descriptor keyFilter .bloom "p_key" "b_key" 1]
  let spec (id : FilterId) (kind : FilterKind) : FilterSpec :=
    ⟨id, kind, Sizing.normalize settings.runtime.bloomBytes⟩
  Query.openFilters descriptors
  modify fun query => query.addWorker worker query.mode descriptors
  modify fun query => query.adopt 0
  if settings.filterMode = .everywhere ∧ settings.shouldDisable keys then
    Query.onNetwork (Network.atCoordinator fun now => Coordinator.disable now keyFilter)
    return [spec rangeFilter .minMax]
  else return [spec rangeFilter .minMax, spec keyFilter .bloom]

/-- Scans ranges and joins what the scan lets through; yields the number of rows joined. -/
def scanAndJoin : List ScanRange → Step (Query × Join) Nat
  | [] => return 0
  | range :: rest => do
    let kept ← Step.focus Prod.fst (fun state query => (query, state.2))
      (Query.onScan 0 fun cancelled => Scan.read cancelled range)
    let joined ← kept.mapM fun chunk =>
      Step.focus Prod.snd (fun state join => (state.1, join)) (Join.probeChunk chunk)
    return total Chunk.length joined.flatten + (← scanAndJoin rest)

/-- One line of the report. -/
def line (label value : String) : String :=
  label ++ String.ofList (List.replicate (22 - label.length) ' ') ++ value

/-- The lines of the report. -/
def report (outputRows keys queryPeak : Nat) (join : PartitionedStats) (scan : ScanStats) :
    List String :=
  [line "output rows:" (toString outputRows),
    line "partitions created:" (toString join.created),
    line "partitions spilled:" (toString join.spilled),
    line "repartitions:" (toString join.repartitions),
    line "max partition level:" (toString join.maxLevel),
    line "distinct build keys:" (toString keys),
    line "peak memory (bytes):" (toString join.peakMemory),
    line "query peak (bytes):" (toString queryPeak),
    line "spilled rows/bytes:" (toString join.spilledRows ++ "/" ++ toString join.spilledBytes),
    line "scan ranges pruned:" (toString scan.prunedRanges ++ "/" ++ toString scan.ranges),
    line "scan rows filtered:" (toString scan.rowsFiltered ++ "/" ++ toString scan.rowsRead)]

/-- Runs the demonstration and reports. Blocks are kept in memory. -/
def run (settings : Settings) (memLimit : Nat) : Step Environment (List String) := do
  let spiller ← Environment.openSpiller
  Step.ofExcept do
    let build ← buildChunks
    let params := settings.paramsFor (total Chunk.logicalBytes build) memLimit
    let query : Query := {
      id := ⟨0x67726163, 1⟩
      mode := settings.filterMode
      memLimit := params.memLimit }
    let (_, ledger) := Ledger.openAccount {} query.id.accountLabel query.memLimit
    let (keys, area, ledger) ← countKeys params build { spiller } ledger
    let (specs, query) ← (openFilters settings keys).run? query
    let join ← Join.make params buildSchema "b_key" ⟨probeSchema, "p_key"⟩ specs area ledger
    let (filters, join) ← Step.run? (do
      Join.onInput (Partitioned.chargeTo 0)
      each Join.addBuildChunk build
      Join.finishBuild) join
    let (_, query) ← Step.run? (do
      publish filters
      Query.openScan 0 worker ⟨1⟩ [rangeFilter, keyFilter] settings.runtime.waitTime false) query
    let (probed, query, join) ← (scanAndJoin (← probeSide)).run? (query, join)
    let (finished, join) ← Join.finishProbe.run? join
    let scan := ((query.scans.lookup 0).map (·.scan.stats)).getD {}
    return report (probed + total Chunk.length finished) keys (join.input.ledger.peak 0)
      join.input.stats scan

end Demo
end Spillway
