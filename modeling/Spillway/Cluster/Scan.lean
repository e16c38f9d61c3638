import Spillway.Cluster.Network

/-!
# Scans that apply filters

A scan registers as a consumer of the filters that concern its columns. Before it reads its first range
it waits for them, for a bounded time in all; those that have not arrived by then are left out for the
rest of the scan. A range whose statistics exclude a match with some filter is skipped, and of all other
ranges the rows are kept that every filter lets through.
-/

namespace Spillway

/-- A unit of work: chunks, and for some columns a lower and an upper bound of the keys in them. Of two
bounds of one column the later counts. -/
structure ScanRange where
  chunks : List Chunk
  bounds : List (String × Key × Key) := []

/-- The bounds of a column. -/
def ScanRange.boundsOf (range : ScanRange) (column : String) : Option (Key × Key) :=
  range.bounds.reverse.lookup column

/-- What a scan has counted. -/
structure ScanStats where
  ranges : Nat := 0
  prunedRanges : Nat := 0
  rowsRead : Nat := 0
  rowsFiltered : Nat := 0
  arrived : Nat := 0
  timedOut : Nat := 0
  disabled : Nat := 0
  deriving DecidableEq, Repr

/-- A filter that arrived in time, with the column that it applies to. -/
structure AppliedFilter where
  id : FilterId
  column : String
  filter : KeyFilter

/-- One consumer of filters at a post of the network. The filters to apply are known once it has
waited for them. -/
structure Scan where
  consumer : ConsumerId
  post : Nat
  filters : List FilterId
  maxWait : Nat
  applied : Option (List AppliedFilter) := none
  stats : ScanStats := {}

namespace Scan

/-- A change of what the scan has counted. -/
def count (change : ScanStats → ScanStats) : Step Scan Unit :=
  modify fun scan => { scan with stats := change scan.stats }

/-- Whether the bounds of a range exclude a match with one of the filters. -/
def excludes (applied : List AppliedFilter) (range : ScanRange) : Bool :=
  applied.any fun applied =>
    match range.boundsOf applied.column with
    | some (low, high) => !applied.filter.overlaps low high
    | none => false

/-- The rows of a chunk that every filter lets through. -/
def filterAll (applied : List AppliedFilter) (chunk : Chunk) : Except Status Chunk :=
  applied.foldlM (fun chunk applied => applied.filter.filterChunk chunk applied.column) chunk

/-- The rows of chunks that every filter lets through; chunks without any are left out. -/
def readChunks (applied : List AppliedFilter) : List Chunk → Step Scan (List Chunk)
  | [] => return []
  | chunk :: rest => do
    count fun stats => { stats with rowsRead := stats.rowsRead + chunk.length }
    let kept ← Step.ofExcept (filterAll applied chunk)
    count fun stats =>
      { stats with rowsFiltered := stats.rowsFiltered + (chunk.length - kept.length) }
    let others ← readChunks applied rest
    return if kept.isEmpty then others else kept :: others

/-- Reads a range with the filters that arrived. -/
def readRange (range : ScanRange) : Step Scan (List Chunk) := do
  let applied := (← get).applied.getD []
  count fun stats => { stats with ranges := stats.ranges + 1 }
  if excludes applied range then
    count fun stats => { stats with prunedRanges := stats.prunedRanges + 1 }
    return []
  else readChunks applied range.chunks

/-- The failure of a call after its query was cancelled. -/
def queryCancelled : Status :=
  .cancelled "query cancelled"

/-- The failure of a scan whose waiting was cut short. -/
def cancelledWhileWaiting (consumer : ConsumerId) (filter : FilterId) : Status :=
  .cancelled ("scan consumer " ++ consumer.render ++ " cancelled while waiting for runtime filter " ++
    filter.render)

/-- Registers the consumer for every filter in turn. -/
def register (post : Nat) (consumer : ConsumerId) : List FilterId → Step Network Unit
  | [] => return ()
  | filter :: rest => do
    Network.atBank post fun now bank => bank.register now consumer filter
    register post consumer rest

/-- Runs a step of the network from within a scan. -/
def onNetwork {α : Type} (step : Step Network α) : Step (Network × Scan) α :=
  Step.focus Prod.fst (fun state network => (network, state.2)) step

/-- Runs a step of the scan itself. -/
def onScan {α : Type} (step : Step Scan α) : Step (Network × Scan) α :=
  Step.focus Prod.snd (fun state scan => (state.1, scan)) step

/-- Waits for filters in turn, each for what is left of the time, and collects those that arrive. -/
def awaitEach (cancelled : Bool) (limit : Option Nat) :
    List FilterId → Step (Network × Scan) (List AppliedFilter)
  | [] => return []
  | filter :: rest => do
    if cancelled then Step.fail queryCancelled
    let (network, scan) ← get
    let span := (limit.map fun limit => limit - network.clock).getD scan.maxWait
    let entry ← Step.ofExcept (network.bankEntry scan.post filter)
    match ← onNetwork (Network.await (Network.bankEntry scan.post filter) network.clock span) with
    | .arrived found =>
      onScan (count fun stats => { stats with arrived := stats.arrived + 1 })
      return ⟨filter, entry.descriptor.target, found⟩ :: (← awaitEach cancelled limit rest)
    | .timedOut =>
      onScan (count fun stats => { stats with timedOut := stats.timedOut + 1 })
      awaitEach cancelled limit rest
    | .disabled =>
      onScan (count fun stats => { stats with disabled := stats.disabled + 1 })
      awaitEach cancelled limit rest
    | .cancelled => Step.fail (cancelledWhileWaiting scan.consumer filter)

/-- Waits for the filters of the scan, once. -/
def awaitFilters (cancelled : Bool) : Step (Network × Scan) Unit := do
  let (network, scan) ← get
  if scan.applied.isSome then return ()
  let applied ← awaitEach cancelled (Clock.after? network.clock scan.maxWait) scan.filters
  onScan (modify fun scan => { scan with applied := some applied })

/-- Reads a range, after waiting for the filters if that has not been done yet. -/
def read (cancelled : Bool) (range : ScanRange) : Step (Network × Scan) (List Chunk) := do
  awaitFilters cancelled
  if cancelled then Step.fail queryCancelled
  onScan (readRange range)

end Scan
end Spillway
