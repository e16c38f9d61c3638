import Spillway.Cluster.Scan
import Spillway.Text.Hex

/-!
# Queries

A query in progress: its parties, its scans, and what ends it. The query may open the coordinator of its
filters, once, and adopts banks, so that cancelling it reaches everybody who waits. Its cancellation flag
can also be raised alone; cancelling the query afterwards then has nothing left to do. A bank lives as
long as its worker, the query or a scan uses it, and a coordinator as long as the query or its caller
does.
-/

namespace Spillway

/-- A scan, and whether it is cancelled with the query. -/
structure SeatedScan where
  scan : Scan
  ownToken : Bool

/-- A query in progress. Workers are named with the posts of their banks. -/
structure Query where
  id : QueryId
  mode : FilterMode
  memLimit : Nat
  network : Network := {}
  cancelled : Bool := false
  opened : Bool := false
  coordinated : Bool := false
  members : List (WorkerId × Nat) := []
  adopted : List Nat := []
  scans : List (Nat × SeatedScan) := []

/-- Name of the memory account of a query. -/
def QueryId.accountLabel (id : QueryId) : String :=
  "query_" ++ Text.hexNat id.high.toNat ++ "_" ++ Text.hexNat id.low.toNat

namespace Query

/-- Runs a step of the network. -/
def onNetwork {α : Type} (step : Step Network α) : Step Query α :=
  Step.focus Query.network (fun query network => { query with network }) step

/-- Fails once the query is cancelled. -/
def check (query : Query) : Except Status Unit :=
  if query.cancelled then .error Scan.queryCancelled else .ok ()

/-- Whether somebody uses the bank at a post. -/
def uses (query : Query) (post : Nat) : Bool :=
  query.members.any (·.2 = post) || query.adopted.contains post ||
    query.scans.any fun (_, seated) => seated.scan.post = post

/-- Lets go of the parties that nobody uses. -/
def release (query : Query) : Query :=
  let network := query.network.retain query.uses
  if query.opened || query.coordinated then { query with network }
  else { query with network := { network with coordinator := none } }

/-- Opens the coordinator in the name of a caller. -/
def openCoordinator (descriptors : List FilterDescriptor) : Step Query Unit :=
  Step.transition fun query => do
    let coordinator ← Coordinator.start query.id query.mode descriptors query.network.clock
    return ((), {
      query with
      coordinated := true
      network := { query.network with coordinator := some coordinator } })

/-- Opens the coordinator in the name of the query, at most once. A query that is cancelled already
cancels it. -/
def openFilters (descriptors : List FilterDescriptor) : Step Query Unit :=
  Step.transition fun query => do
    if query.opened then
      throw (.illegalState ("runtime filters already opened for query " ++ query.id.render))
    let coordinator ← Coordinator.start query.id query.mode descriptors query.network.clock
    let coordinator := if query.cancelled then coordinator.cancel.2 else coordinator
    return ((), {
      query with
      opened := true
      coordinated := true
      network := { query.network with coordinator := some coordinator } })

/-- Opens the bank of a worker. A former bank of the worker loses its name. -/
def addWorker
    (query : Query)
    (worker : WorkerId)
    (mode : FilterMode)
    (descriptors : List FilterDescriptor) :
    Query :=
  let bank := Bank.start worker query.id mode descriptors query.network.clock
  release {
    query with
    members := query.members.filter (·.1 ≠ worker) ++ [(worker, query.network.posts.size)]
    network := query.network.attach bank }

/-- Lets a worker leave. -/
def dropWorker (query : Query) (worker : WorkerId) : Query :=
  release { query with members := query.members.filter (·.1 ≠ worker) }

/-- Lets the caller's hold on the coordinator go. -/
def dropCoordinator (query : Query) : Query :=
  release { query with coordinated := false }

/-- The post of a worker's bank. -/
def post (query : Query) (worker : WorkerId) : Except Status Nat :=
  match query.members.lookup worker with
  | some post => .ok post
  | none => .error (.internal ("no worker " ++ worker.render))

/-- Changes a bank. -/
def changeBank (query : Query) (post : Nat) (change : Bank → Bank) : Query :=
  match query.network.bank? post with
  | some bank => { query with network := query.network.setBank post (change bank) }
  | none => query

/-- Changes the coordinator and delivers its messages. -/
def changeCoordinator (query : Query) (change : Coordinator → Mail × Coordinator) : Query :=
  match query.network.coordinator with
  | some coordinator =>
    let (mail, coordinator) := change coordinator
    { query with network := { query.network with coordinator := some coordinator }.sendAll mail }
  | none => query

/-- Adopts the bank at a post, so that cancelling the query reaches it. -/
def adopt (query : Query) (post : Nat) : Query :=
  let query := if query.cancelled then query.changeBank post Bank.cancel else query
  { query with adopted := query.adopted ++ [post] }

/-- Raises the cancellation flag and nothing else. -/
def raiseFlag (query : Query) : Query :=
  { query with cancelled := true }

/-- Cancels the query: the flag, the coordinator that it opened, and the banks that it adopted. -/
def cancel (query : Query) : Query :=
  if query.cancelled then query
  else
    let query := query.raiseFlag
    let query := if query.opened then query.changeCoordinator Coordinator.cancel else query
    query.adopted.foldl (fun query post => query.changeBank post Bank.cancel) query

/-- Closes the coordinator that the query opened and lets go of the banks. -/
def close (query : Query) : Query :=
  let query :=
    if query.opened then query.changeCoordinator fun coordinator => ([], coordinator.close)
    else query
  release { query with adopted := [] }

/-- The entry of a filter, at a worker or at the coordinator. -/
def entryAt (query : Query) (place : Endpoint) (filter : FilterId) : Except Status Entry :=
  match place with
  | .coordinator => query.network.coordinatorEntry filter
  | .worker worker => do query.network.bankEntry (← query.post worker) filter

/-- How far a filter has come, at a worker or at the coordinator. -/
def stateAt (query : Query) (place : Endpoint) (filter : FilterId) : Except Status FilterState := do
  return ((← query.entryAt place filter).seenAt query.network.clock).state

/-- Waits for a filter, at a worker or at the coordinator, from a moment on. -/
def await (place : Endpoint) (filter : FilterId) (since span : Nat) : Step Query WaitOutcome := do
  match place with
  | .coordinator => onNetwork (Network.await (Network.coordinatorEntry filter) since span)
  | .worker worker =>
    let post ← Step.ofExcept ((← get).post worker)
    onNetwork (Network.await (Network.bankEntry post filter) since span)

/-- A call at a worker's bank. -/
def atWorker
    (worker : WorkerId)
    (call : Nat → Bank → Except Status (Option Message × Bank)) :
    Step Query Unit := do
  let post ← Step.ofExcept ((← get).post worker)
  onNetwork (Network.atBank post call)

/-- Hands a message to a party without sending it over the network. -/
def receive (place : Endpoint) (message : Message) : Step Query Unit :=
  match place with
  | .coordinator => onNetwork (Network.atCoordinator fun now => Coordinator.receive now message)
  | .worker worker =>
    atWorker worker fun now bank => (bank.receive now message).map fun bank => (none, bank)

/-- Opens a scan at a worker under a number. One that held the number is given up. -/
def openScan
    (slot : Nat)
    (worker : WorkerId)
    (consumer : ConsumerId)
    (filters : List FilterId)
    (maxWait : Nat)
    (ownToken : Bool) :
    Step Query Unit := do
  let post ← Step.ofExcept ((← get).post worker)
  onNetwork (Scan.register post consumer filters)
  let seated : SeatedScan := ⟨{ consumer, post, filters, maxWait }, ownToken⟩
  modify fun query => release { query with scans := query.scans.filter (·.1 ≠ slot) ++ [(slot, seated)] }

/-- Runs a step of the scan under a number; the step is told whether the scan is cancelled. -/
def onScan {α : Type} (slot : Nat) (step : Bool → Step (Network × Scan) α) : Step Query α := fun query =>
  match query.scans.lookup slot with
  | none => (.error (.internal "no such scan"), query)
  | some seated =>
    let (result, network, scan) :=
      (step (!seated.ownToken && query.cancelled)).outcome (query.network, seated.scan)
    (result, {
      query with
      network
      scans := query.scans.map fun (other, held) =>
        if other = slot then (slot, { held with scan }) else (other, held) })

end Query
end Spillway
