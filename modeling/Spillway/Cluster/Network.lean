import Spillway.Cluster.Bank
import Spillway.Cluster.Coordinator

/-!
# The network of one query

The coordinator and the banks of a query, joined by lines that deliver a message before the call that
sends it returns. A message to a party that has left fails, and so does one that its receiver refuses;
a worker learns of a failure from its own call, the coordinator counts it. The network also keeps the
clock: it stands still except while somebody waits, and then jumps from one event to the next.
-/

namespace Spillway

/-- A message that was sent, and why it was not taken. -/
structure Delivery where
  receiver : Endpoint
  message : Message
  failure : Option Status

/-- A bank that was attached once, and whether somebody still uses it. -/
structure Post where
  bank : Bank
  present : Bool := true

/-- The parties of one query. Posts stay in the order in which they were attached; of several banks of
one worker the last is its bank. Deliveries are kept latest first. -/
structure Network where
  clock : Nat := 0
  coordinator : Option Coordinator := none
  posts : Array Post := #[]
  deliveries : List Delivery := []

namespace Network

/-- The post of a worker's bank. -/
def position? (network : Network) (worker : WorkerId) : Option Nat :=
  (List.range network.posts.size).reverse.find? fun position =>
    network.posts[position]?.any fun post => post.bank.worker = worker

/-- The post of a worker's bank, if the bank is still used. -/
def presentPosition? (network : Network) (worker : WorkerId) : Option Nat :=
  (network.position? worker).filter fun position =>
    network.posts[position]?.any Post.present

/-- The bank at a post. -/
def bank? (network : Network) (position : Nat) : Option Bank :=
  network.posts[position]?.map Post.bank

/-- Puts another state of a bank at its post. -/
def setBank (network : Network) (position : Nat) (bank : Bank) : Network :=
  { network with posts := network.posts.modify position fun post => { post with bank } }

/-- Attaches a bank. -/
def attach (network : Network) (bank : Bank) : Network :=
  { network with posts := network.posts.push { bank } }

/-- Lets go of the banks that nobody uses. -/
def retain (network : Network) (used : Nat → Bool) : Network :=
  { network with
    posts := network.posts.mapIdx fun position post =>
      { post with present := post.present && used position } }

/-- Writes down a delivery. -/
def record (network : Network) (delivery : Delivery) : Network :=
  { network with deliveries := delivery :: network.deliveries }

/-- The network after a message to a worker, or why the message was not taken. -/
def handToWorker (network : Network) (worker : WorkerId) (message : Message) :
    Except Status Network :=
  match network.presentPosition? worker with
  | none =>
    .error (.internal ("runtime filter bank of worker " ++ worker.render ++ " is not attached"))
  | some position =>
    match network.bank? position with
    | none => .ok network
    | some bank => (bank.receive network.clock message).map (network.setBank position)

/-- Sends a message of the coordinator to a worker. A failure is counted. -/
def sendToWorker (network : Network) (worker : WorkerId) (message : Message) : Network :=
  match network.handToWorker worker message with
  | .ok network => network.record ⟨.worker worker, message, none⟩
  | .error status =>
    { network.record ⟨.worker worker, message, some status⟩ with
      coordinator := network.coordinator.map (·.noteFailures 1) }

/-- Sends messages of the coordinator. -/
def sendAll (network : Network) (mail : Mail) : Network :=
  mail.foldl (fun network (worker, message) => network.sendToWorker worker message) network

/-- The failure of a call at a coordinator that does not exist. -/
def noCoordinator : Status :=
  .internal "runtime filter coordinator is not attached"

/-- A call at the coordinator. Its messages are delivered before it returns. -/
def atCoordinator (call : Nat → Step Coordinator Mail) : Step Network Unit := fun network =>
  match network.coordinator with
  | none => (.error noCoordinator, network)
  | some coordinator =>
    match (call network.clock).outcome coordinator with
    | (.ok mail, coordinator) =>
      (.ok (), { network with coordinator := some coordinator }.sendAll mail)
    | (.error status, coordinator) =>
      (.error status, { network with coordinator := some coordinator })

/-- Sends a message of a worker to the coordinator; its failure is the worker's. -/
def sendToCoordinator (message : Message) : Step Network Unit := fun network =>
  match (atCoordinator fun now => Coordinator.receive now message).outcome network with
  | (.ok (), network) => (.ok (), network.record ⟨.coordinator, message, none⟩)
  | (.error status, network) =>
    (.error status, network.record ⟨.coordinator, message, some status⟩)

/-- A call at a bank. The message that it has to send is sent before the call returns; what the bank
has noted stays noted when sending fails. -/
def atBank
    (position : Nat)
    (call : Nat → Bank → Except Status (Option Message × Bank)) :
    Step Network Unit := do
  let network ← get
  match network.bank? position with
  | none => return ()
  | some bank =>
    let (message, bank) ← Step.ofExcept (call network.clock bank)
    set (network.setBank position bank)
    match message with
    | none => return ()
    | some message => sendToCoordinator message

/-- What the timer does when the first of its deadlines has come. -/
def fire (network : Network) (event : Nat × FilterId) : Network :=
  match network.coordinator with
  | none => network
  | some coordinator =>
    let clock := max network.clock event.1
    let (mail, coordinator) :=
      { coordinator with timer := coordinator.timer.erase event }.onDeadline clock event.2
    { network with clock, coordinator := some coordinator }.sendAll mail

/-- The deadlines that the coordinator's timer waits for. -/
def timer (network : Network) : List (Nat × FilterId) :=
  (network.coordinator.map Coordinator.timer).getD []

/-- Lets time pass until a moment. -/
def advance (network : Network) (moment : Nat) : Network :=
  let network := (network.timer.filter fun event => event.1 ≤ moment).foldl fire network
  { network with clock := max network.clock moment }

/-- Whether so many timeouts were announced and so many messages sent. -/
def reached (network : Network) (timedOut sent : Nat) : Bool :=
  timedOut ≤ (network.coordinator.map (·.stats.timedOut)).getD 0 && sent ≤ network.deliveries.length

/-- Lets time pass until so many timeouts were announced and so many messages sent. -/
def settle (network : Network) (timedOut sent : Nat) : Network :=
  network.timer.foldl (fun network event =>
    if network.reached timedOut sent then network else network.fire event) network

/-- Waits for a filter at the party that holds its entry. -/
def await (find : Network → Except Status Entry) (since span : Nat) : Step Network WaitOutcome := do
  let network ← get
  let entry ← Step.ofExcept (find network)
  let limit := entry.limitOf since span
  match entry.answer? network.clock limit with
  | some outcome => return outcome
  | none =>
    let network := network.advance (entry.lastMoment limit)
    set network
    let entry ← Step.ofExcept (find network)
    return (entry.answer? network.clock limit).getD .timedOut

/-- The entry of a filter at the coordinator. -/
def coordinatorEntry (filter : FilterId) (network : Network) : Except Status Entry :=
  match network.coordinator with
  | none => .error noCoordinator
  | some coordinator => coordinator.entry filter

/-- The entry of a filter at a post. -/
def bankEntry (position : Nat) (filter : FilterId) (network : Network) : Except Status Entry :=
  match network.bank? position with
  | none => .error (.internal "runtime filter bank is not attached")
  | some bank => bank.entry filter

end Network
end Spillway
