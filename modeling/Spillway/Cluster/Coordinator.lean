import Spillway.Cluster.Entry
import Spillway.Cluster.Message

/-!
# Filter coordinators

The coordinator of a query owns the filters that concern more than one worker. It merges the
contributions that workers send and tells every subscribed worker how a filter was resolved: when it
arrives, when it is disabled, and when its deadline passes, for which the coordinator keeps a timer. A
worker that subscribes late is told at once. Operations return the messages that are to be sent;
whoever sends them reports how many could not be delivered.
-/

namespace Spillway

/-- What a coordinator has counted. -/
structure CoordinatorStats where
  received : Nat := 0
  dropped : Nat := 0
  published : Nat := 0
  timedOut : Nat := 0
  sendFailures : Nat := 0
  deriving DecidableEq, Repr

/-- The filters of one query that concern more than one worker. The timer holds the deadlines that are
still to come, earliest first. -/
structure Coordinator where
  query : QueryId
  mode : FilterMode
  descriptors : List FilterDescriptor
  entries : Entries
  subscribers : List (FilterId × WorkerId) := []
  workers : List WorkerId := []
  timer : List (Nat × FilterId)
  cancelled : Bool := false
  stats : CoordinatorStats := {}

/-- Messages with the workers that they are for. -/
abbrev Mail : Type := List (WorkerId × Message)

namespace Coordinator

/-- The entries of filters, or why these descriptors cannot be opened together. A filter that the mode
excludes starts disabled. -/
def startEntries (mode : FilterMode) (now : Nat) : List FilterDescriptor → List FilterId →
    Except Status Entries
  | [], _ => .ok []
  | descriptor :: rest, seen => do
    if descriptor.producers = 0 then
      throw (.invalidArgument ("runtime filter " ++ descriptor.id.render ++ " has no producers"))
    if seen.contains descriptor.id then
      throw (.invalidArgument ("duplicate runtime filter id " ++ descriptor.id.render))
    if descriptor.isLocal then startEntries mode now rest (descriptor.id :: seen)
    else
      let fresh := Entry.start descriptor now
      let entry ←
        if mode.allows descriptor then pure fresh
        else (fresh.disable now).mapError EntryFault.status
      return entry :: (← startEntries mode now rest (descriptor.id :: seen))

/-- Deadlines in the order in which they come; of two at one moment the smaller filter is first. -/
def timerOrder (a b : Nat × FilterId) : Bool :=
  a.1 < b.1 || (a.1 = b.1 && a.2.value ≤ b.2.value)

/-- The deadlines of the entries that are pending now. -/
def armTimer (entries : Entries) (now : Nat) : List (Nat × FilterId) :=
  ((entries.filter fun entry => (entry.seenAt now).state = .pending).map fun entry =>
    (entry.deadline, entry.id)).mergeSort timerOrder

/-- Opens the coordinator of a query. -/
def start
    (query : QueryId)
    (mode : FilterMode)
    (descriptors : List FilterDescriptor)
    (now : Nat) :
    Except Status Coordinator := do
  let entries ← startEntries mode now descriptors []
  return { query, mode, descriptors, entries, timer := armTimer entries now }

/-- The entry of a filter. -/
def entry (coordinator : Coordinator) (filter : FilterId) : Except Status Entry :=
  match coordinator.entries.lookup filter with
  | some entry => .ok entry
  | none =>
    let reason :=
      if coordinator.descriptors.any fun descriptor => descriptor.id = filter then
        "is local to one worker"
      else "is unknown"
    .error (.invalidArgument ("runtime filter " ++ filter.render ++ " " ++ reason ++ " (query_id=" ++
      coordinator.query.render ++ ")"))

/-- Puts an entry in the place of the one for the same filter. -/
def setEntry (coordinator : Coordinator) (entry : Entry) : Coordinator :=
  { coordinator with entries := coordinator.entries.update entry }

/-- Remembers a worker. -/
def note (coordinator : Coordinator) (worker : WorkerId) : Coordinator :=
  { coordinator with workers := coordinator.workers.insert worker }

/-- A message of the coordinator's query. -/
def message (coordinator : Coordinator) (notice : Notice) : Message :=
  ⟨coordinator.query, notice⟩

/-- The workers that subscribed to a filter. -/
def subscribersOf (coordinator : Coordinator) (filter : FilterId) : List WorkerId :=
  (coordinator.subscribers.filter fun subscriber => subscriber.1 = filter).map Prod.snd

/-- One notice for every subscriber of a filter. -/
def broadcast (coordinator : Coordinator) (filter : FilterId) (notice : Notice) : Mail :=
  (coordinator.subscribersOf filter).map fun worker => (worker, coordinator.message notice)

/-- Counts what became of a contribution, and tells the subscribers when it was the last one. -/
def settle
    (coordinator : Coordinator)
    (filter : FilterId)
    (outcome : MergeOutcome) :
    Mail × Coordinator :=
  let stats := coordinator.stats
  match outcome with
  | .completed merged =>
    (coordinator.broadcast filter (.publish filter (Wire.encode merged)),
      { coordinator with stats := { stats with published := stats.published + 1 } })
  | .late _ => ([], { coordinator with stats := { stats with dropped := stats.dropped + 1 } })
  | _ => ([], coordinator)

/-- Merges the contribution of a producer. One that is refused counts as received all the same. -/
def update
    (now : Nat)
    (filter : FilterId)
    (producer : ProducerId)
    (contribution : KeyFilter) :
    Step Coordinator Mail := do
  let entry ← Step.ofExcept ((← get).entry filter)
  modify fun coordinator =>
    { coordinator with
      stats := { coordinator.stats with received := coordinator.stats.received + 1 } }
  let (outcome, entry) ←
    Step.ofExcept ((entry.merge now producer contribution).mapError EntryFault.status)
  let (mail, coordinator) := ((← get).setEntry entry).settle filter outcome
  set coordinator
  return mail

/-- Disables a filter that has merged nothing. -/
def disable (now : Nat) (filter : FilterId) : Step Coordinator Mail := do
  let entry ← Step.ofExcept ((← get).entry filter)
  let entry ← Step.ofExcept ((entry.disable now).mapError EntryFault.status)
  modify fun coordinator => coordinator.setEntry entry
  return (← get).broadcast filter (.disabled filter)

/-- How the resolution of a filter is told. -/
def resolution? (filter : FilterId) : FilterState → Option Notice
  | .pending => none
  | .arrived merged => some (.publish filter (Wire.encode merged))
  | .timedOut => some (.timedOut filter)
  | .disabled => some (.disabled filter)

/-- Subscribes a worker to a filter. On its first subscription it is told of a resolution that has
come already. -/
def subscribe (now : Nat) (filter : FilterId) (worker : WorkerId) : Step Coordinator Mail := do
  let entry ← Step.ofExcept ((← get).entry filter)
  modify fun coordinator => coordinator.note worker
  let coordinator ← get
  if (filter, worker) ∈ coordinator.subscribers then return []
  set { coordinator with subscribers := coordinator.subscribers ++ [(filter, worker)] }
  let notice := resolution? filter (entry.seenAt now).state
  return (notice.map fun notice => (worker, coordinator.message notice)).toList

/-- Takes a message from a worker. -/
def receive (now : Nat) (message : Message) : Step Coordinator Mail := do
  let coordinator ← get
  if message.query ≠ coordinator.query then
    Step.fail (.invalidArgument ("runtime filter message for query " ++ message.query.render ++
      " delivered to coordinator of query " ++ coordinator.query.render))
  else
    match message.notice with
    | .contribution filter worker producer payload => do
      modify fun coordinator => coordinator.note worker
      let contribution ← Step.ofExcept (decodePayload payload)
      update now filter producer contribution
    | .subscribe filter worker => subscribe now filter worker
    | notice =>
      Step.fail (.invalidArgument ("coordinator cannot handle runtime filter message '" ++ notice.name ++
        "'"))

/-- Cancels the query, once: every waiter is sent away and every worker known so far is told. -/
def cancel (coordinator : Coordinator) : Mail × Coordinator :=
  if coordinator.cancelled then ([], coordinator)
  else
    (coordinator.workers.map fun worker => (worker, coordinator.message .cancel),
      { coordinator with cancelled := true, entries := coordinator.entries.cancelAll, timer := [] })

/-- Stops the timer. -/
def close (coordinator : Coordinator) : Coordinator :=
  { coordinator with timer := [] }

/-- What the timer does at the deadline of a filter: a filter that has timed out, now or when somebody
looked at it before, is announced. -/
def onDeadline (coordinator : Coordinator) (now : Nat) (filter : FilterId) : Mail × Coordinator :=
  match coordinator.entries.lookup filter with
  | none => ([], coordinator)
  | some entry =>
    let entry := (entry.seenAt now).timeOut.2
    let coordinator := coordinator.setEntry entry
    if entry.state = .timedOut then
      (coordinator.broadcast filter (.timedOut filter),
        { coordinator with
          stats := { coordinator.stats with timedOut := coordinator.stats.timedOut + 1 } })
    else ([], coordinator)

/-- Counts messages that could not be delivered. -/
def noteFailures (coordinator : Coordinator) (count : Nat) : Coordinator :=
  { coordinator with
    stats := { coordinator.stats with sendFailures := coordinator.stats.sendFailures + count } }

end Coordinator
end Spillway
