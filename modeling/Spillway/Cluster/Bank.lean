import Spillway.Cluster.Entry
import Spillway.Cluster.Message

/-!
# Filter banks

The bank of a worker holds an entry for every filter of the query. Local filters are merged here. For
all others the bank passes contributions on to the coordinator, subscribes when its first consumer
registers, and resolves its entry as the coordinator says. An operation does not send by itself: it
returns the message that is to be sent.
-/

namespace Spillway

/-- The filters of one query on one worker. -/
structure Bank where
  worker : WorkerId
  query : QueryId
  mode : FilterMode
  entries : Entries
  consumers : List (FilterId × ConsumerId) := []

namespace Bank

/-- A fresh entry of a bank. A filter that the mode excludes is disabled, unless it is over before. -/
def startEntry (mode : FilterMode) (now : Nat) (descriptor : FilterDescriptor) : Entry :=
  let entry := Entry.start descriptor now
  if mode.allows descriptor then entry else ((entry.disable now).toOption.getD entry)

/-- Opens the bank of a worker. Of two descriptors of one filter the later counts. -/
def start
    (worker : WorkerId)
    (query : QueryId)
    (mode : FilterMode)
    (descriptors : List FilterDescriptor)
    (now : Nat) :
    Bank where
  worker
  query
  mode
  entries := descriptors.foldl (fun entries descriptor =>
    entries.insert (startEntry mode now descriptor)) ([] : Entries)

/-- The entry of a filter. -/
def entry (bank : Bank) (filter : FilterId) : Except Status Entry :=
  match bank.entries.lookup filter with
  | some entry => .ok entry
  | none =>
    .error (.invalidArgument ("unknown runtime filter " ++ filter.render ++ " on worker " ++
      bank.worker.render ++ " (query_id=" ++ bank.query.render ++ ")"))

/-- Puts an entry in the place of the one for the same filter. -/
def setEntry (bank : Bank) (entry : Entry) : Bank :=
  { bank with entries := bank.entries.update entry }

/-- A message of the bank's query. -/
def message (bank : Bank) (notice : Notice) : Message :=
  ⟨bank.query, notice⟩

/-- Whether a consumer of the filter is registered. -/
def hasConsumer (bank : Bank) (filter : FilterId) : Bool :=
  bank.consumers.any fun consumer => consumer.1 = filter

/-- Registers a consumer of a filter. The first one of a filter that is resolved elsewhere, and still
pending, subscribes the worker. -/
def register
    (bank : Bank)
    (now : Nat)
    (consumer : ConsumerId)
    (filter : FilterId) :
    Except Status (Option Message × Bank) := do
  let entry ← bank.entry filter
  let first := !bank.hasConsumer filter
  let registered := { bank with consumers := bank.consumers.insert (filter, consumer) }
  if first ∧ entry.descriptor.isLocal = false ∧ (entry.seenAt now).state = .pending then
    return (some (bank.message (.subscribe filter bank.worker)), registered)
  else return (none, registered)

/-- Hands over the contribution of a producer: a local filter merges it here, any other that the mode
admits sends it on. -/
def contribute
    (bank : Bank)
    (now : Nat)
    (filter : FilterId)
    (producer : ProducerId)
    (contribution : KeyFilter) :
    Except Status (Option Message × Bank) := do
  let entry ← bank.entry filter
  if entry.descriptor.isLocal then
    let (_, entry) ← (entry.merge now producer contribution).mapError EntryFault.status
    return (none, bank.setEntry entry)
  else if bank.mode.allows entry.descriptor then
    return (some (bank.message
      (.contribution filter bank.worker producer (Wire.encode contribution))), bank)
  else return (none, bank)

/-- Cancels every entry. -/
def cancel (bank : Bank) : Bank :=
  { bank with entries := bank.entries.cancelAll }

/-- Takes a message from the coordinator. -/
def receive (bank : Bank) (now : Nat) (message : Message) : Except Status Bank :=
  if message.query ≠ bank.query then
    .error (.invalidArgument ("runtime filter message for query " ++ message.query.render ++
      " delivered to worker " ++ bank.worker.render ++ " of query " ++ bank.query.render))
  else
    match message.notice with
    | .publish filter payload => do
      let published ← decodePayload payload
      let entry ← bank.entry filter
      return bank.setEntry (entry.publish now published).2
    | .timedOut filter => do
      let entry ← bank.entry filter
      return bank.setEntry entry.timeOut.2
    | .disabled filter => do
      let entry ← bank.entry filter
      return bank.setEntry ((entry.disable now).toOption.getD entry)
    | .cancel => .ok bank.cancel
    | notice =>
      .error (.invalidArgument ("worker cannot handle runtime filter message '" ++ notice.name ++ "'"))

end Bank
end Spillway
