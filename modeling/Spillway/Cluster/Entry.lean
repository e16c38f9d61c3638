import Spillway.Cluster.Clock
import Spillway.Filter.Descriptor

/-!
# Filter entries

An entry is the place where one filter of a query is resolved, at most once: it arrives, times out or
is disabled. Until then it merges the contributions of distinct producers, and the last one expected
makes it arrive. The deadline is enforced by whoever looks at the entry: every operation takes the
present moment, and a pending entry whose deadline is over counts as timed out. Cancelling an entry
sends its waiters away and leaves its state alone.
-/

namespace Spillway

/-- How far a filter has come. -/
inductive FilterState where
  | pending
  | arrived (filter : KeyFilter)
  | timedOut
  | disabled
  deriving DecidableEq

namespace FilterState

/-- Name of a state as it is printed. -/
def name : FilterState → String
  | pending => "PENDING"
  | arrived _ => "ARRIVED"
  | timedOut => "TIMED_OUT"
  | disabled => "DISABLED"

/-- Whether the state is final. -/
def isResolved : FilterState → Bool
  | pending => false
  | _ => true

/-- The filter, once it has arrived. -/
def published : FilterState → Option KeyFilter
  | arrived filter => some filter
  | _ => none

end FilterState

/-- What becomes of a contribution. -/
inductive MergeOutcome where
  | merged (outstanding : Nat)
  | completed (filter : KeyFilter)
  | duplicate
  | late (state : FilterState)
  deriving DecidableEq

/-- What a waiter gets. -/
inductive WaitOutcome where
  | arrived (filter : KeyFilter)
  | timedOut
  | disabled
  | cancelled
  deriving DecidableEq

namespace WaitOutcome

/-- Name of an outcome as it is printed. -/
def name : WaitOutcome → String
  | arrived _ => "ARRIVED"
  | timedOut => "TIMED_OUT"
  | disabled => "DISABLED"
  | cancelled => "CANCELLED"

/-- The filter that a waiter gets. -/
def filter? : WaitOutcome → Option KeyFilter
  | arrived filter => some filter
  | _ => none

end WaitOutcome

/-- Why an entry refuses a contribution or cannot be disabled. -/
inductive EntryFault where
  | wrongKind (id : FilterId) (expected found : FilterKind)
  | merge (cause : FilterFault)
  | settled (id : FilterId) (state : FilterState)
  | contributed (id : FilterId) (count : Nat)
  deriving DecidableEq

/-- The status that reports the fault. -/
def EntryFault.status : EntryFault → Status
  | wrongKind id expected found =>
    .invalidArgument ("runtime filter " ++ id.render ++ " expects " ++ expected.name ++
      " partials, got " ++ found.name)
  | merge cause => cause.status
  | settled id state =>
    .illegalState ("runtime filter " ++ id.render ++ " cannot be disabled in state " ++ state.name)
  | contributed id count =>
    .illegalState ("runtime filter " ++ id.render ++ " cannot be disabled after " ++ toString count ++
      " partial(s) arrived")

/-- The place where one filter is resolved. -/
structure Entry where
  descriptor : FilterDescriptor
  deadline : Nat
  state : FilterState := .pending
  aggregate : Option KeyFilter := none
  producers : List ProducerId := []
  outstanding : Nat
  cancelled : Bool := false
  late : Nat := 0
  deriving DecidableEq

namespace Entry

/-- A fresh entry. A deadline that no clock can show is a year away. -/
def start (descriptor : FilterDescriptor) (now : Nat) : Entry where
  descriptor
  deadline := (Clock.after? now descriptor.deadline).getD (now + Clock.year)
  outstanding := descriptor.producers

/-- Name of the filter that is resolved here. -/
def id (entry : Entry) : FilterId :=
  entry.descriptor.id

/-- The filter, once it has arrived. -/
def published (entry : Entry) : Option KeyFilter :=
  entry.state.published

/-- Ends a pending entry as timed out and forgets what was merged. -/
def giveUp (entry : Entry) : Entry :=
  { entry with state := .timedOut, aggregate := none }

/-- The entry as it is seen now: a pending entry whose deadline is over has timed out. -/
def seenAt (entry : Entry) (now : Nat) : Entry :=
  if entry.state = .pending ∧ entry.deadline ≤ now then entry.giveUp else entry

/-- What was merged, together with one contribution more. -/
def mergedWith (entry : Entry) (contribution : KeyFilter) : Except EntryFault KeyFilter :=
  match entry.aggregate with
  | none => .ok contribution
  | some aggregate => (aggregate.merge contribution).mapError .merge

/-- A pending entry after the contribution of a producer that had made none. -/
def accept (entry : Entry) (producer : ProducerId) (aggregate : KeyFilter) : MergeOutcome × Entry :=
  let entry := {
    entry with
    producers := entry.producers ++ [producer]
    outstanding := entry.outstanding - 1 }
  if 0 < entry.outstanding then
    (.merged entry.outstanding, { entry with aggregate := some aggregate })
  else
    (.completed aggregate, { entry with aggregate := none, state := .arrived aggregate })

/-- Offers the contribution of a producer. A refused contribution leaves no trace. -/
def merge
    (entry : Entry)
    (now : Nat)
    (producer : ProducerId)
    (contribution : KeyFilter) :
    Except EntryFault (MergeOutcome × Entry) :=
  if contribution.kind ≠ entry.descriptor.kind then
    .error (.wrongKind entry.id entry.descriptor.kind contribution.kind)
  else
    let entry := entry.seenAt now
    if entry.state.isResolved then .ok (.late entry.state, { entry with late := entry.late + 1 })
    else if entry.producers.contains producer then .ok (.duplicate, entry)
    else (entry.mergedWith contribution).map (entry.accept producer)

/-- Installs a filter that was merged elsewhere; tells whether the entry was still pending. -/
def publish (entry : Entry) (now : Nat) (filter : KeyFilter) : Bool × Entry :=
  let entry := entry.seenAt now
  if entry.state.isResolved then (false, { entry with late := entry.late + 1 })
  else (true, { entry with state := .arrived filter })

/-- Ends a pending entry ahead of its deadline; tells whether this call ended it. -/
def timeOut (entry : Entry) : Bool × Entry :=
  if entry.state.isResolved then (false, entry) else (true, entry.giveUp)

/-- Disables an entry that has merged nothing. -/
def disable (entry : Entry) (now : Nat) : Except EntryFault Entry :=
  let entry := entry.seenAt now
  match entry.state with
  | .disabled => .ok entry
  | .pending =>
    if entry.producers.isEmpty then .ok { entry with state := .disabled }
    else .error (.contributed entry.id entry.producers.length)
  | state => .error (.settled entry.id state)

/-- Sends every waiter away. -/
def cancel (entry : Entry) : Entry :=
  { entry with cancelled := true }

/-- What a waiter gets who looks now and gives up at some moment; nothing while it has to wait. -/
def answer? (entry : Entry) (now limit : Nat) : Option WaitOutcome :=
  if entry.cancelled then some .cancelled
  else
    match (entry.seenAt now).state with
    | .arrived filter => some (.arrived filter)
    | .timedOut => some .timedOut
    | .disabled => some .disabled
    | .pending => if limit ≤ now then some .timedOut else none

/-- The moment at which a waiter gives up who starts now and waits for a span at most. -/
def limitOf (entry : Entry) (now span : Nat) : Nat :=
  (Clock.after? now span).getD entry.deadline

/-- The moment at which a waiter is answered at the latest. -/
def lastMoment (entry : Entry) (limit : Nat) : Nat :=
  min limit entry.deadline

theorem answer?_lastMoment (entry : Entry) (limit : Nat) :
    (entry.answer? (entry.lastMoment limit) limit).isSome := by
  grind [answer?, lastMoment, seenAt, giveUp]

/-- What a waiter gets who started at some moment and to whose entry nothing happens from now on, and
the moment at which it comes. -/
def wait (entry : Entry) (since now span : Nat) : WaitOutcome × Nat :=
  let limit := entry.limitOf since span
  match entry.answer? now limit with
  | some outcome => (outcome, now)
  | none =>
    let last := entry.lastMoment limit
    ((entry.answer? last limit).getD .timedOut, last)

end Entry

/-- The entries of one party, at most one for a filter. -/
abbrev Entries : Type := List Entry

namespace Entries

/-- The entry of a filter. -/
def lookup (entries : Entries) (id : FilterId) : Option Entry :=
  entries.find? fun entry => entry.id = id

/-- Puts an entry in the place of the one for the same filter. -/
def update (entries : Entries) (entry : Entry) : Entries :=
  entries.map fun other => if other.id = entry.id then entry else other

/-- Adds an entry; one for the same filter gives way. -/
def insert (entries : Entries) (entry : Entry) : Entries :=
  entries.filter (fun other => other.id ≠ entry.id) ++ [entry]

/-- Cancels all entries. -/
def cancelAll (entries : Entries) : Entries :=
  entries.map Entry.cancel

end Entries
end Spillway
