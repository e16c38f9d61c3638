import Spillway.Cluster.Coordinator
import Spillway.Proofs.Cluster.Assignment

/-!
# An entry that has arrived holds its filter

A stored entry keeps how far it has come in one field and the filter that arrived in another one, so
either could change without the other. Whoever waits for an arrived filter and finds none is told of a
time-out, and a worker that subscribes to one is refused. Neither happens: a stored entry answers every
run of requests as the entry does whose state holds the filter, and what is announced of it is what is
announced of that state.
-/

namespace Spillway

/-- How far a filter has come, apart from the filter itself. -/
inductive FilterPhase where
  | pending
  | arrived
  | timedOut
  | disabled
  deriving DecidableEq

/-- Name of a phase as it is printed. -/
def FilterPhase.name : FilterPhase → String
  | pending => "PENDING"
  | arrived => "ARRIVED"
  | timedOut => "TIMED_OUT"
  | disabled => "DISABLED"

namespace FilterState

/-- The state without its filter. -/
def phase : FilterState → FilterPhase
  | pending => .pending
  | arrived _ => .arrived
  | timedOut => .timedOut
  | disabled => .disabled

theorem phase_eq_pending_iff {state : FilterState} : state.phase = .pending ↔ state = .pending := by
  cases state <;> simp [phase]

/-- The filter is there exactly when the state says that it has arrived. -/
theorem phase_eq_arrived_iff {state : FilterState} :
    state.phase = .arrived ↔ ∃ filter, state.published = some filter := by
  cases state <;> simp [phase, published]

end FilterState

namespace Entry

/-- An entry as it is stored. -/
structure Stored where
  descriptor : FilterDescriptor
  deadline : Nat
  phase : FilterPhase := .pending
  aggregate : Option KeyFilter := none
  published : Option KeyFilter := none
  producers : List ProducerId := []
  outstanding : Nat
  cancelled : Bool := false
  late : Nat := 0

/-- The entry as it is stored. -/
def stored (entry : Entry) : Stored where
  descriptor := entry.descriptor
  deadline := entry.deadline
  phase := entry.state.phase
  aggregate := entry.aggregate
  published := entry.state.published
  producers := entry.producers
  outstanding := entry.outstanding
  cancelled := entry.cancelled
  late := entry.late

namespace Stored

/-! ## Stored entries -/

/-- What becomes of a contribution to a stored entry. -/
inductive Outcome where
  | merged (outstanding : Nat)
  | completed (filter : KeyFilter)
  | duplicate
  | late (phase : FilterPhase)

/-- What a stored entry answers. Who looks at it reads both fields. -/
inductive Reply where
  | offered (result : Except Status Outcome)
  | published (installed : Bool)
  | timedOut (ended : Bool)
  | disabled (refusal : Option Status)
  | cancelled
  | waited (outcome : Option WaitOutcome)
  | seen (phase : FilterPhase) (published : Option KeyFilter)

/-- A fresh stored entry. -/
def start (descriptor : FilterDescriptor) (now : Nat) : Stored where
  descriptor
  deadline := (Clock.after? now descriptor.deadline).getD (now + Clock.year)
  outstanding := descriptor.producers

/-- Ends a pending entry as timed out and forgets what was merged. -/
def giveUp (stored : Stored) : Stored :=
  { stored with phase := .timedOut, aggregate := none }

/-- Ends a pending entry whose deadline is over; tells whether it was one. -/
def expire (stored : Stored) (now : Nat) : Bool × Stored :=
  if stored.phase ≠ .pending ∨ now < stored.deadline then (false, stored) else (true, stored.giveUp)

/-- A pending entry after a producer's contribution made it hold an aggregate. -/
def accept (stored : Stored) (producer : ProducerId) (aggregate : KeyFilter) : Outcome × Stored :=
  let stored := {
    stored with
    producers := stored.producers ++ [producer]
    outstanding := stored.outstanding - 1 }
  if 0 < stored.outstanding then
    (.merged stored.outstanding, { stored with aggregate := some aggregate })
  else
    (.completed aggregate,
      { stored with aggregate := none, published := some aggregate, phase := .arrived })

/-- Offers the contribution of a producer. -/
def merge
    (stored : Stored)
    (now : Nat)
    (producer : ProducerId)
    (contribution : KeyFilter) :
    Except Status (Outcome × Stored) :=
  if contribution.kind ≠ stored.descriptor.kind then
    .error (EntryFault.wrongKind stored.descriptor.id stored.descriptor.kind contribution.kind).status
  else
    let stored := (stored.expire now).2
    if stored.phase ≠ .pending then
      .ok (.late stored.phase, { stored with late := stored.late + 1 })
    else if stored.producers.contains producer then .ok (.duplicate, stored)
    else
      match KeyFilter.mergeInto stored.aggregate contribution with
      | .error fault => .error fault.status
      | .ok merged => .ok (stored.accept producer merged)

/-- Installs a filter that was merged elsewhere; tells whether the entry was still pending. -/
def publish (stored : Stored) (now : Nat) (filter : KeyFilter) : Bool × Stored :=
  let stored := (stored.expire now).2
  if stored.phase ≠ .pending then (false, { stored with late := stored.late + 1 })
  else (true, { stored with published := some filter, phase := .arrived })

/-- Ends a pending entry ahead of its deadline; tells whether this call ended it. -/
def timeOut (stored : Stored) (now : Nat) : Bool × Stored :=
  let (expired, stored) := stored.expire now
  if expired then (true, stored)
  else if stored.phase ≠ .pending then (false, stored)
  else (true, stored.giveUp)

/-- Disables an entry that has merged nothing. -/
def disable (stored : Stored) (now : Nat) : Option Status × Stored :=
  let stored := (stored.expire now).2
  if stored.phase = .disabled then (none, stored)
  else if stored.phase ≠ .pending then
    (some (.illegalState ("runtime filter " ++ stored.descriptor.id.render ++
      " cannot be disabled in state " ++ stored.phase.name)), stored)
  else if ¬ stored.producers.isEmpty then
    (some (EntryFault.contributed stored.descriptor.id stored.producers.length).status, stored)
  else (none, { stored with phase := .disabled })

/-- What a waiter gets who looks now and gives up at some moment; nothing while it has to wait. Who finds
no filter where one has arrived is told of a time-out. -/
def answer? (stored : Stored) (now limit : Nat) : Option WaitOutcome :=
  let stored := (stored.expire now).2
  if stored.cancelled then some .cancelled
  else
    match stored.phase with
    | .arrived =>
      match stored.published with
      | some filter => some (.arrived filter)
      | none => some .timedOut
    | .timedOut => some .timedOut
    | .disabled => some .disabled
    | .pending => if limit ≤ now then some .timedOut else none

/-- Serves a request at a moment. -/
def serve (stored : Stored) (now : Nat) : Request → Reply × Stored
  | .merge producer contribution =>
    match stored.merge now producer contribution with
    | .ok (outcome, next) => (.offered (.ok outcome), next)
    | .error status => (.offered (.error status), stored)
  | .publish filter =>
    let (installed, next) := stored.publish now filter
    (.published installed, next)
  | .timeOut =>
    let (ended, next) := stored.timeOut now
    (.timedOut ended, next)
  | .disable =>
    let (refusal, next) := stored.disable now
    (.disabled refusal, next)
  | .cancel => (.cancelled, { stored with cancelled := true })
  | .wait since span =>
    (.waited (stored.answer? now ((Clock.after? since span).getD stored.deadline)),
      (stored.expire now).2)
  | .look =>
    let stored := (stored.expire now).2
    (.seen stored.phase stored.published, stored)

/-- What is answered to calls. -/
def replies : Stored → List Call → List Reply
  | _, [] => []
  | stored, call :: calls =>
    (stored.serve call.now call.request).1 :: replies (stored.serve call.now call.request).2 calls

/-- The stored entry after calls. -/
def after (stored : Stored) (calls : List Call) : Stored :=
  calls.foldl (fun stored call => (stored.serve call.now call.request).2) stored

/-- How the resolution of a filter is told to a worker that subscribes, from the two fields that are
read. An arrived filter that is not there cannot be told. -/
def announcement? (filter : FilterId) : FilterPhase → Option KeyFilter → Except Status (Option Notice)
  | .pending, _ => .ok none
  | .arrived, some merged => .ok (some (.publish filter (Wire.encode merged)))
  | .arrived, none => .error (.internal "arrived runtime filter has no payload")
  | .timedOut, _ => .ok (some (.timedOut filter))
  | .disabled, _ => .ok (some (.disabled filter))

end Stored

/-! ## An entry and how it is stored -/

/-- What becomes of a contribution, without the filter that a late one finds. -/
def recorded : MergeOutcome → Stored.Outcome
  | .merged outstanding => .merged outstanding
  | .completed filter => .completed filter
  | .duplicate => .duplicate
  | .late state => .late state.phase

/-- The answer of an entry as its stored form gives it. -/
def Reply.recorded : Reply → Stored.Reply
  | .offered result => .offered ((result.map Entry.recorded).mapError EntryFault.status)
  | .published installed => .published installed
  | .timedOut ended => .timedOut ended
  | .disabled fault => .disabled (fault.map EntryFault.status)
  | .cancelled => .cancelled
  | .waited outcome => .waited outcome
  | .seen state => .seen state.phase state.published

section Operations

variable (entry : Entry) (now : Nat)

@[simp]
theorem descriptor_stored : entry.stored.descriptor = entry.descriptor :=
  rfl

@[simp]
theorem aggregate_stored : entry.stored.aggregate = entry.aggregate :=
  rfl

theorem phase_stored_ne_pending_iff :
    entry.stored.phase ≠ .pending ↔ entry.state.isResolved = true :=
  (not_congr FilterState.phase_eq_pending_iff).trans isResolved_iff.symm

/-- A pending entry has no filter that could be left behind when it is resolved otherwise. -/
theorem published_stored {entry : Entry} (pending : entry.state = .pending) :
    entry.stored.published = none :=
  congrArg FilterState.published pending

theorem giveUp_stored {entry : Entry} (pending : entry.state = .pending) :
    entry.stored.giveUp = entry.giveUp.stored := by
  show { entry.giveUp.stored with published := entry.stored.published } = entry.giveUp.stored
  rw [published_stored pending]
  rfl

theorem expire_stored :
    entry.stored.expire now =
      (decide (entry.state = .pending ∧ entry.deadline ≤ now), (entry.seenAt now).stored) := by
  have inTime : (entry.stored.phase ≠ .pending ∨ now < entry.stored.deadline) ↔
      ¬ (entry.state = .pending ∧ entry.deadline ≤ now) := by
    rw [not_and_or, Nat.not_le]
    exact or_congr_left (not_congr FilterState.phase_eq_pending_iff)
  unfold Stored.expire seenAt
  by_cases due : entry.state = .pending ∧ entry.deadline ≤ now
  · rw [if_neg fun early => inTime.mp early due, if_pos due, decide_eq_true due, giveUp_stored due.1]
  · rw [if_pos (inTime.mpr due), if_neg due, decide_eq_false due]

/-- A contribution that is taken leaves an open entry without a filter, or with the one that arrives. -/
theorem accept_stored
    (producer : ProducerId)
    (merged : KeyFilter) :
    entry.stored.accept producer merged =
      (recorded (entry.accept producer merged).1, (entry.accept producer merged).2.stored) := by
  by_cases missing : 0 < entry.outstanding - 1
  · rw [accept_of_missing entry producer merged missing]
    exact if_pos missing
  · rw [accept_of_last entry producer merged missing]
    exact if_neg missing

theorem merge_stored
    (producer : ProducerId)
    (contribution : KeyFilter) :
    entry.stored.merge now producer contribution =
      ((entry.merge now producer contribution).map fun merges =>
        (recorded merges.1, merges.2.stored)).mapError EntryFault.status := by
  unfold Stored.merge merge
  rw [expire_stored, descriptor_stored]
  by_cases kind : contribution.kind = entry.descriptor.kind
  · rw [if_neg (not_not.mpr kind), if_neg (not_not.mpr kind)]
    dsimp only
    by_cases resolved : (entry.seenAt now).state.isResolved = true
    · rw [if_pos resolved, if_pos ((phase_stored_ne_pending_iff _).mpr resolved)]
      rfl
    · rw [if_neg resolved, if_neg fun settled => resolved ((phase_stored_ne_pending_iff _).mp settled)]
      have same : (entry.seenAt now).stored.producers = (entry.seenAt now).producers := rfl
      by_cases known : (entry.seenAt now).producers.contains producer = true
      · rw [if_pos known, if_pos (same ▸ known)]
        rfl
      · rw [if_neg known, if_neg (same ▸ known), mergedWith_eq, aggregate_stored]
        cases KeyFilter.mergeInto (entry.seenAt now).aggregate contribution with
        | error fault => rfl
        | ok merged => exact congrArg Except.ok (accept_stored _ producer merged)
  · rw [if_pos kind, if_pos kind]
    rfl

theorem publish_stored (filter : KeyFilter) :
    entry.stored.publish now filter =
      ((entry.publish now filter).1, (entry.publish now filter).2.stored) := by
  unfold Stored.publish publish
  rw [expire_stored]
  dsimp only
  by_cases resolved : (entry.seenAt now).state.isResolved = true
  · rw [if_pos resolved, if_pos ((phase_stored_ne_pending_iff _).mpr resolved)]
    rfl
  · rw [if_neg resolved, if_neg fun settled => resolved ((phase_stored_ne_pending_iff _).mp settled)]
    rfl

theorem timeOut_stored :
    entry.stored.timeOut now = (entry.timeOut.1, entry.timeOut.2.stored) := by
  unfold Stored.timeOut timeOut
  rw [expire_stored]
  dsimp only
  by_cases due : entry.state = .pending ∧ entry.deadline ≤ now
  · rw [if_pos (decide_eq_true due), if_neg fun resolved => isResolved_iff.mp resolved due.1, seenAt,
      if_pos due]
  · rw [if_neg (mt of_decide_eq_true due), seenAt, if_neg due]
    by_cases resolved : entry.state.isResolved = true
    · rw [if_pos resolved, if_pos ((phase_stored_ne_pending_iff _).mpr resolved)]
    · rw [if_neg resolved, if_neg fun settled => resolved ((phase_stored_ne_pending_iff _).mp settled),
        giveUp_stored (not_not.mp (mt isResolved_iff.mpr resolved))]

/-- A refusal leaves an entry as it was seen. -/
theorem disable_stored :
    entry.stored.disable now =
      match entry.disable now with
      | .ok next => (none, next.stored)
      | .error fault => (some fault.status, (entry.seenAt now).stored) := by
  unfold Stored.disable disable
  rw [expire_stored]
  generalize entry.seenAt now = entry
  obtain ⟨descriptor, deadline, state, aggregate, producers, outstanding, cancelled, late⟩ := entry
  cases state with
  | pending => cases producers <;> rfl
  | arrived filter => rfl
  | timedOut => rfl
  | disabled => rfl

/-- A waiter who finds that a filter has arrived finds the filter. -/
theorem answer?_stored (limit : Nat) :
    entry.stored.answer? now limit = entry.answer? now limit := by
  have cancelled : (entry.seenAt now).cancelled = entry.cancelled := by
    unfold seenAt
    split <;> rfl
  unfold Stored.answer? answer?
  rw [expire_stored, ← cancelled]
  generalize entry.seenAt now = seen
  obtain ⟨descriptor, deadline, state, aggregate, producers, outstanding, cancelled, late⟩ := seen
  cases state <;> rfl

end Operations

/-- A stored entry serves a request as the entry does. -/
theorem serve_stored
    (entry : Entry)
    (now : Nat)
    (request : Request) :
    entry.stored.serve now request =
      ((entry.serve now request).1.recorded, (entry.serve now request).2.stored) := by
  cases request with
  | merge producer contribution =>
      unfold Stored.serve serve
      dsimp only
      rw [merge_stored]
      cases entry.merge now producer contribution <;> rfl
  | publish filter =>
      unfold Stored.serve serve
      dsimp only
      rw [publish_stored]
      rfl
  | timeOut =>
      unfold Stored.serve serve
      dsimp only
      rw [timeOut_stored]
      rfl
  | disable =>
      unfold Stored.serve serve
      dsimp only
      rw [disable_stored]
      cases entry.disable now <;> rfl
  | cancel => rfl
  | wait since span =>
      unfold Stored.serve serve
      dsimp only
      rw [answer?_stored, expire_stored]
      rfl
  | look =>
      unfold Stored.serve serve
      dsimp only
      rw [expire_stored]
      rfl

/-! ## Runs -/

/-- A stored entry is left by calls as the entry is. -/
theorem after_stored
    (entry : Entry)
    (calls : List Call) :
    entry.stored.after calls = (entry.after calls).stored := by
  induction calls generalizing entry with
  | nil => rfl
  | cons call calls inductionHypothesis =>
      show (entry.stored.serve call.now call.request).2.after calls = _
      rw [serve_stored]
      exact inductionHypothesis (entry.next call)

/-- A stored entry answers calls as the entry does. -/
theorem replies_stored
    (entry : Entry)
    (calls : List Call) :
    entry.stored.replies calls = (entry.replies calls).map Reply.recorded := by
  induction calls generalizing entry with
  | nil => rfl
  | cons call calls inductionHypothesis =>
      rw [Stored.replies, serve_stored, inductionHypothesis]
      rfl

/-- A stored entry has a filter exactly when it has arrived, whatever it has served. -/
theorem published_after_start_iff
    (descriptor : FilterDescriptor)
    (opened : Nat)
    (calls : List Call) :
    ((Stored.start descriptor opened).after calls).phase = .arrived ↔
      ∃ filter, ((Stored.start descriptor opened).after calls).published = some filter := by
  show ((Entry.start descriptor opened).stored.after calls).phase = .arrived ↔
    ∃ filter, ((Entry.start descriptor opened).stored.after calls).published = some filter
  rw [after_stored]
  exact FilterState.phase_eq_arrived_iff

/-- What is announced of an entry is what its state announces, though the filter is read after the phase
and others are served in between. -/
theorem announcement?_after
    (entry : Entry)
    (calls between : List Call)
    (filter : FilterId) :
    Stored.announcement? filter (entry.stored.after calls).phase
        (entry.stored.after (calls ++ between)).published =
      .ok (Coordinator.resolution? filter (entry.after calls).state) := by
  rw [after_stored, after_stored, after_append]
  show Stored.announcement? filter (entry.after calls).state.phase
    ((entry.after calls).after between).state.published = _
  cases state : (entry.after calls).state with
  | pending | timedOut | disabled => rfl
  | arrived merged =>
      rw [state_after_of_resolved (by rw [state]; exact FilterState.noConfusion), state]
      rfl

end Entry
end Spillway
