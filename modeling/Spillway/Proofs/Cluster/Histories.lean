import Spillway.Proofs.Cluster.Informing

/-!
# All that may happen to a coordinator

Besides the calls that it serves, the query of a coordinator may be cancelled, the coordinator may be
closed, and messages that it has sent may be reported as undelivered. Whatever happens, the filters that
a coordinator owns keep their entries, and the subscribers are the workers that have subscribed.
-/

namespace Spillway
namespace Coordinator

/-! ## Single calls -/

/-- One contribution more has been received. -/
def received (coordinator : Coordinator) : Coordinator :=
  { coordinator with
    stats := { coordinator.stats with received := coordinator.stats.received + 1 } }

/-- The worker has subscribed to the filter. -/
def subscribed (coordinator : Coordinator) (filter : FilterId) (worker : WorkerId) : Coordinator :=
  { coordinator.note worker with
    subscribers := coordinator.subscribers ++ [(filter, worker)] }

section Calls

variable (coordinator : Coordinator) (now : Nat) (filter : FilterId)

/-- A contribution is counted and offered to the entry of the filter, if there is one. -/
theorem outcome_update
    (producer : ProducerId)
    (contribution : KeyFilter) :
    (update now filter producer contribution).outcome coordinator =
      match coordinator.entry filter with
      | .error status => (.error status, coordinator)
      | .ok entry =>
        match entry.merge now producer contribution with
        | .error fault => (.error fault.status, coordinator.received)
        | .ok (outcome, next) =>
          (.ok ((coordinator.received.setEntry next).settle filter outcome).1,
            ((coordinator.received.setEntry next).settle filter outcome).2) := by
  simp only [Step.outcome_eq_iff_ends, update, Step.ends_bind, Step.ends_get, Step.ends_ofExcept,
    Step.ends_modify, Step.ends_set, Step.ends_pure]
  cases coordinator.entry filter with
  | error status => simp
  | ok entry =>
      simp only [Except.ok.injEq, forall_eq', reduceCtorEq, false_imp_iff, implies_true, and_true]
      cases entry.merge now producer contribution with
      | error fault => simp [Except.mapError, received]
      | ok result => simp [Except.mapError, received]

/-- All subscribers are told of a filter that is disabled. -/
theorem outcome_disable :
    (disable now filter).outcome coordinator =
      match coordinator.entry filter with
      | .error status => (.error status, coordinator)
      | .ok entry =>
        match entry.disable now with
        | .error fault => (.error fault.status, coordinator)
        | .ok next =>
          (.ok (coordinator.broadcast filter (.disabled filter)), coordinator.setEntry next) := by
  simp only [Step.outcome_eq_iff_ends, disable, Step.ends_bind, Step.ends_get, Step.ends_ofExcept,
    Step.ends_modify, Step.ends_pure]
  cases coordinator.entry filter with
  | error status => simp
  | ok entry =>
      simp only [Except.ok.injEq, forall_eq', reduceCtorEq, false_imp_iff, implies_true, and_true]
      cases entry.disable now with
      | error fault => simp [Except.mapError]
      | ok next =>
          simp only [Except.mapError, Except.ok.injEq, forall_eq', reduceCtorEq, false_imp_iff,
            implies_true, and_true]
          rfl

/-- A worker is noted, and on its first subscription it is told of a resolution. -/
theorem outcome_subscribe
    (worker : WorkerId) :
    (subscribe now filter worker).outcome coordinator =
      match coordinator.entry filter with
      | .error status => (.error status, coordinator)
      | .ok entry =>
        if (filter, worker) ∈ coordinator.subscribers then (.ok [], coordinator.note worker)
        else
          (.ok ((resolution? filter (entry.seenAt now).state).map fun notice =>
            (worker, coordinator.message notice)).toList, coordinator.subscribed filter worker) := by
  simp only [Step.outcome_eq_iff_ends, subscribe, Step.ends_bind, Step.ends_get, Step.ends_ofExcept,
    Step.ends_modify, Step.ends_ite, Step.ends_set, Step.ends_pure]
  cases coordinator.entry filter with
  | error status => simp
  | ok entry =>
      simp only [Except.ok.injEq, forall_eq', reduceCtorEq, false_imp_iff, implies_true, and_true]
      constructor
      · intro before
        exact (if_pos (show (filter, worker) ∈ coordinator.subscribers from before)).symm
      · intro first
        exact (if_neg (show (filter, worker) ∉ coordinator.subscribers from first)).symm

/-- A message is taken only if it is of the query. One that holds a contribution has its sender noted
before the contribution is read. -/
theorem outcome_receive
    (message : Message) :
    (receive now message).outcome coordinator =
      if message.query ≠ coordinator.query then
        (.error (.invalidArgument ("runtime filter message for query " ++ message.query.render ++
          " delivered to coordinator of query " ++ coordinator.query.render)), coordinator)
      else
        match message.notice with
        | .contribution target worker producer payload =>
          match decodePayload payload with
          | .ok contribution =>
            (update now target producer contribution).outcome (coordinator.note worker)
          | .error status => (.error status, coordinator.note worker)
        | .subscribe target worker => (subscribe now target worker).outcome coordinator
        | notice =>
          (.error (.invalidArgument ("coordinator cannot handle runtime filter message '" ++ notice.name ++
            "'")), coordinator) := by
  rw [receive, Step.outcome_bind]
  show Step.outcome (if message.query ≠ coordinator.query then _ else _) coordinator = _
  split
  · rfl
  · cases message.notice with
    | contribution target worker producer payload =>
        rw [Step.outcome_bind]
        show (Step.ofExcept (decodePayload payload) >>= _ : Step Coordinator Mail).outcome
          (coordinator.note worker) = _
        rw [Step.outcome_bind, Step.outcome_ofExcept]
        dsimp only
        cases decodePayload payload with
        | ok contribution => rfl
        | error status => rfl
    | subscribe target worker => rfl
    | publish | timedOut | disabled | cancel => rfl

end Calls

/-! ## What may happen -/

/-- What may happen to a coordinator: it is called, or it is told to cancel the query or to close, or
how many messages were not delivered. -/
inductive Event where
  | call (call : Call)
  | cancel
  | close
  | undelivered (count : Nat)

/-- What is sent when something happens, and what it leaves behind. -/
def occur (coordinator : Coordinator) : Event → Mail × Coordinator
  | .call call => coordinator.serve call.now call.request
  | .cancel => coordinator.cancel
  | .close => ([], coordinator.close)
  | .undelivered count => ([], coordinator.noteFailures count)

/-- The coordinator after all that has happened. -/
def through (coordinator : Coordinator) (events : List Event) : Coordinator :=
  events.foldl (fun coordinator event => (coordinator.occur event).2) coordinator

/-- What is sent while things happen, in the order in which it is. -/
def mailed : Coordinator → List Event → Mail
  | _, [] => []
  | coordinator, event :: events =>
    (coordinator.occur event).1 ++ (coordinator.occur event).2.mailed events

theorem announces_occur
    (coordinator : Coordinator)
    (event : Event)
    (filter : FilterId) :
    ∃ now, Announces filter (fun _ _ => True) now coordinator (coordinator.occur event).2
      (coordinator.occur event).1 := by
  cases event with
  | call call => exact ⟨call.now, coordinator.announces_serve call.now call.request filter⟩
  | cancel => exact ⟨0, coordinator.announces_cancel⟩
  | close => exact ⟨0, announces_of_silent rfl rfl rfl⟩
  | undelivered count => exact ⟨0, announces_of_silent rfl rfl rfl⟩

/-- Whatever happens, a coordinator stays with its query. -/
theorem query_through
    (coordinator : Coordinator)
    (events : List Event) :
    (coordinator.through events).query = coordinator.query := by
  induction events generalizing coordinator with
  | nil => rfl
  | cons event events inductionHypothesis =>
      obtain ⟨_, announces⟩ := coordinator.announces_occur event ⟨0⟩
      exact (inductionHypothesis _).trans announces.query

/-- A filter that has an entry keeps it. -/
theorem exists_lookup_through
    {coordinator : Coordinator}
    {filter : FilterId}
    (known : ∃ entry, coordinator.entries.lookup filter = some entry)
    (events : List Event) :
    ∃ entry, (coordinator.through events).entries.lookup filter = some entry := by
  induction events generalizing coordinator with
  | nil => exact known
  | cons event events inductionHypothesis =>
      obtain ⟨_, announces⟩ := coordinator.announces_occur event filter
      obtain ⟨entry, found⟩ := known
      obtain ⟨next, there, _⟩ := announces.moves entry found
      exact inductionHypothesis ⟨next, there⟩

end Coordinator
end Spillway
