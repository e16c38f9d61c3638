import Spillway.Cluster.Network
import Spillway.Proofs.Cluster.Histories

/-!
# A worker is told of a resolved filter once

A worker that subscribes to a resolved filter is told of the resolution, but only on its first
subscription. Whoever has subscribed before is passed over, even if what he was sent then did not come
through, and even if the bank that it came to has been replaced. So a letter that was lost is not made
up for.
-/

namespace Spillway
namespace Coordinator

/-! ## Who is subscribed -/

/-- The worker asks for the filter, by a call or by a message of the query. -/
def Event.Subscribes (query : QueryId) (filter : FilterId) (worker : WorkerId) : Event → Prop
  | .call served =>
    served.request = .subscribe filter worker ∨
      served.request = .receive ⟨query, .subscribe filter worker⟩
  | _ => False

section Subscribers

variable {coordinator : Coordinator} {now : Nat} {filter : FilterId} {entry : Entry}
  {worker : WorkerId}

theorem mem_subscribers_subscribe_iff
    {target : FilterId}
    {other : WorkerId}
    (found : coordinator.entries.lookup filter = some entry) :
    (filter, worker) ∈ ((subscribe now target other).outcome coordinator).2.subscribers ↔
      (filter, worker) ∈ coordinator.subscribers ∨ target = filter ∧ other = worker := by
  rw [outcome_subscribe]
  cases known : coordinator.entry target with
  | error status =>
      have different : target ≠ filter := by
        rintro rfl
        rw [entry_of_lookup found] at known
        cases known
      simp [different]
  | ok entry =>
      dsimp only
      split
      · next before =>
        constructor
        · exact .inl
        · rintro (already | ⟨rfl, rfl⟩)
          · exact already
          · exact before
      · show _ ∈ coordinator.subscribers ++ [(target, other)] ↔ _
        rw [List.mem_append, List.mem_singleton, Prod.mk.injEq, eq_comm, @eq_comm _ worker]

theorem subscribers_update
    (producer : ProducerId)
    (contribution : KeyFilter) :
    ((update now filter producer contribution).outcome coordinator).2.subscribers =
      coordinator.subscribers := by
  rw [outcome_update]
  cases coordinator.entry filter with
  | error status => rfl
  | ok entry =>
      dsimp only
      cases entry.merge now producer contribution with
      | error fault => rfl
      | ok result =>
          obtain ⟨outcome, next⟩ := result
          cases outcome <;> rfl

theorem subscribers_disable :
    ((disable now filter).outcome coordinator).2.subscribers = coordinator.subscribers := by
  rw [outcome_disable]
  cases coordinator.entry filter with
  | error status => rfl
  | ok entry =>
      dsimp only
      cases entry.disable now <;> rfl

theorem mem_subscribers_receive_iff
    {message : Message}
    (found : coordinator.entries.lookup filter = some entry) :
    (filter, worker) ∈ ((receive now message).outcome coordinator).2.subscribers ↔
      (filter, worker) ∈ coordinator.subscribers ∨
        message = ⟨coordinator.query, .subscribe filter worker⟩ := by
  obtain ⟨query, notice⟩ := message
  rw [outcome_receive]
  split
  · next foreign =>
    have other : (⟨query, notice⟩ : Message) ≠ ⟨coordinator.query, .subscribe filter worker⟩ :=
      fun same => foreign (congrArg Message.query same)
    simp [other]
  · next own =>
    obtain rfl := not_not.mp own
    cases notice with
    | contribution target sender producer payload =>
        dsimp only
        cases decodePayload payload with
        | ok contribution =>
            dsimp only
            rw [subscribers_update]
            simp [note]
        | error status => simp [note]
    | subscribe target other =>
        rw [mem_subscribers_subscribe_iff found]
        simp
    | publish | timedOut | disabled | cancel => simp

theorem mem_subscribers_occur_iff
    (found : coordinator.entries.lookup filter = some entry)
    (event : Event) :
    (filter, worker) ∈ (coordinator.occur event).2.subscribers ↔
      (filter, worker) ∈ coordinator.subscribers ∨
        event.Subscribes coordinator.query filter worker := by
  cases event with
  | call call =>
      obtain ⟨now, request⟩ := call
      cases request with
      | subscribe target other =>
          refine (mem_subscribers_subscribe_iff found).trans ?_
          simp [Event.Subscribes]
      | update target producer contribution =>
          show _ ∈ ((update now target producer contribution).outcome coordinator).2.subscribers ↔ _
          rw [subscribers_update]
          simp [Event.Subscribes]
      | disable target =>
          show _ ∈ ((disable now target).outcome coordinator).2.subscribers ↔ _
          rw [subscribers_disable]
          simp [Event.Subscribes]
      | receive message =>
          refine (mem_subscribers_receive_iff found).trans ?_
          simp [Event.Subscribes]
      | look target =>
          show _ ∈ (coordinator.look now target).subscribers ↔ _
          unfold look
          cases coordinator.entries.lookup target <;> simp [Event.Subscribes, setEntry]
      | expire target =>
          show _ ∈ (coordinator.onDeadline now target).2.subscribers ↔ _
          cases known : coordinator.entries.lookup target with
          | none => simp [onDeadline, known, Event.Subscribes]
          | some other =>
              rw [(onDeadline_of_lookup now known).2.2.1]
              simp [Event.Subscribes]
  | cancel =>
      show _ ∈ coordinator.cancel.2.subscribers ↔ _
      unfold cancel
      split <;> simp [Event.Subscribes]
  | close => simp [occur, close, Event.Subscribes]
  | undelivered count => simp [occur, noteFailures, Event.Subscribes]

/-- The subscribers of a filter are the workers that have asked for it. -/
theorem mem_subscribers_through_iff
    (found : coordinator.entries.lookup filter = some entry)
    (events : List Event) :
    (filter, worker) ∈ (coordinator.through events).subscribers ↔
      (filter, worker) ∈ coordinator.subscribers ∨
        ∃ event ∈ events, event.Subscribes coordinator.query filter worker := by
  induction events generalizing coordinator entry with
  | nil => simp [through]
  | cons event events inductionHypothesis =>
      obtain ⟨next, there⟩ := exists_lookup_through ⟨entry, found⟩ [event]
      have query : (coordinator.occur event).2.query = coordinator.query :=
        coordinator.query_through [event]
      refine (inductionHypothesis there).trans ?_
      show (_ ∈ (coordinator.occur event).2.subscribers ∨ ∃ later ∈ events,
        later.Subscribes (coordinator.occur event).2.query filter worker) ↔ _
      rw [mem_subscribers_occur_iff found, query, or_assoc, List.exists_mem_cons_iff]

end Subscribers

theorem subscribers_of_start
    {query : QueryId}
    {mode : FilterMode}
    {descriptors : List FilterDescriptor}
    {opened : Coordinator}
    {openedAt : Nat}
    (started : start query mode descriptors openedAt = .ok opened) :
    opened.subscribers = [] := by
  simp only [start, bind_eq_ok_iff, pure_eq_ok_iff] at started
  obtain ⟨entries, _, rfl⟩ := started
  rfl

/-! ## What a subscription is answered -/

/-- Whoever subscribes now is told of a filter that is resolved. -/
def Answers (coordinator : Coordinator) (now : Nat) (filter : FilterId) (worker : WorkerId) : Prop :=
  ∀ notice mail after, coordinator.news? now filter = some notice →
    (subscribe now filter worker).outcome coordinator = (.ok mail, after) →
    (worker, coordinator.message notice) ∈ mail

section Answers

variable {coordinator : Coordinator} {now : Nat} {filter : FilterId} {worker : WorkerId}
  {notice : Notice}

theorem subscribe_of_subscribed
    {entry : Entry}
    (found : coordinator.entries.lookup filter = some entry)
    (before : (filter, worker) ∈ coordinator.subscribers) :
    (subscribe now filter worker).outcome coordinator = (.ok [], coordinator.note worker) := by
  rw [outcome_subscribe, entry_of_lookup found]
  exact if_pos before

theorem subscribe_of_fresh
    (resolved : coordinator.news? now filter = some notice)
    (fresh : (filter, worker) ∉ coordinator.subscribers) :
    (subscribe now filter worker).outcome coordinator =
      (.ok [(worker, coordinator.message notice)], coordinator.subscribed filter worker) := by
  obtain ⟨entry, found, resolution⟩ := news?_eq_some_iff.mp resolved
  rw [outcome_subscribe, entry_of_lookup found]
  dsimp only
  rw [if_neg fresh, resolution]
  rfl

end Answers

/-- How a query answers whoever subscribes to a resolved filter. -/
structure AnsweredOnce
    (query : QueryId)
    (opened : Coordinator)
    (events : List Event)
    (now : Nat)
    (filter : FilterId)
    (worker : WorkerId) :
    Prop where
  /-- On its first subscription a worker is sent the resolution, and nothing else. -/
  first : (∀ event ∈ events, ¬ event.Subscribes query filter worker) →
    ∀ notice, (opened.through events).news? now filter = some notice →
      (subscribe now filter worker).outcome (opened.through events) =
        (.ok [(worker, ⟨query, notice⟩)], (opened.through events).subscribed filter worker)
  /-- On any other one it is sent nothing, -/
  others : (∃ event ∈ events, event.Subscribes query filter worker) →
    (subscribe now filter worker).outcome (opened.through events) =
      (.ok [], (opened.through events).note worker)
  /-- so that no bank hears of it, not even one that has come in the place of another. -/
  silent : (∃ event ∈ events, event.Subscribes query filter worker) →
    ∀ network : Network, network.coordinator = some (opened.through events) → network.clock = now →
      (Network.atCoordinator fun now => subscribe now filter worker).outcome network =
        (.ok (), { network with coordinator := some ((opened.through events).note worker) })
  /-- A subscription is answered exactly if it is the first. -/
  answers : ∀ notice, (opened.through events).news? now filter = some notice →
    ((opened.through events).Answers now filter worker ↔
      ∀ event ∈ events, ¬ event.Subscribes query filter worker)

/-- Whatever has happened to a coordinator, it answers the first subscription of a worker to a resolved
filter, and no other one. -/
theorem answeredOnce_of_start
    {query : QueryId}
    {mode : FilterMode}
    {descriptors : List FilterDescriptor}
    {descriptor : FilterDescriptor}
    {opened : Coordinator}
    {openedAt : Nat}
    (started : start query mode descriptors openedAt = .ok opened)
    (member : descriptor ∈ descriptors)
    (elsewhere : descriptor.isLocal = false)
    (events : List Event)
    (now : Nat)
    (worker : WorkerId) :
    AnsweredOnce query opened events now descriptor.id worker := by
  obtain ⟨posted, rfl⟩ := posted_of_start started member elsewhere
  obtain ⟨entry, found, _⟩ := posted.settled
  obtain ⟨current, there⟩ := exists_lookup_through ⟨entry, found⟩ events
  have subscribed : (descriptor.id, worker) ∈ (opened.through events).subscribers ↔
      ∃ event ∈ events, event.Subscribes opened.query descriptor.id worker := by
    rw [mem_subscribers_through_iff found, subscribers_of_start started]
    simp
  have message : ∀ notice, (opened.through events).message notice = ⟨opened.query, notice⟩ :=
    fun notice => congrArg (Message.mk · notice) (opened.query_through events)
  have fresh : (∀ event ∈ events, ¬ event.Subscribes opened.query descriptor.id worker) ↔
      (descriptor.id, worker) ∉ (opened.through events).subscribers := by
    rw [subscribed]
    simp
  constructor
  · intro never notice resolved
    rw [← message]
    exact subscribe_of_fresh resolved (fresh.mp never)
  · intro before
    exact subscribe_of_subscribed there (subscribed.mpr before)
  · rintro before network here rfl
    show Network.atCoordinator (fun now => subscribe now descriptor.id worker) network = _
    unfold Network.atCoordinator
    rw [here]
    dsimp only
    rw [subscribe_of_subscribed there (subscribed.mpr before)]
    rfl
  · intro notice resolved
    rw [fresh]
    constructor
    · intro answers before
      exact absurd (answers notice _ _ resolved (subscribe_of_subscribed there before))
        List.not_mem_nil
    · intro never other mail after told subscribes
      rw [subscribe_of_fresh told never] at subscribes
      cases subscribes
      exact List.mem_singleton_self _

/-! ## A letter that is lost -/

/-- A filter is disabled, and then a worker subscribes to it whose bank is not there yet. -/
def lostEvents : List Event :=
  [.call ⟨10, .disable ⟨7⟩⟩, .call ⟨20, .subscribe ⟨7⟩ ⟨1⟩⟩, .undelivered 1]

theorem answeredOnce_of_lostEvents :
    AnsweredOnce ⟨1, 2⟩ Cluster.sampleOpened.coordinator lostEvents 30 ⟨7⟩ ⟨1⟩ ∧
      Cluster.sampleOpened.coordinator.mailed lostEvents = [(⟨1⟩, ⟨⟨1, 2⟩, .disabled ⟨7⟩⟩)] ∧
      (Cluster.sampleOpened.coordinator.through lostEvents).news? 30 ⟨7⟩ = some (.disabled ⟨7⟩) :=
  ⟨answeredOnce_of_start Cluster.opened_sample.coordinator List.mem_cons_self rfl lostEvents 30 ⟨1⟩,
    by decide, by decide⟩

/-- The worker is not told when it subscribes again. -/
theorem not_answers_lostEvents :
    ¬ (Cluster.sampleOpened.coordinator.through lostEvents).Answers 30 ⟨7⟩ ⟨1⟩ := by
  intro answers
  have told := answers (.disabled ⟨7⟩) [] _ (by decide) rfl
  exact absurd told List.not_mem_nil

end Coordinator
end Spillway
