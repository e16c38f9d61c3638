import Spillway.Proofs.Cluster.Agreement
import Spillway.Proofs.Cluster.Announcements

/-!
# Subscribers learn every outcome, and only one

A coordinator serves calls one after the other, and its timer comes to filters whenever it does, perhaps
long after somebody has seen that a deadline is over. What was sent so far is compared with what the
coordinator has to tell: every letter is true, and a subscriber lacks at most the news of a filter to
which the timer has not come yet.
-/

namespace Spillway
namespace Coordinator

/-! ## A coordinator at work -/

/-- What is asked of a coordinator. Whoever waits for a filter looks at it again and again until he is
answered, and the timer comes to a filter like a call. -/
inductive Request where
  | subscribe (filter : FilterId) (worker : WorkerId)
  | update (filter : FilterId) (producer : ProducerId) (contribution : KeyFilter)
  | disable (filter : FilterId)
  | receive (message : Message)
  | look (filter : FilterId)
  | expire (filter : FilterId)

/-- A look at a filter. An entry whose deadline is over has timed out from then on. -/
def look (coordinator : Coordinator) (now : Nat) (filter : FilterId) : Coordinator :=
  match coordinator.entries.lookup filter with
  | none => coordinator
  | some entry => coordinator.setEntry (entry.seenAt now)

/-- Serves a request: what is sent for it, and what it leaves behind. -/
def serve (coordinator : Coordinator) (now : Nat) : Request → Mail × Coordinator
  | .subscribe filter worker => answer (subscribe now filter worker) coordinator
  | .update filter producer contribution => answer (update now filter producer contribution) coordinator
  | .disable filter => answer (disable now filter) coordinator
  | .receive message => answer (receive now message) coordinator
  | .look filter => ([], coordinator.look now filter)
  | .expire filter => coordinator.onDeadline now filter

/-- A request, and the moment at which it is served. -/
structure Call where
  now : Nat
  request : Request

/-- The coordinator after a call. -/
def next (coordinator : Coordinator) (call : Call) : Coordinator :=
  (coordinator.serve call.now call.request).2

/-- The coordinator after calls. -/
def after (coordinator : Coordinator) (calls : List Call) : Coordinator :=
  calls.foldl next coordinator

/-- What is sent for calls, in the order in which it is. -/
def sent : Coordinator → List Call → Mail
  | _, [] => []
  | coordinator, call :: calls =>
    (coordinator.serve call.now call.request).1 ++ (coordinator.next call).sent calls

theorem announces_look
    (coordinator : Coordinator)
    (now : Nat)
    (filter target : FilterId) :
    Announces filter (fun _ _ => True) now coordinator (coordinator.look now target) [] := by
  unfold look
  split
  · exact announces_of_silent rfl rfl rfl
  · next entry found =>
    have moves := entry.moves_seenAt now
    exact announces_setEntry found (congrArg FilterDescriptor.id moves.descriptor) (fun _ => moves)
      rfl rfl rfl (.inl ⟨rfl, by rw [Entry.seenAt_seenAt]⟩)

theorem announces_serve
    (coordinator : Coordinator)
    (now : Nat)
    (request : Request)
    (filter : FilterId) :
    Announces filter (fun _ _ => True) now coordinator (coordinator.serve now request).2
      (coordinator.serve now request).1 := by
  cases request with
  | subscribe target worker => exact answer_of_ends announces_subscribe
  | update target producer contribution => exact answer_of_ends (announces_update fun _ => trivial)
  | disable target => exact answer_of_ends announces_disable
  | receive message => exact answer_of_ends (announces_receive fun _ _ _ _ _ _ => trivial)
  | look target => exact coordinator.announces_look now filter target
  | expire target => exact announces_onDeadline coordinator

/-- A coordinator stays with its query. -/
theorem query_after
    (coordinator : Coordinator)
    (calls : List Call) :
    (coordinator.after calls).query = coordinator.query := by
  induction calls generalizing coordinator with
  | nil => rfl
  | cons call calls inductionHypothesis =>
      exact (inductionHypothesis _).trans (coordinator.announces_serve call.now call.request ⟨0⟩).query

/-! ## What was sent so far -/

/-- How what was sent stands to the coordinator that sent it, as far as a filter is concerned to which
the timer may have come. -/
structure Posted
    (filter : FilterId)
    (coordinator : Coordinator)
    (now : Nat)
    (expired : Prop)
    (sent : Mail) :
    Prop where
  truthful : ∀ letter ∈ sent, letter.2.query = coordinator.query ∧
    (letter.2.notice.resolved? = some filter →
      coordinator.news? now filter = some letter.2.notice)
  settled : ∃ entry, coordinator.entries.lookup filter = some entry ∧
    (expired → entry.state ≠ .pending)
  told : ∀ worker notice, (filter, worker) ∈ coordinator.subscribers →
    coordinator.news? now filter = some notice → (notice = .timedOut filter → expired) →
    (worker, coordinator.message notice) ∈ sent

section Posted

variable {filter : FilterId} {coordinator : Coordinator} {now : Nat} {expired : Prop} {sent : Mail}

theorem Posted.weaken
    {due : Prop}
    (posted : Posted filter coordinator now expired sent)
    (weakens : due → expired) :
    Posted filter coordinator now due sent where
  truthful := posted.truthful
  settled := posted.settled.imp fun _ settled => ⟨settled.1, settled.2 ∘ weakens⟩
  told worker notice subscribed news timedOut :=
    posted.told worker notice subscribed news (weakens ∘ timedOut)

/-- Time alone makes no letter wrong and none late. -/
theorem Posted.later
    {later : Nat}
    (posted : Posted filter coordinator now expired sent)
    (after : now ≤ later) :
    Posted filter coordinator later expired sent where
  truthful letter member := by
    obtain ⟨query, truthful⟩ := posted.truthful letter member
    exact ⟨query, fun about => news?_mono (truthful about) after⟩
  settled := posted.settled
  told worker notice subscribed news due := by
    obtain old | ⟨timedOut, entry, found, pending⟩ := news?_of_le news after
    · exact posted.told worker notice subscribed old due
    · obtain ⟨other, looked, settled⟩ := posted.settled
      cases looked.symm.trans found
      exact absurd pending (settled (due timedOut))

theorem Posted.serve
    (posted : Posted filter coordinator now expired sent)
    (request : Request) :
    Posted filter (coordinator.serve now request).2 now (expired ∨ request = .expire filter)
      (sent ++ (coordinator.serve now request).1) := by
  have announces := coordinator.announces_serve now request filter
  obtain ⟨entry, found, settled⟩ := posted.settled
  obtain ⟨changed, there, moves⟩ := announces.moves entry found
  constructor
  · intro letter member
    rw [announces.query]
    obtain old | new := List.mem_append.mp member
    · obtain ⟨query, truthful⟩ := posted.truthful letter old
      exact ⟨query, fun about => announces.stays (truthful about)⟩
    · exact announces.truthful letter new
  · refine ⟨changed, there, ?_⟩
    rintro (before | rfl)
    · rw [moves.final (settled before)]
      exact settled before
    · exact (expired_onDeadline there).1
  · intro worker notice subscribed news due
    have message : (coordinator.serve now request).2.message notice = coordinator.message notice :=
      congrArg (Message.mk · notice) announces.query
    rw [message]
    by_cases expires : notice = .timedOut filter ∧ request = .expire filter
    · obtain ⟨rfl, rfl⟩ := expires
      obtain ⟨resolved, tells⟩ := expired_onDeadline there
      rw [news?_of_lookup there, Entry.seenAt_of_resolved resolved] at news
      exact List.mem_append_right _ (tells (eq_timedOut_of_resolution? news) worker subscribed)
    · obtain told | ⟨earlier, old⟩ := announces.told worker notice subscribed news
      · exact List.mem_append_right _ told
      · refine List.mem_append_left _ (posted.told worker notice earlier old fun timedOut => ?_)
        exact (due timedOut).resolve_right fun asked => expires ⟨timedOut, asked⟩

/-- Calls that come in the order of their moments. -/
theorem Posted.after
    {calls : List Call}
    {later : Nat}
    (posted : Posted filter coordinator now expired sent)
    (inOrder : (now :: (calls.map Call.now ++ [later])).IsChain (· ≤ ·)) :
    Posted filter (coordinator.after calls) later
      (expired ∨ ∃ call ∈ calls, call.request = .expire filter) (sent ++ coordinator.sent calls) := by
  induction calls generalizing coordinator now expired sent with
  | nil =>
      have forward : now ≤ later := (List.isChain_cons_cons.mp inOrder).1
      rw [Coordinator.sent, List.append_nil]
      exact (posted.later forward).weaken fun due =>
        due.resolve_right fun ⟨_, member, _⟩ => absurd member List.not_mem_nil
  | cons call calls inductionHypothesis =>
      obtain ⟨forward, inOrder⟩ := List.isChain_cons_cons.mp inOrder
      have rest := inductionHypothesis ((posted.later forward).serve call.request) inOrder
      rw [Coordinator.sent, ← List.append_assoc]
      refine rest.weaken ?_
      simp only [List.exists_mem_cons_iff, or_assoc]
      exact id

/-- Nothing was sent by a coordinator that has just been opened. -/
theorem posted_of_start
    {query : QueryId}
    {mode : FilterMode}
    {descriptors : List FilterDescriptor}
    {descriptor : FilterDescriptor}
    {opened : Coordinator}
    {openedAt : Nat}
    (started : start query mode descriptors openedAt = .ok opened)
    (member : descriptor ∈ descriptors)
    (elsewhere : descriptor.isLocal = false) :
    Posted descriptor.id opened openedAt False [] ∧ opened.query = query := by
  simp only [start, bind_eq_ok_iff, pure_eq_ok_iff] at started
  obtain ⟨entries, started, rfl⟩ := started
  obtain ⟨entry, found, _⟩ := ((fresh_of_startEntries started).2 descriptor member).2.2 elsewhere
  refine ⟨?_, rfl⟩
  constructor
  · exact fun _ member => absurd member List.not_mem_nil
  · exact ⟨entry, found, False.elim⟩
  · exact fun _ _ subscribed => absurd subscribed List.not_mem_nil

end Posted

/-- Whoever is subscribed stays so, and whoever asks for it is subscribed. -/
theorem subscribed_after
    {coordinator : Coordinator}
    {filter : FilterId}
    {worker : WorkerId}
    {calls : List Call}
    (known : ∃ entry, coordinator.entries.lookup filter = some entry)
    (subscribed : (filter, worker) ∈ coordinator.subscribers ∨
      ∃ call ∈ calls, call.request = .subscribe filter worker) :
    (filter, worker) ∈ (coordinator.after calls).subscribers := by
  induction calls generalizing coordinator with
  | nil => exact subscribed.resolve_right fun ⟨_, member, _⟩ => absurd member List.not_mem_nil
  | cons call calls inductionHypothesis =>
      obtain ⟨entry, found⟩ := known
      have announces := coordinator.announces_serve call.now call.request filter
      obtain ⟨changed, there, _⟩ := announces.moves entry found
      refine inductionHypothesis ⟨changed, there⟩ ?_
      obtain before | ⟨asking, member, asked⟩ := subscribed
      · exact .inl (announces.subscribers before)
      · obtain rfl | later := List.mem_cons.mp member
        · refine .inl ?_
          rw [next, asked]
          exact (subscribed_subscribe found).state
        · exact .inr ⟨asking, later, asked⟩

/-! ## What subscribers have been sent -/

/-- What the calls of a query have sent to the subscribers of a filter by a moment. -/
structure Informed
    (query : QueryId)
    (opened : Coordinator)
    (calls : List Call)
    (now : Nat)
    (filter : FilterId) :
    Prop where
  /-- Whoever asks for it is subscribed. -/
  subscribed : ∀ call ∈ calls, ∀ worker, call.request = .subscribe filter worker →
    (filter, worker) ∈ (opened.after calls).subscribers
  /-- All subscribers have been sent a filter that has arrived, -/
  arrived : ∀ worker merged, (filter, worker) ∈ (opened.after calls).subscribers →
    (opened.after calls).entries.seen? now filter = some (.arrived merged) →
    (worker, ⟨query, .publish filter (Wire.encode merged)⟩) ∈ opened.sent calls
  /-- or word that it is disabled, -/
  disabled : ∀ worker, (filter, worker) ∈ (opened.after calls).subscribers →
    (opened.after calls).entries.seen? now filter = some .disabled →
    (worker, ⟨query, .disabled filter⟩) ∈ opened.sent calls
  /-- or, as soon as the timer has come to it, that it has timed out. -/
  timedOut : ∀ worker, (filter, worker) ∈ (opened.after calls).subscribers →
    (opened.after calls).entries.seen? now filter = some .timedOut →
    (∃ call ∈ calls, call.request = .expire filter) →
    (worker, ⟨query, .timedOut filter⟩) ∈ opened.sent calls
  /-- Nobody is sent two outcomes. -/
  once : ∀ worker first second,
    (worker, first) ∈ opened.sent calls → (worker, second) ∈ opened.sent calls →
    first.notice.resolved? = some filter → second.notice.resolved? = some filter → first = second

/-- Whatever is asked of a coordinator in whatever order, its subscribers are sent the outcome of a
filter, and no other one. -/
theorem informed_of_calls
    {query : QueryId}
    {mode : FilterMode}
    {descriptors : List FilterDescriptor}
    {descriptor : FilterDescriptor}
    {opened : Coordinator}
    {openedAt now : Nat}
    {calls : List Call}
    (started : start query mode descriptors openedAt = .ok opened)
    (member : descriptor ∈ descriptors)
    (elsewhere : descriptor.isLocal = false)
    (inOrder : (openedAt :: (calls.map Call.now ++ [now])).IsChain (· ≤ ·)) :
    Informed query opened calls now descriptor.id := by
  obtain ⟨fresh, rfl⟩ := posted_of_start started member elsewhere
  obtain ⟨entry, found, _⟩ := fresh.settled
  have posted := fresh.after inOrder
  rw [List.nil_append, false_or] at posted
  have query : (opened.after calls).query = opened.query := query_after opened calls
  have told : ∀ {worker state notice},
      (descriptor.id, worker) ∈ (opened.after calls).subscribers →
      (opened.after calls).entries.seen? now descriptor.id = some state →
      resolution? descriptor.id state = some notice →
      (notice = .timedOut descriptor.id → ∃ call ∈ calls, call.request = .expire descriptor.id) →
      (worker, (⟨opened.query, notice⟩ : Message)) ∈ opened.sent calls := by
    intro worker state notice subscribed seen resolution due
    have news : (opened.after calls).news? now descriptor.id = some notice := by
      rw [news?, seen, Option.bind_some, resolution]
    have sent := posted.told worker notice subscribed news due
    rwa [message, query] at sent
  refine {
    subscribed := fun call asks worker asked => subscribed_after ⟨entry, found⟩ (.inr ⟨call, asks, asked⟩)
    arrived := fun worker merged subscribed seen => told subscribed seen rfl Notice.noConfusion
    disabled := fun worker subscribed seen => told subscribed seen rfl Notice.noConfusion
    timedOut := fun worker subscribed seen expired => told subscribed seen rfl fun _ => expired
    once := fun worker first second one another about alsoAbout => ?once }
  obtain ⟨firstQuery, firstTrue⟩ := posted.truthful _ one
  obtain ⟨secondQuery, secondTrue⟩ := posted.truthful _ another
  have notice := Option.some.inj ((firstTrue about).symm.trans (secondTrue alsoAbout))
  obtain ⟨_, _⟩ := first
  obtain ⟨_, _⟩ := second
  exact congrArg₂ Message.mk (firstQuery.trans secondQuery.symm) notice

/-! ## A filter that times out unnoticed -/

/-- A worker subscribes in time. Somebody looks at the filter when its deadline is over, then another
worker subscribes, a contribution comes too late, and at last the timer does its work. -/
def overdueCalls : List Call :=
  [⟨10, .subscribe ⟨7⟩ ⟨1⟩⟩, ⟨20, .update ⟨7⟩ ⟨1⟩ (.range .empty)⟩, ⟨120, .look ⟨7⟩⟩,
    ⟨130, .subscribe ⟨7⟩ ⟨2⟩⟩, ⟨140, .update ⟨7⟩ ⟨2⟩ (.range .empty)⟩, ⟨150, .expire ⟨7⟩⟩]

theorem informed_of_overdueCalls :
    Informed ⟨1, 2⟩ Cluster.sampleOpened.coordinator overdueCalls 160 Cluster.sampleDescriptor.id ∧
      (Cluster.sampleOpened.coordinator.after overdueCalls).entries.seen? 160 ⟨7⟩ = some .timedOut ∧
      Cluster.sampleOpened.coordinator.sent overdueCalls =
        [(⟨2⟩, ⟨⟨1, 2⟩, .timedOut ⟨7⟩⟩), (⟨1⟩, ⟨⟨1, 2⟩, .timedOut ⟨7⟩⟩),
          (⟨2⟩, ⟨⟨1, 2⟩, .timedOut ⟨7⟩⟩)] :=
  ⟨informed_of_calls Cluster.opened_sample.coordinator List.mem_cons_self rfl (by decide), by decide,
    by decide⟩

end Coordinator
end Spillway
