import Spillway.Proofs.Cluster.Deliveries

/-!
# Whom a cancellation reaches

A coordinator that is cancelled tells every worker that has written to it so far. How filters are
resolved does not matter here: of an entry it counts only which filter it is for and whether its waiters
are sent away, and nothing changes that except the end of the query. So a bank that was told sends all
its waiters away from then on, and a bank that was not told never does, since nobody is told later.
-/

namespace Spillway

namespace Entry

/-! ## What resolution leaves alone -/

/-- What an entry is, however far its filter has come: the filter that it is for, and whether its waiters
are sent away. -/
def standing (entry : Entry) : FilterDescriptor × Bool :=
  (entry.descriptor, entry.cancelled)

section Standing

variable {entry next : Entry} {now : Nat}

theorem standing_seenAt
    (entry : Entry)
    (now : Nat) :
    (entry.seenAt now).standing = entry.standing := by
  unfold seenAt
  split <;> rfl

theorem standing_of_merge
    {producer : ProducerId}
    {contribution : KeyFilter}
    {outcome : MergeOutcome}
    (merges : entry.merge now producer contribution = .ok (outcome, next)) :
    next.standing = entry.standing := by
  rw [← entry.standing_seenAt now]
  unfold merge at merges
  split at merges
  · cases merges
  · dsimp only at merges
    split at merges
    · cases merges
      rfl
    · split at merges
      · cases merges
        rfl
      · cases union : (entry.seenAt now).mergedWith contribution with
        | error fault => rw [union] at merges; cases merges
        | ok aggregate =>
            rw [union] at merges
            have accepted : (entry.seenAt now).accept producer aggregate = (outcome, next) :=
              Except.ok.inj merges
            unfold accept at accepted
            dsimp only at accepted
            split at accepted
            · cases accepted
              rfl
            · cases accepted
              rfl

theorem standing_publish
    (entry : Entry)
    (now : Nat)
    (filter : KeyFilter) :
    (entry.publish now filter).2.standing = entry.standing := by
  rw [← entry.standing_seenAt now]
  unfold publish
  dsimp only
  split <;> rfl

theorem standing_timeOut (entry : Entry) : entry.timeOut.2.standing = entry.standing := by
  unfold timeOut
  split <;> rfl

theorem standing_of_disable (disables : entry.disable now = .ok next) :
    next.standing = entry.standing := by
  rw [← entry.standing_seenAt now]
  unfold disable at disables
  dsimp only at disables
  split at disables
  · cases disables
    rfl
  · split at disables
    · cases disables
      rfl
    · cases disables
  · cases disables

/-- An attempt to disable an entry, whether it succeeds or not. -/
theorem standing_getD_disable
    (entry : Entry)
    (now : Nat) :
    ((entry.disable now).toOption.getD entry).standing = entry.standing := by
  cases disables : entry.disable now with
  | ok next => exact standing_of_disable disables
  | error fault => rfl

theorem answer?_ne_cancelled
    {limit : Nat}
    (entry : Entry)
    (stays : entry.cancelled = false) :
    entry.answer? now limit ≠ some .cancelled := by
  rw [answer?, if_neg (Bool.eq_false_iff.mp stays)]
  split
  · simp
  · simp
  · simp
  · split <;> simp

end Standing

end Entry

namespace Entries

/-- What the entry of a filter is, however far the filter has come. -/
def standing? (entries : Entries) (filter : FilterId) : Option (FilterDescriptor × Bool) :=
  (entries.lookup filter).map Entry.standing

section Standing

variable {entries : Entries} {target : FilterId} {entry next : Entry}

theorem standing?_of_lookup (found : entries.lookup target = some entry) :
    entries.standing? target = some entry.standing := by
  rw [standing?, found, Option.map_some]

theorem standing?_update
    (found : entries.lookup target = some entry)
    (same : next.standing = entry.standing)
    (filter : FilterId) :
    (entries.update next).standing? filter = entries.standing? filter := by
  have named : next.id = target :=
    (congrArg (fun standing => standing.1.id) same).trans (id_of_lookup found)
  unfold standing?
  rw [lookup_update, named, Option.map_map]
  by_cases here : filter = target
  · subst here
    rw [found, Option.map_some, Option.map_some, Function.comp_apply, if_pos rfl, same]
  · simp only [Function.comp_def, if_neg here]

theorem standing?_cancelAll
    (entries : Entries)
    (filter : FilterId) :
    entries.cancelAll.standing? filter =
      (entries.standing? filter).map fun standing => (standing.1, true) := by
  unfold standing?
  rw [lookup_cancelAll, Option.map_map, Option.map_map]
  rfl

end Standing

end Entries

/-! ## Banks -/

namespace Bank

section Standing

variable {now : Nat} {bank after : Bank} {message : Message} {filter : FilterId} {mail : Mail}

theorem standing?_of_receive
    (received : bank.receive now message = .ok after)
    (other : message.notice ≠ .cancel)
    (filter : FilterId) :
    after.entries.standing? filter = bank.entries.standing? filter := by
  unfold receive at received
  split at received
  · cases received
  · split at received
    · simp only [bind_eq_ok_iff, pure_eq_ok_iff] at received
      obtain ⟨published, _, entry, located, rfl⟩ := received
      exact Entries.standing?_update (lookup_of_entry located) (entry.standing_publish now published) filter
    · simp only [bind_eq_ok_iff, pure_eq_ok_iff] at received
      obtain ⟨entry, located, rfl⟩ := received
      exact Entries.standing?_update (lookup_of_entry located) entry.standing_timeOut filter
    · simp only [bind_eq_ok_iff, pure_eq_ok_iff] at received
      obtain ⟨entry, located, rfl⟩ := received
      exact Entries.standing?_update (lookup_of_entry located) (entry.standing_getD_disable now) filter
    · next cancels => exact absurd cancels other
    · cases received

theorem standing?_hearAll
    (bank : Bank)
    (now : Nat)
    (others : ∀ letter ∈ mail, letter.2.notice ≠ .cancel)
    (filter : FilterId) :
    (bank.hearAll now mail).entries.standing? filter = bank.entries.standing? filter := by
  induction mail generalizing bank with
  | nil => rfl
  | cons letter mail inductionHypothesis =>
      refine (inductionHypothesis (bank.hear now letter)
        fun other member => others other (List.mem_cons_of_mem _ member)).trans ?_
      obtain same | ⟨_, received⟩ := bank.hear_cases now letter
      · rw [same]
      · exact standing?_of_receive received (others letter List.mem_cons_self) filter

theorem cancel_cancel (bank : Bank) : bank.cancel.cancel = bank.cancel := by
  unfold cancel Entries.cancelAll
  rw [List.map_map]
  rfl

/-- The end of the query is heard by the banks of the workers that it is sent to. -/
theorem hearAll_cancel
    (bank : Bank)
    (now : Nat)
    (workers : List WorkerId) :
    bank.hearAll now (workers.map fun worker => (worker, ⟨bank.query, .cancel⟩)) =
      if bank.worker ∈ workers then bank.cancel else bank := by
  have heard : ∀ other : Bank, ∀ worker,
      other.hear now (worker, ⟨other.query, .cancel⟩) =
        if worker = other.worker then other.cancel else other := by
    intro other worker
    unfold hear receive
    rw [if_neg (not_not.mpr rfl)]
    rfl
  induction workers generalizing bank with
  | nil => rfl
  | cons worker workers inductionHypothesis =>
      show (bank.hear now (worker, ⟨bank.query, .cancel⟩)).hearAll now _ = _
      rw [heard]
      by_cases here : worker = bank.worker
      · rw [if_pos here, if_pos (here ▸ List.mem_cons_self)]
        refine (inductionHypothesis bank.cancel).trans ?_
        split
        · exact bank.cancel_cancel
        · rfl
      · rw [if_neg here, inductionHypothesis bank]
        simp only [List.mem_cons, Ne.symm here, false_or]

theorem standing?_of_acts
    {message : Option Message}
    (acts : bank.Acts now message after)
    (filter : FilterId) :
    after.entries.standing? filter = bank.entries.standing? filter := by
  obtain ⟨consumer, target, registered⟩ | ⟨target, producer, contribution, contributed⟩ := acts
  · rw [(entries_of_register registered).1]
  · simp only [contribute, bind_eq_ok_iff] at contributed
    obtain ⟨entry, located, contributed⟩ := contributed
    split at contributed
    · simp only [bind_eq_ok_iff, mapError_eq_ok_iff] at contributed
      obtain ⟨⟨outcome, next⟩, merges, contributed⟩ := contributed
      cases contributed
      exact Entries.standing?_update (lookup_of_entry located) (Entry.standing_of_merge merges) filter
    · split at contributed
      · cases contributed
        rfl
      · cases contributed
        rfl

/-- What a bank sends is sent in the name of its worker and its query. It asks for filters that are
resolved elsewhere. -/
theorem sender_of_acts (acts : bank.Acts now (some message) after) :
    message.query = bank.query ∧ message.notice.sender? = some bank.worker ∧
      ∀ target worker, message.notice = .subscribe target worker →
        ∃ entry, bank.entries.lookup target = some entry ∧ entry.descriptor.isLocal = false := by
  obtain ⟨consumer, filter, registered⟩ | ⟨filter, producer, contribution, contributed⟩ := acts
  · simp only [register, bind_eq_ok_iff] at registered
    obtain ⟨entry, located, registered⟩ := registered
    split at registered
    · next asks =>
      cases registered
      refine ⟨rfl, rfl, fun target worker same => ?_⟩
      cases same
      exact ⟨entry, lookup_of_entry located, asks.2.1⟩
    · cases registered
  · simp only [contribute, bind_eq_ok_iff] at contributed
    obtain ⟨_, _, contributed⟩ := contributed
    split at contributed
    · simp only [bind_eq_ok_iff, mapError_eq_ok_iff] at contributed
      obtain ⟨_, _, contributed⟩ := contributed
      cases contributed
    · split at contributed
      · cases contributed
        exact ⟨rfl, rfl, fun target worker same => nomatch same⟩
      · cases contributed

theorem standing_startEntry
    (mode : FilterMode)
    (now : Nat)
    (descriptor : FilterDescriptor) :
    (startEntry mode now descriptor).standing = (descriptor, false) := by
  unfold startEntry
  dsimp only
  split
  · rfl
  · exact (Entry.start descriptor now).standing_getD_disable now

/-- A bank that is opened holds no filters but those that it was opened for. -/
theorem mem_of_start
    {worker : WorkerId}
    {query : QueryId}
    {mode : FilterMode}
    {descriptors : List FilterDescriptor}
    {standing : FilterDescriptor × Bool}
    (found : (start worker query mode descriptors now).entries.standing? filter = some standing) :
    standing.1 ∈ descriptors := by
  unfold start at found
  dsimp only at found
  induction descriptors using List.reverseRecOn with
  | nil => cases found
  | append_singleton earlier last inductionHypothesis =>
      rw [List.foldl_append, Entries.standing?, Option.map_eq_some_iff] at found
      obtain ⟨entry, looked, rfl⟩ := found
      change (Entries.insert _ (startEntry mode now last)).lookup filter = some entry at looked
      rw [Entries.lookup_insert] at looked
      split at looked
      · cases looked
        rw [standing_startEntry]
        exact List.mem_append_right _ (List.mem_singleton_self _)
      · exact List.mem_append_left _ (inductionHypothesis (Entries.standing?_of_lookup looked))

end Standing

end Bank

/-! ## Coordinators -/

namespace Coordinator

/-- A call that does not end the query: a worker may be noted, and nobody is told of an end. -/
structure Continues (noted : Option WorkerId) (before after : Coordinator) (mail : Mail) : Prop where
  query : after.query = before.query
  cancelled : after.cancelled = before.cancelled
  standing : ∀ filter, after.entries.standing? filter = before.entries.standing? filter
  workers : ∀ worker, worker ∈ after.workers ↔ worker ∈ before.workers ∨ noted = some worker
  others : ∀ letter ∈ mail, letter.2.notice ≠ .cancel

section Continues

variable {target : FilterId} {now : Nat} {before after : Coordinator} {mail : Mail} {entry next : Entry}

theorem continues_of_silent
    (query : after.query = before.query)
    (cancelled : after.cancelled = before.cancelled)
    (entries : after.entries = before.entries)
    (workers : after.workers = before.workers) :
    Continues none before after [] where
  query := query
  cancelled := cancelled
  standing _ := entries ▸ rfl
  workers worker := by simp [workers]
  others _ member := absurd member List.not_mem_nil

/-- A change of one entry. -/
theorem continues_setEntry
    (found : before.entries.lookup target = some entry)
    (same : next.standing = entry.standing)
    (query : after.query = before.query)
    (cancelled : after.cancelled = before.cancelled)
    (entries : after.entries = before.entries.update next)
    (workers : after.workers = before.workers)
    (others : ∀ letter ∈ mail, letter.2.notice ≠ .cancel) :
    Continues none before after mail where
  query := query
  cancelled := cancelled
  standing filter := entries ▸ Entries.standing?_update found same filter
  workers worker := by simp [workers]
  others := others

/-- A worker is noted before anything else is done. -/
theorem Continues.of_note
    {worker : WorkerId}
    (continues : Continues none (before.note worker) after mail) :
    Continues (some worker) before after mail where
  query := continues.query
  cancelled := continues.cancelled
  standing := continues.standing
  workers other := by
    rw [continues.workers, note, List.mem_insert_iff, Option.some.injEq, eq_comm]
    simp [or_comm]
  others := continues.others

theorem others_broadcast
    {notice : Notice}
    (coordinator : Coordinator)
    (filter : FilterId)
    (other : notice ≠ .cancel) :
    ∀ letter ∈ coordinator.broadcast filter notice, letter.2.notice ≠ .cancel := by
  intro letter member
  obtain ⟨worker, _, rfl⟩ := List.mem_map.mp member
  exact other

theorem continues_update
    {producer : ProducerId}
    {contribution : KeyFilter} :
    (update now target producer contribution).Ends before
      (fun mail after => Continues none before after mail)
      fun _ after => Continues none before after [] := by
  simp only [update, Step.ends_bind, Step.ends_get, Step.ends_ofExcept, Step.ends_modify,
    Step.ends_set, Step.ends_pure]
  refine ⟨fun entry found => ⟨fun merged merges => ?_, fun _ _ => continues_of_silent rfl rfl rfl rfl⟩,
    fun _ _ => continues_of_silent rfl rfl rfl rfl⟩
  obtain ⟨outcome, next⟩ := merged
  rw [mapError_eq_ok_iff] at merges
  have same := Entry.standing_of_merge merges
  dsimp only
  cases outcome with
  | completed merged =>
      exact continues_setEntry (lookup_of_entry found) same rfl rfl rfl rfl
        (others_broadcast _ target Notice.noConfusion)
  | merged | duplicate | late =>
      exact continues_setEntry (lookup_of_entry found) same rfl rfl rfl rfl
        fun _ member => absurd member List.not_mem_nil

theorem continues_disable :
    (disable now target).Ends before (fun mail after => Continues none before after mail)
      fun _ after => Continues none before after [] := by
  simp only [disable, Step.ends_bind, Step.ends_get, Step.ends_ofExcept, Step.ends_modify,
    Step.ends_pure]
  refine ⟨fun entry found => ⟨fun next disables => ?_, fun _ _ => continues_of_silent rfl rfl rfl rfl⟩,
    fun _ _ => continues_of_silent rfl rfl rfl rfl⟩
  rw [mapError_eq_ok_iff] at disables
  exact continues_setEntry (lookup_of_entry found) (Entry.standing_of_disable disables) rfl rfl rfl rfl
    (others_broadcast _ target Notice.noConfusion)

/-- A worker that asks for a filter that the coordinator owns is noted. -/
theorem continues_subscribe
    {worker : WorkerId}
    (found : before.entries.lookup target = some entry) :
    (subscribe now target worker).Ends before
      (fun mail after => Continues (some worker) before after mail)
      fun _ after => Continues (some worker) before after [] := by
  simp only [subscribe, Step.ends_bind, Step.ends_get, Step.ends_ofExcept, Step.ends_modify,
    Step.ends_pure, Step.ends_ite, Step.ends_set, entry_of_lookup found]
  refine ⟨fun same here => ⟨fun _ => ?_, fun _ => ?_⟩, fun _ failed => absurd failed (by simp)⟩
  · exact (continues_of_silent rfl rfl rfl rfl).of_note
  · cases here
    refine .of_note ⟨rfl, rfl, fun _ => rfl, fun _ => by simp, fun letter member => ?_⟩
    obtain ⟨notice, told, rfl⟩ := Option.map_eq_some_iff.mp (Option.mem_toList.mp member)
    have about := resolved?_of_resolution? told
    rintro rfl
    cases about

/-- Taking a message of the query. -/
theorem continues_receive
    {message : Message}
    (query : message.query = before.query)
    (owned : ∀ filter worker, message.notice = .subscribe filter worker →
      ∃ entry, before.entries.lookup filter = some entry) :
    (receive now message).Ends before
      (fun mail after => Continues message.notice.sender? before after mail)
      fun _ after => Continues message.notice.sender? before after [] := by
  obtain ⟨sender, notice⟩ := message
  simp only [receive, Step.ends_bind, Step.ends_get, Step.ends_ite, Step.ends_fail]
  refine ⟨fun other => absurd query other, fun _ => ?_⟩
  cases notice with
  | contribution filter worker producer payload =>
      simp only [Step.ends_bind, Step.ends_modify, Step.ends_ofExcept]
      refine ⟨fun contribution _ => ?_, fun _ _ => (continues_of_silent rfl rfl rfl rfl).of_note⟩
      exact continues_update.mono (fun _ _ continues => continues.of_note)
        fun _ _ continues => continues.of_note
  | subscribe filter worker =>
      obtain ⟨entry, found⟩ := owned filter worker rfl
      exact continues_subscribe found
  | publish | timedOut | disabled | cancel =>
      rw [Step.ends_fail]
      exact continues_of_silent rfl rfl rfl rfl

theorem continues_onDeadline
    {timer : List (Nat × FilterId)} :
    Continues none before ({ before with timer }.onDeadline now target).2
      ({ before with timer }.onDeadline now target).1 := by
  unfold onDeadline
  dsimp only
  split
  · exact continues_of_silent rfl rfl rfl rfl
  · next entry found =>
    have same : (entry.seenAt now).timeOut.2.standing = entry.standing :=
      (entry.seenAt now).standing_timeOut.trans (entry.standing_seenAt now)
    split
    · exact continues_setEntry found same rfl rfl rfl rfl (others_broadcast _ target Notice.noConfusion)
    · exact continues_setEntry found same rfl rfl rfl rfl fun _ member => absurd member List.not_mem_nil

end Continues

end Coordinator

/-! ## The whole network -/

/-- The coordinator knows the workers that have written, and its entries are cancelled when it is. -/
structure Coordinator.Stands
    (query : QueryId)
    (descriptors : List FilterDescriptor)
    (ended : Bool)
    (written : WorkerId → Prop)
    (coordinator : Coordinator) :
    Prop where
  query : coordinator.query = query
  cancelled : coordinator.cancelled = ended
  owns : ∀ descriptor ∈ descriptors, descriptor.isLocal = false →
    coordinator.entries.standing? descriptor.id = some (descriptor, ended)
  workers : ∀ worker, worker ∈ coordinator.workers ↔ written worker

/-- The bank has the filters of the query and no others, and sends waiters away if its worker was told
to. -/
structure Bank.Stands
    (query : QueryId)
    (descriptors : List FilterDescriptor)
    (told : List WorkerId)
    (bank : Bank) :
    Prop where
  query : bank.query = query
  holds : ∀ descriptor ∈ descriptors,
    bank.entries.standing? descriptor.id = some (descriptor, decide (bank.worker ∈ told))
  only : ∀ filter standing, bank.entries.standing? filter = some standing → standing.1 ∈ descriptors

section Stands

variable {query : QueryId} {descriptors : List FilterDescriptor} {ended : Bool} {told : List WorkerId}
  {written : WorkerId → Prop} {coordinator next : Coordinator} {bank after : Bank} {mail : Mail}

theorem Coordinator.Stands.continues
    {noted : Option WorkerId}
    (stands : coordinator.Stands query descriptors ended written)
    (continues : Continues noted coordinator next mail) :
    next.Stands query descriptors ended fun worker => written worker ∨ noted = some worker where
  query := continues.query.trans stands.query
  cancelled := continues.cancelled.trans stands.cancelled
  owns descriptor member elsewhere :=
    (continues.standing descriptor.id).trans (stands.owns descriptor member elsewhere)
  workers worker := (continues.workers worker).trans (or_congr_left (stands.workers worker))

theorem Bank.Stands.of_standing?
    (stands : bank.Stands query descriptors told)
    (same : bank.SameWorker after)
    (standing : ∀ filter, after.entries.standing? filter = bank.entries.standing? filter) :
    after.Stands query descriptors told where
  query := same.query.trans stands.query
  holds descriptor member := by
    rw [standing, same.worker]
    exact stands.holds descriptor member
  only filter held found := stands.only filter held (standing filter ▸ found)

/-- The end of the query is taken by every bank whose worker is told, and by no other. -/
theorem Bank.Stands.hearAll_cancel
    (stands : bank.Stands query descriptors [])
    (now : Nat)
    (workers : List WorkerId) :
    (bank.hearAll now (workers.map fun worker => (worker, ⟨query, .cancel⟩))).Stands
      query descriptors workers := by
  rw [← stands.query, bank.hearAll_cancel, stands.query]
  split
  · next here =>
    refine ⟨stands.query, fun descriptor member => ?_, fun filter standing found => ?_⟩
    · rw [cancel, Entries.standing?_cancelAll, stands.holds descriptor member, decide_eq_true here]
      rfl
    · rw [cancel, Entries.standing?_cancelAll, Option.map_eq_some_iff] at found
      obtain ⟨before, found, rfl⟩ := found
      exact stands.only filter before found
  · next elsewhere =>
    refine ⟨stands.query, fun descriptor member => ?_, stands.only⟩
    rw [stands.holds descriptor member, decide_eq_false elsewhere]
    rfl

/-- What a bank asks the coordinator for is owned by the coordinator. -/
theorem Coordinator.Stands.owned
    {now : Nat}
    {message : Message}
    (stands : coordinator.Stands query descriptors ended written)
    (follows : bank.Stands query descriptors told)
    (acts : bank.Acts now (some message) after)
    {filter : FilterId}
    {worker : WorkerId}
    (asks : message.notice = .subscribe filter worker) :
    ∃ entry, coordinator.entries.lookup filter = some entry := by
  obtain ⟨entry, found, elsewhere⟩ := (Bank.sender_of_acts acts).2.2 filter worker asks
  have member := follows.only filter _ (Entries.standing?_of_lookup found)
  obtain ⟨owned, there, _⟩ := Option.map_eq_some_iff.mp (stands.owns entry.descriptor member elsewhere)
  exact ⟨owned, Entries.id_of_lookup found ▸ there⟩

end Stands

namespace Network

section Stands

variable {query : QueryId} {mode : FilterMode} {descriptors : List FilterDescriptor} {ended : Bool}
  {told : List WorkerId} {written : WorkerId → Prop} {given : FilterId → KeyFilter → Prop} {cancels : Prop}
  {network before after : Network} {coordinator : Coordinator}

/-- The coordinator is cancelled or not, and the banks of certain workers were told so. -/
abbrev Stands
    (query : QueryId)
    (descriptors : List FilterDescriptor)
    (ended : Bool)
    (told : List WorkerId)
    (network : Network) :
    Prop :=
  network.Linked (Coordinator.Stands query descriptors ended network.HasWritten)
    fun _ => Bank.Stands query descriptors told

theorem hasWritten_record
    {message : Message}
    {failure : Option Status}
    {worker : WorkerId} :
    (network.record ⟨.coordinator, message, failure⟩).HasWritten worker ↔
      network.HasWritten worker ∨ message.notice.sender? = some worker := by
  simp [HasWritten, record, or_comm]

/-- What a bank does on its own account. -/
theorem Stands.act
    {position : Nat}
    {bank next : Bank}
    {message : Option Message}
    (stands : network.Stands query descriptors ended told)
    (found : network.bank? position = some bank)
    (acts : bank.Acts network.clock message next) :
    (network.setBank position next).Stands query descriptors ended told := by
  have ⟨coordinator, there, _⟩ := stands
  exact Linked.setBank stands there found
    (fun _ follows => follows.of_standing? (Bank.sameWorker_of_acts acts) (Bank.standing?_of_acts acts))
    fun _ => id

theorem Stands.commit
    {noted : Option WorkerId}
    {result : Mail × Coordinator}
    (stands : network.Stands query descriptors ended told)
    (joined : network.Joined)
    (there : network.coordinator = some coordinator)
    (continues : Coordinator.Continues noted coordinator result.2 result.1) :
    (network.commit result).Linked
      (Coordinator.Stands query descriptors ended fun worker =>
        (network.commit result).HasWritten worker ∨ noted = some worker)
      fun _ => Bank.Stands query descriptors told := by
  refine Linked.commit stands joined there result (fun owns failures => ?_) fun _ bank _ follows => ?_
  · have now := owns.continues continues
    refine ⟨now.query, now.cancelled, now.owns, fun worker => (now.workers worker).trans ?_⟩
    exact or_congr_left ((joined.hears_commit result).written worker).symm
  · exact follows.of_standing? (bank.sameOwner_hearAll network.clock result.1).toSameWorker
      (bank.standing?_hearAll network.clock continues.others)

/-- A change that notes nobody. -/
theorem Stands.commit_silent
    {result : Mail × Coordinator}
    (stands : network.Stands query descriptors ended told)
    (joined : network.Joined)
    (there : network.coordinator = some coordinator)
    (continues : Coordinator.Continues none coordinator result.2 result.1) :
    (network.commit result).Stands query descriptors ended told := by
  simpa only [reduceCtorEq, or_false] using stands.commit joined there continues

/-- The query may be cancelled again, but as long as it has not been cancelled nobody is told so, and
once it has nobody else is. -/
theorem Turns.stands
    (turns : Turns given cancels before after)
    (stands : before.Stands query descriptors ended told)
    (joined : before.Joined)
    (settled : cancels → ended = true) :
    after.Stands query descriptors ended told := by
  cases turns with
  | act position found acts => exact stands.act found acts
  | @send position bank next message coordinator failure found acts there =>
      obtain ⟨owns, links⟩ := Linked.of_coordinator stands there
      have follows := links position bank found
      have sender := (Bank.sender_of_acts acts).1.trans (follows.query.trans owns.query.symm)
      have continues : Coordinator.Continues message.notice.sender? coordinator
          (Coordinator.answer (Coordinator.receive before.clock message) coordinator).2
          (Coordinator.answer (Coordinator.receive before.clock message) coordinator).1 :=
        Coordinator.answer_of_ends
          (Coordinator.continues_receive sender fun filter worker asks => owns.owned follows acts asks)
      have joinedNow := joined.setBank found (Bank.sameWorker_of_acts acts).worker
      -- The sender is known to the coordinator before the delivery is written down.
      refine ((stands.act found acts).commit joinedNow there continues).mono (fun _ owns => ?_)
        fun _ _ => id
      exact ⟨owns.query, owns.cancelled, owns.owns,
        fun worker => (owns.workers worker).trans hasWritten_record.symm⟩
  | update known there =>
      exact stands.commit_silent joined there (Coordinator.answer_of_ends Coordinator.continues_update)
  | disable there =>
      exact stands.commit_silent joined there (Coordinator.answer_of_ends Coordinator.continues_disable)
  | @cancel coordinator allowed there =>
      -- Only a coordinator that is cancelled already is asked, so that nobody is told.
      have cancelled := (Linked.of_coordinator stands there).1.cancelled.trans (settled allowed)
      refine stands.commit_silent joined there ?_
      rw [Coordinator.cancel, if_pos cancelled]
      exact Coordinator.continues_of_silent rfl rfl rfl rfl
  | @fire coordinator event there =>
      rw [fire_eq_commit there]
      have moved : ({ before with clock := max before.clock event.1 } : Network).Stands
        query descriptors ended told := stands
      exact moved.commit_silent (joined.of_bank? rfl) there Coordinator.continues_onDeadline
  | tick later => exact stands

theorem stands_of_run
    (run : Relation.ReflTransGen (Turns given cancels) before after)
    (stands : before.Stands query descriptors ended told)
    (joined : before.Joined)
    (settled : cancels → ended = true) :
    after.Stands query descriptors ended told := by
  induction run with
  | refl => exact stands
  | tail run turns inductionHypothesis =>
      exact turns.stands inductionHypothesis (goesOn_of_run run joined).1 settled

theorem Stands.lasts
    {calls : List Call}
    (stands : network.Stands query descriptors ended told)
    (joined : network.Joined)
    (settled : .cancel ∈ calls → ended = true) :
    (network.after calls).Stands query descriptors ended told ∧ (network.after calls).Joined := by
  have ⟨coordinator, there, _⟩ := stands
  have run : Relation.ReflTransGen (Turns (fun _ _ => True) (ended = true)) network (network.after calls) :=
    run_after joined (Option.isSome_iff_exists.mpr ⟨coordinator, there⟩) (fun _ _ _ _ => trivial) settled
  exact ⟨stands_of_run run stands joined id, (goesOn_of_run run joined).1⟩

/-- Who is told that the query is over: the workers that have written until then. -/
theorem Stands.cancel
    (stands : network.Stands query descriptors false [])
    (joined : network.Joined) :
    (network.next .cancel).Joined ∧
      ∃ told, (network.next .cancel).Stands query descriptors true told ∧
        ∀ worker, worker ∈ told ↔ network.HasWritten worker := by
  obtain ⟨coordinator, there, owns, _⟩ := id stands
  have first : coordinator.cancel =
      (coordinator.workers.map fun worker => (worker, coordinator.message .cancel),
        { coordinator with cancelled := true, entries := coordinator.entries.cancelAll, timer := [] }) := by
    rw [Coordinator.cancel, if_neg (Bool.eq_false_iff.mp owns.cancelled)]
  rw [next, Call.step, state_atCoordinator there]
  refine ⟨(joined.hears_commit _).joined, coordinator.workers, ?_, owns.workers⟩
  show (network.commit coordinator.cancel).Stands query descriptors true coordinator.workers
  refine Linked.commit stands joined there coordinator.cancel (fun owns failures => ?_)
    fun owns bank _ follows => ?_
  · rw [first]
    refine ⟨owns.query, rfl, fun descriptor member elsewhere => ?_, fun worker => ?_⟩
    · show coordinator.entries.cancelAll.standing? descriptor.id = _
      rw [Entries.standing?_cancelAll, owns.owns descriptor member elsewhere]
      rfl
    · exact (owns.workers worker).trans ((joined.hears_commit _).written worker).symm
  · rw [first, Coordinator.message, owns.query]
    exact follows.hearAll_cancel network.clock coordinator.workers

theorem Opened.stands
    (opened : network.Opened query mode descriptors)
    (silent : network.deliveries = []) :
    network.Stands query descriptors false [] := by
  obtain ⟨coordinator, since, there, _, started⟩ := opened.coordinator
  simp only [Coordinator.start, bind_eq_ok_iff, pure_eq_ok_iff] at started
  obtain ⟨entries, started, rfl⟩ := started
  obtain ⟨distinct, opens⟩ := Coordinator.lookup_of_startEntries started
  have nobody : ∀ worker, ¬ network.HasWritten worker := by
    rintro worker ⟨delivery, member, _⟩
    rw [silent] at member
    cases member
  refine ⟨_, there, ⟨rfl, rfl, fun descriptor member elsewhere => ?_, fun worker => ?_⟩,
    fun position bank found => ?_⟩
  · rw [← Bank.standing_startEntry mode since descriptor]
    exact Entries.standing?_of_lookup ((opens descriptor member).2.2 elsewhere)
  · exact iff_of_false List.not_mem_nil (nobody worker)
  · obtain ⟨moment, _, same⟩ := opened.banks position bank found
    rw [same]
    refine ⟨rfl, fun descriptor member => ?_, fun _ _ => Bank.mem_of_start⟩
    have expected : ∀ other ∈ descriptors, 1 ≤ other.producers := fun other inside => (opens other inside).1
    refine (Entries.standing?_of_lookup (Bank.lookup_of_start distinct expected descriptor member)).trans ?_
    rw [Bank.standing_startEntry]
    rfl

end Stands

/-! ## Waiters -/

section Waiting

variable {network : Network} {find : Network → Except Status Entry} {entry : Entry}

theorem bankEntry_of_bank?
    {position : Nat}
    {bank : Bank}
    (found : network.bank? position = some bank)
    (filter : FilterId) :
    network.bankEntry position filter = bank.entry filter := by
  rw [bankEntry, found]

/-- A waiter looks at the entry, and once more after it has waited. -/
theorem outcome_await
    (found : find network = .ok entry)
    (since span : Nat) :
    (await find since span).outcome network =
      match entry.answer? network.clock (entry.limitOf since span) with
      | some outcome => (.ok outcome, network)
      | none =>
        let later := network.advance (entry.lastMoment (entry.limitOf since span))
        ((find later).map fun next =>
          (next.answer? later.clock (entry.limitOf since span)).getD .timedOut, later) := by
  unfold await
  rw [Step.outcome_bind]
  show Step.outcome _ network = _
  rw [Step.outcome_bind, Step.outcome_ofExcept, found]
  dsimp only
  cases entry.answer? network.clock (entry.limitOf since span) with
  | some outcome => rfl
  | none =>
      dsimp only
      rw [Step.outcome_bind]
      show Step.outcome _ (network.advance _) = _
      rw [Step.outcome_bind, Step.outcome_ofExcept]
      cases find (network.advance (entry.lastMoment (entry.limitOf since span))) <;> rfl

/-- A waiter at a cancelled entry is sent away, no matter when it came and how long it would wait. -/
theorem await_of_cancelled
    (found : find network = .ok entry)
    (cancelled : entry.cancelled = true)
    (since span : Nat) :
    (await find since span).outcome network = (.ok .cancelled, network) := by
  rw [outcome_await found, Entry.answer?, if_pos cancelled]

/-- A waiter at an entry that is not cancelled, now or later, is not sent away. -/
theorem await_of_not_cancelled
    (found : find network = .ok entry)
    (stays : entry.cancelled = false)
    (later : ∀ moment, ∃ next, find (network.advance moment) = .ok next ∧ next.cancelled = false)
    (since span : Nat) :
    ∃ outcome ≠ .cancelled, ((await find since span).outcome network).1 = .ok outcome := by
  rw [outcome_await found]
  cases answered : entry.answer? network.clock (entry.limitOf since span) with
  | some outcome =>
      refine ⟨outcome, ?_, rfl⟩
      rintro rfl
      exact entry.answer?_ne_cancelled stays answered
  | none =>
      obtain ⟨next, there, staysNow⟩ := later (entry.lastMoment (entry.limitOf since span))
      dsimp only
      rw [there]
      generalize network.advance (entry.lastMoment (entry.limitOf since span)) = after
      refine ⟨(next.answer? after.clock (entry.limitOf since span)).getD .timedOut, ?_, rfl⟩
      cases again : next.answer? after.clock (entry.limitOf since span) with
      | none => exact WaitOutcome.noConfusion
      | some outcome =>
          rintro rfl
          exact next.answer?_ne_cancelled staysNow again

end Waiting

section Cancelling

variable {query : QueryId} {mode : FilterMode} {descriptors : List FilterDescriptor} {ended : Bool}
  {told : List WorkerId} {network : Network} {position : Nat} {bank : Bank} {descriptor : FilterDescriptor}

/-- The entry of a bank for a filter of the query is cancelled if the worker was told. -/
theorem Stands.bankEntry
    (stands : network.Stands query descriptors ended told)
    (found : network.bank? position = some bank)
    (member : descriptor ∈ descriptors) :
    ∃ entry, network.bankEntry position descriptor.id = .ok entry ∧
      entry.cancelled = decide (bank.worker ∈ told) := by
  obtain ⟨_, _, _, links⟩ := stands
  obtain ⟨entry, looked, standing⟩ :=
    Option.map_eq_some_iff.mp ((links position bank found).holds descriptor member)
  exact ⟨entry, (bankEntry_of_bank? found descriptor.id).trans (Bank.entry_of_lookup looked),
    congrArg Prod.snd standing⟩

/-- A bank stays where it is while somebody waits. -/
theorem Stands.bank?_advance
    (stands : network.Stands query descriptors ended told)
    (joined : network.Joined)
    (found : network.bank? position = some bank)
    (moment : Nat) :
    ∃ next, (network.advance moment).bank? position = some next ∧ next.worker = bank.worker := by
  have ⟨_, there, _⟩ := stands
  have passed : Relation.ReflTransGen (Turns (fun _ _ => False) False) network (network.advance moment) :=
    run_next joined there (.pass moment) (fun _ _ _ same => nomatch same) fun same => nomatch same
  obtain ⟨next, foundThen, same⟩ := sameWorker_of_run passed joined found
  exact ⟨next, foundThen, same.worker⟩

/-- How the banks answer waiters when the coordinator has been cancelled between calls. -/
structure SentAway
    (opened : Network)
    (descriptors : List FilterDescriptor)
    (early late : List Call) :
    Prop where
  /-- The bank of a worker that wrote to the coordinator before sends them all away at once. -/
  told : ∀ position bank, (opened.after (early ++ .cancel :: late)).bank? position = some bank →
    (opened.after early).HasWritten bank.worker → ∀ descriptor ∈ descriptors, ∀ since span,
      (await (bankEntry position descriptor.id) since span).outcome
          (opened.after (early ++ .cancel :: late)) =
        (.ok .cancelled, opened.after (early ++ .cancel :: late))
  /-- Any other bank sends nobody away, not even when its worker writes to the cancelled coordinator. -/
  missed : ∀ position bank, (opened.after (early ++ .cancel :: late)).bank? position = some bank →
    ¬ (opened.after early).HasWritten bank.worker → ∀ descriptor ∈ descriptors, ∀ since span,
      ∃ outcome ≠ .cancelled, ((await (bankEntry position descriptor.id) since span).outcome
          (opened.after (early ++ .cancel :: late))).1 = .ok outcome

/-- Whatever is called before the coordinator is cancelled for the first time and whatever after, the
cancellation reaches the banks of the workers that wrote before, and no others. -/
theorem sentAway_of_calls
    {opened : Network}
    {early : List Call}
    (start : opened.Opened query mode descriptors)
    (silent : opened.deliveries = [])
    (first : .cancel ∉ early)
    (late : List Call) :
    opened.SentAway descriptors early late := by
  obtain ⟨stands, joined⟩ := (start.stands silent).lasts start.joined fun member => absurd member first
  obtain ⟨joinedNow, workers, standsNow, written⟩ := stands.cancel joined
  have calls : opened.after (early ++ .cancel :: late) = ((opened.after early).next .cancel).after late :=
    List.foldl_append
  have ⟨standsLate, joinedLate⟩ := calls ▸ standsNow.lasts joinedNow fun _ => rfl
  constructor
  · intro position bank found wrote descriptor member since span
    obtain ⟨entry, there, cancelled⟩ := standsLate.bankEntry found member
    rw [decide_eq_true ((written bank.worker).mpr wrote)] at cancelled
    exact await_of_cancelled there cancelled since span
  · intro position bank found untold descriptor member since span
    obtain ⟨entry, there, stays⟩ := standsLate.bankEntry found member
    have other : decide (bank.worker ∈ workers) = false :=
      decide_eq_false (mt (written bank.worker).mp untold)
    refine await_of_not_cancelled there (stays.trans other) (fun moment => ?_) since span
    obtain ⟨next, foundThen, worker⟩ := standsLate.bank?_advance joinedLate found moment
    have standsThen : ((opened.after (early ++ .cancel :: late)).after [.pass moment]).Stands
      query descriptors true workers := (standsLate.lasts joinedLate fun _ => rfl).1
    obtain ⟨entryThen, thereThen, staysThen⟩ := standsThen.bankEntry foundThen member
    exact ⟨entryThen, thereThen, staysThen.trans (worker.symm ▸ other)⟩

end Cancelling

theorem sentAway_of_laterCancel :
    sampleNetwork.SentAway [Cluster.sampleDescriptor] [.register 0 ⟨3⟩ ⟨7⟩] [.register 1 ⟨4⟩ ⟨7⟩, .cancel] ∧
      (sampleNetwork.after [.register 0 ⟨3⟩ ⟨7⟩]).HasWritten ⟨1⟩ ∧
      ¬ (sampleNetwork.after [.register 0 ⟨3⟩ ⟨7⟩]).HasWritten ⟨2⟩ ∧
      (sampleNetwork.after [.register 0 ⟨3⟩ ⟨7⟩, .cancel, .register 1 ⟨4⟩ ⟨7⟩, .cancel]).HasWritten ⟨2⟩ :=
  ⟨sentAway_of_calls opened_sampleNetwork rfl (by decide) _, by decide, by decide, by decide⟩

/-- A worker that writes to the coordinator after that is known to it and still not told: its bank lets
waiters wait until they give up. -/
theorem not_sentAway_of_lateRegister :
    ¬ ∀ position bank,
      (sampleNetwork.after [.cancel, .register 0 ⟨3⟩ ⟨7⟩]).bank? position = some bank →
      (sampleNetwork.after [.cancel, .register 0 ⟨3⟩ ⟨7⟩]).HasWritten bank.worker → ∀ since span,
        ((await (bankEntry position ⟨7⟩) since span).outcome
          (sampleNetwork.after [.cancel, .register 0 ⟨3⟩ ⟨7⟩])).1 = .ok .cancelled := by
  intro reached
  have timedOut : ((await (bankEntry 0 ⟨7⟩) 5 0).outcome
      (sampleNetwork.after [.cancel, .register 0 ⟨3⟩ ⟨7⟩])).1 = .ok .timedOut := by rfl
  cases timedOut.symm.trans (reached 0 _ rfl (by decide) 5 0)

end Network

end Spillway
