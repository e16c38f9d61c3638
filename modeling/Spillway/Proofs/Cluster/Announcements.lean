import Spillway.Proofs.Cluster.Parties
import Spillway.Proofs.Outcome

/-!
# Subscribers are told how filters were resolved

A coordinator resolves a filter at three places: with the last contribution, when the filter is
disabled, and when somebody looks at it after its deadline, which may be long before the timer does. It
tells its subscribers at others: when a call resolves the filter, when the timer comes to it, and when a
worker subscribes. What ties the two together is one statement for each call: what is sent is true of
the filter afterwards, and whoever is not told of it has been subscribed before and hears nothing new.
-/

namespace Spillway

/-- The filter whose resolution a notice tells. -/
def Notice.resolved? : Notice → Option FilterId
  | publish filter _ => some filter
  | timedOut filter => some filter
  | disabled filter => some filter
  | _ => none

/-- How far a filter has come as it is seen now. -/
def Entries.seen? (entries : Entries) (now : Nat) (filter : FilterId) : Option FilterState :=
  (entries.lookup filter).map fun entry => (entry.seenAt now).state

/-- What is put in the place of an entry is found there. -/
theorem Entries.lookup_update_of_lookup
    {entries : Entries}
    {filter : FilterId}
    {entry next : Entry}
    (found : entries.lookup filter = some entry)
    (named : next.id = entry.id) :
    (entries.update next).lookup filter = some next := by
  rw [Entries.lookup_update, found, named, Entries.id_of_lookup found, Option.map_some, if_pos rfl]

/-- To cancel entries is not to resolve them. -/
theorem Entries.seen?_cancelAll
    (entries : Entries)
    (now : Nat)
    (filter : FilterId) :
    entries.cancelAll.seen? now filter = entries.seen? now filter := by
  unfold seen?
  rw [lookup_cancelAll, Option.map_map]
  congr 1
  funext entry
  exact (entry.cancel.state_seenAt now).trans (entry.state_seenAt now).symm

namespace Entry

/-- A contribution that does not complete a filter is no news of it. -/
theorem seen_of_merge
    {entry next : Entry}
    {now : Nat}
    {producer : ProducerId}
    {contribution : KeyFilter}
    {outcome : MergeOutcome}
    (merges : entry.merge now producer contribution = .ok (outcome, next)) :
    (∃ merged, outcome = .completed merged ∧ next.state = .arrived merged) ∨
      (∀ merged, outcome ≠ .completed merged) ∧
        (next.seenAt now).state = (entry.seenAt now).state := by
  have kind : contribution.kind = entry.descriptor.kind := by
    by_contra other
    rw [merge, if_pos other] at merges
    cases merges
  by_cases resolved : (entry.seenAt now).state = .pending
  · have isOpen : entry.OpenAt now := by
      obtain isOpen | settled | ⟨_, due⟩ := entry.seenAt_cases now
      · exact isOpen
      · rw [seenAt_of_resolved settled] at resolved
        exact absurd resolved settled
      · rw [due] at resolved
        cases resolved
    by_cases known : producer ∈ entry.producers
    · rw [merge_of_known isOpen kind known] at merges
      cases merges
      exact .inr ⟨fun _ => MergeOutcome.noConfusion, rfl⟩
    · rw [merge_of_openAt isOpen kind known] at merges
      cases union : KeyFilter.mergeInto entry.aggregate contribution with
      | error fault => rw [union] at merges; cases merges
      | ok merged =>
          rw [union] at merges
          have accepted : entry.accept producer merged = (outcome, next) := Except.ok.inj merges
          unfold accept at accepted
          dsimp only at accepted
          split at accepted
          · cases accepted
            refine .inr ⟨fun _ => MergeOutcome.noConfusion, ?_⟩
            rw [state_seenAt, state_seenAt]
          · cases accepted
            exact .inl ⟨merged, rfl, rfl⟩
  · rw [merge_of_resolved resolved kind] at merges
    cases merges
    refine .inr ⟨fun _ => MergeOutcome.noConfusion, ?_⟩
    rw [state_seenAt, if_neg fun due => resolved due.1]

/-- A resolved entry keeps its state whatever it is asked. -/
theorem Moves.final
    {offered : ProducerId → KeyFilter → Prop}
    {told : KeyFilter → Prop}
    {now : Nat}
    {entry next : Entry}
    (moves : entry.Moves offered told now next)
    (resolved : entry.state ≠ .pending) :
    next.state = entry.state := by
  obtain rfl | ⟨_, _, _, serves⟩ := moves.serves
  · rfl
  · exact (serves.final resolved).1

/-- To look at an entry is at most to end it. -/
theorem moves_seenAt
    (entry : Entry)
    (now : Nat) :
    entry.Moves (fun _ _ => True) (fun _ => False) now (entry.seenAt now) := by
  obtain isOpen | resolved | ⟨pending, due⟩ := entry.seenAt_cases now
  · exact .inl (seenAt_of_openAt isOpen)
  · exact .inl (seenAt_of_resolved resolved)
  · refine .inr ⟨.timeOut, .timeOut, ?_⟩
    show _ = entry.timeOut.2
    rw [due, timeOut, if_neg fun resolved => isResolved_iff.mp resolved pending]

/-- A second look at the same moment shows nothing new. -/
theorem seenAt_seenAt
    (entry : Entry)
    (now : Nat) :
    (entry.seenAt now).seenAt now = entry.seenAt now := by
  obtain isOpen | resolved | ⟨_, due⟩ := entry.seenAt_cases now
  · rw [seenAt_of_openAt isOpen, seenAt_of_openAt isOpen]
  · rw [seenAt_of_resolved resolved, seenAt_of_resolved resolved]
  · rw [due]
    exact seenAt_of_resolved FilterState.noConfusion

theorem id_timeOut (entry : Entry) : entry.timeOut.2.id = entry.id :=
  entry.id_serve 0 .timeOut

/-- An entry that is ended is resolved, and has timed out unless it is as it was. -/
theorem timeOut_cases (entry : Entry) :
    entry.timeOut.2.state ≠ .pending ∧
      (entry.timeOut.2.state = .timedOut ∨ entry.timeOut.2 = entry) := by
  unfold timeOut
  split
  · next resolved => exact ⟨isResolved_iff.mp resolved, .inr rfl⟩
  · exact ⟨FilterState.noConfusion, .inl rfl⟩

theorem state_of_disable
    {entry next : Entry}
    {now : Nat}
    (disables : entry.disable now = .ok next) :
    next.state = .disabled := by
  unfold disable at disables
  dsimp only at disables
  split at disables
  · next state =>
    cases disables
    exact state
  · split at disables
    · cases disables
      rfl
    · cases disables
  · cases disables

end Entry

namespace Coordinator

/-- A call at a coordinator: what it sends, and what it leaves behind. One that fails sends nothing. -/
def answer (call : Step Coordinator Mail) (coordinator : Coordinator) : Mail × Coordinator :=
  ((call.outcome coordinator).1.toOption.getD [], (call.outcome coordinator).2)

/-- What a coordinator has to tell of a filter now. -/
def news? (coordinator : Coordinator) (now : Nat) (filter : FilterId) : Option Notice :=
  (coordinator.entries.seen? now filter).bind (resolution? filter)

section News

variable {coordinator : Coordinator} {now : Nat} {filter : FilterId} {entry : Entry} {notice : Notice}
  {state : FilterState}

theorem news?_of_lookup (found : coordinator.entries.lookup filter = some entry) :
    coordinator.news? now filter = resolution? filter (entry.seenAt now).state := by
  rw [news?, Entries.seen?, found, Option.map_some, Option.bind_some]

theorem news?_eq_some_iff :
    coordinator.news? now filter = some notice ↔
      ∃ entry, coordinator.entries.lookup filter = some entry ∧
        resolution? filter (entry.seenAt now).state = some notice := by
  simp [news?, Entries.seen?, Option.bind_eq_some_iff]

theorem resolved?_of_resolution? (told : resolution? filter state = some notice) :
    notice.resolved? = some filter := by
  cases state <;> cases told <;> rfl

theorem ne_pending_of_resolution? (told : resolution? filter state = some notice) :
    state ≠ .pending := by
  rintro rfl
  cases told

theorem eq_pending_of_resolution? (silent : resolution? filter state = none) : state = .pending := by
  cases state with
  | pending => rfl
  | arrived | timedOut | disabled => cases silent

theorem eq_timedOut_of_resolution? (told : resolution? filter state = some (.timedOut filter)) :
    state = .timedOut := by
  cases state with
  | timedOut => rfl
  | pending | arrived | disabled => cases told

/-- News come up as time goes on only of filters that time out. -/
theorem news?_of_le
    {later : Nat}
    (told : coordinator.news? later filter = some notice)
    (after : now ≤ later) :
    coordinator.news? now filter = some notice ∨
      notice = .timedOut filter ∧ ∃ entry, coordinator.entries.lookup filter = some entry ∧
        entry.state = .pending := by
  obtain ⟨entry, found, resolution⟩ := news?_eq_some_iff.mp told
  by_cases pending : (entry.seenAt now).state = .pending
  · refine .inr ?_
    obtain isOpen | settled | ⟨_, due⟩ := entry.seenAt_cases now
    · refine ⟨?_, entry, found, isOpen.1⟩
      rw [Entry.state_seenAt] at resolution
      split at resolution
      · exact (Option.some.inj resolution).symm
      · rw [isOpen.1] at resolution
        cases resolution
    · rw [Entry.seenAt_of_resolved settled] at pending
      exact absurd pending settled
    · rw [due] at pending
      cases pending
  · rw [Entry.state_seenAt_of_le pending after] at resolution
    exact .inl (news?_eq_some_iff.mpr ⟨entry, found, resolution⟩)

/-- News stay true. -/
theorem news?_mono
    {later : Nat}
    (told : coordinator.news? now filter = some notice)
    (after : now ≤ later) :
    coordinator.news? later filter = some notice := by
  obtain ⟨entry, found, resolution⟩ := news?_eq_some_iff.mp told
  refine news?_eq_some_iff.mpr ⟨entry, found, ?_⟩
  rwa [Entry.state_seenAt_of_le (ne_pending_of_resolution? resolution) after]

theorem mem_subscribersOf_iff {worker : WorkerId} :
    worker ∈ coordinator.subscribersOf filter ↔ (filter, worker) ∈ coordinator.subscribers := by
  simp [subscribersOf]

end News

/-! ## What a call tells -/

/-- What a call does and sends as far as a filter is concerned, given the contributions that are known
to be offered. -/
structure Announces
    (filter : FilterId)
    (offered : ProducerId → KeyFilter → Prop)
    (now : Nat)
    (before after : Coordinator)
    (mail : Mail) :
    Prop where
  query : after.query = before.query
  moves : ∀ entry, before.entries.lookup filter = some entry →
    ∃ next, after.entries.lookup filter = some next ∧
      entry.Moves offered (fun _ => False) now next
  subscribers : before.subscribers ⊆ after.subscribers
  /-- What is sent tells of a filter, or that the query is cancelled. -/
  tells : ∀ letter ∈ mail, letter.2.notice = .cancel ∨
    ∃ resolved, letter.2.notice.resolved? = some resolved
  /-- What is sent is sent in the name of the query, and what it tells of the filter is true. -/
  truthful : ∀ letter ∈ mail, letter.2.query = before.query ∧
    (letter.2.notice.resolved? = some filter → after.news? now filter = some letter.2.notice)
  /-- A subscriber is told the news, unless they are old and he was subscribed before. -/
  told : ∀ worker notice, (filter, worker) ∈ after.subscribers →
    after.news? now filter = some notice →
    (worker, before.message notice) ∈ mail ∨
      (filter, worker) ∈ before.subscribers ∧ before.news? now filter = some notice

section Announces

variable {filter target : FilterId} {offered : ProducerId → KeyFilter → Prop} {now : Nat}
  {before middle after : Coordinator} {mail : Mail} {entry next : Entry}

/-- Of what was resolved before the call nothing else is told after it. -/
theorem Announces.stays
    {notice : Notice}
    (announces : Announces filter offered now before after mail)
    (told : before.news? now filter = some notice) :
    after.news? now filter = some notice := by
  obtain ⟨entry, found, resolution⟩ := news?_eq_some_iff.mp told
  obtain ⟨next, there, moves⟩ := announces.moves entry found
  refine news?_eq_some_iff.mpr ⟨next, there, ?_⟩
  rwa [moves.seen (ne_pending_of_resolution? resolution)]

/-- A filter that is published has arrived, and no contribution is sent. -/
theorem Announces.turns (announces : Announces filter offered now before after mail) :
    Turns filter offered now before after mail where
  moves := announces.moves
  mail letter member := by
    have told := announces.tells letter member
    have truthful := (announces.truthful letter member).2
    cases notice : letter.2.notice with
    | publish other payload =>
        rintro rfl
        rw [notice] at truthful
        obtain ⟨entry, found, resolution⟩ := news?_eq_some_iff.mp (truthful rfl)
        cases state : (entry.seenAt now).state with
        | arrived merged =>
            rw [state] at resolution
            cases resolution
            exact ⟨entry, merged, found, Entry.arrived_seenAt_iff.mp state, rfl⟩
        | pending | timedOut | disabled =>
            rw [state] at resolution
            cases resolution
    | contribution =>
        rw [notice] at told
        obtain other | ⟨_, other⟩ := told
        · cases other
        · cases other
    | subscribe | timedOut | disabled | cancel => exact trivial

theorem Announces.of_same
    (announces : Announces filter offered now middle after mail)
    (query : middle.query = before.query)
    (entries : middle.entries = before.entries)
    (subscribers : middle.subscribers = before.subscribers) :
    Announces filter offered now before after mail where
  query := announces.query.trans query
  moves := entries ▸ announces.moves
  subscribers := subscribers ▸ announces.subscribers
  tells := announces.tells
  truthful := query ▸ announces.truthful
  told worker notice subscribed news := by
    have told := announces.told worker notice subscribed news
    rwa [subscribers, news?, entries, message, query] at told

theorem announces_of_silent
    (query : after.query = before.query)
    (entries : after.entries = before.entries)
    (subscribers : after.subscribers = before.subscribers) :
    Announces filter offered now before after [] where
  query := query
  moves entry found := ⟨entry, entries ▸ found, .inl rfl⟩
  subscribers := subscribers ▸ List.Subset.refl _
  tells _ member := absurd member List.not_mem_nil
  truthful _ member := absurd member List.not_mem_nil
  told worker notice subscribed news := by
    rw [news?, entries] at news
    exact .inr ⟨subscribers ▸ subscribed, news⟩

/-- A change of one entry is told to all subscribers of its filter if it is news. -/
theorem announces_setEntry
    (found : before.entries.lookup target = some entry)
    (named : next.id = entry.id)
    (moves : target = filter → entry.Moves offered (fun _ => False) now next)
    (query : after.query = before.query)
    (entries : after.entries = before.entries.update next)
    (subscribers : after.subscribers = before.subscribers)
    (told : mail = [] ∧ (next.seenAt now).state = (entry.seenAt now).state ∨
      ∃ notice, resolution? target (next.seenAt now).state = some notice ∧
        mail = before.broadcast target notice) :
    Announces filter offered now before after mail := by
  have here : after.entries.lookup target = some next :=
    entries ▸ Entries.lookup_update_of_lookup found named
  have elsewhere : filter ≠ target → after.news? now filter = before.news? now filter := by
    intro different
    rw [news?, news?, Entries.seen?, Entries.seen?, entries, Entries.lookup_update, named,
      Entries.id_of_lookup found]
    simp only [if_neg different, Option.map_id']
  constructor
  · exact query
  · rw [entries]
    exact fun other looked => Entries.moves_of_update found named moves looked
  · exact subscribers ▸ List.Subset.refl _
  · intro letter member
    obtain ⟨rfl, _⟩ | ⟨notice, resolution, rfl⟩ := told
    · exact absurd member List.not_mem_nil
    · obtain ⟨worker, _, rfl⟩ := List.mem_map.mp member
      exact .inr ⟨target, resolved?_of_resolution? resolution⟩
  · intro letter member
    obtain ⟨rfl, _⟩ | ⟨notice, resolution, rfl⟩ := told
    · exact absurd member List.not_mem_nil
    · obtain ⟨worker, _, rfl⟩ := List.mem_map.mp member
      refine ⟨rfl, fun about => ?_⟩
      obtain rfl := Option.some.inj ((resolved?_of_resolution? resolution).symm.trans about)
      exact news?_eq_some_iff.mpr ⟨next, here, resolution⟩
  · intro worker notice subscribed news
    rw [subscribers] at subscribed
    by_cases same : filter = target
    · subst same
      rw [news?_of_lookup here] at news
      obtain ⟨rfl, unchanged⟩ | ⟨other, resolution, rfl⟩ := told
      · exact .inr ⟨subscribed, by rw [news?_of_lookup found, ← unchanged, news]⟩
      · obtain rfl := Option.some.inj (resolution.symm.trans news)
        exact .inl (List.mem_map_of_mem (mem_subscribersOf_iff.mpr subscribed))
    · exact .inr ⟨subscribed, elsewhere same ▸ news⟩

/-! ## Each call -/

/-- What is known of how a call ends is known of its answer. -/
theorem answer_of_ends
    {call : Step Coordinator Mail}
    {relation : Coordinator → Mail → Prop}
    (ends : call.Ends before (fun mail after => relation after mail) fun _ after => relation after []) :
    relation (answer call before).2 (answer call before).1 := by
  unfold Step.Ends at ends
  unfold answer
  split at ends
  · next outcome =>
    rw [outcome]
    exact ends
  · next outcome =>
    rw [outcome]
    exact ends

theorem announces_update
    {producer : ProducerId}
    {contribution : KeyFilter}
    (known : target = filter → offered producer contribution) :
    (update now target producer contribution).Ends before
      (fun mail after => Announces filter offered now before after mail)
      fun _ after => Announces filter offered now before after [] := by
  simp only [update, Step.ends_bind, Step.ends_get, Step.ends_ofExcept, Step.ends_modify,
    Step.ends_set, Step.ends_pure]
  refine ⟨fun entry found => ⟨fun merged merges => ?_, fun _ _ => announces_of_silent rfl rfl rfl⟩,
    fun _ _ => announces_of_silent rfl rfl rfl⟩
  obtain ⟨outcome, next⟩ := merged
  have found := lookup_of_entry found
  rw [mapError_eq_ok_iff] at merges
  have served : (entry.serve now (.merge producer contribution)).2 = next :=
    congrArg Prod.snd (entry.serve_of_merge merges)
  have named : next.id = entry.id := served ▸ entry.id_serve now _
  have moves : target = filter → entry.Moves offered (fun _ => False) now next :=
    fun same => .inr ⟨_, .merge (known same), served.symm⟩
  have news := Entry.seen_of_merge merges
  dsimp only
  cases outcome with
  | completed merged =>
      obtain ⟨_, same, arrived⟩ | ⟨other, _⟩ := news
      · cases same
        refine announces_setEntry found named moves rfl rfl rfl (.inr ⟨.publish target (Wire.encode merged),
          ?_, rfl⟩)
        rw [Entry.arrived_seenAt_iff.mpr arrived]
        rfl
      · exact absurd rfl (other merged)
  | merged | duplicate | late =>
      obtain ⟨_, same, _⟩ | ⟨_, unchanged⟩ := news
      · cases same
      · exact announces_setEntry found named moves rfl rfl rfl (.inl ⟨rfl, unchanged⟩)

theorem announces_disable :
    (disable now target).Ends before
      (fun mail after => Announces filter offered now before after mail)
      fun _ after => Announces filter offered now before after [] := by
  simp only [disable, Step.ends_bind, Step.ends_get, Step.ends_ofExcept, Step.ends_modify,
    Step.ends_pure]
  refine ⟨fun entry found => ⟨fun next disables => ?_, fun _ _ => announces_of_silent rfl rfl rfl⟩,
    fun _ _ => announces_of_silent rfl rfl rfl⟩
  rw [mapError_eq_ok_iff] at disables
  have served : (entry.serve now .disable).2 = next :=
    congrArg Prod.snd (entry.serve_of_disable disables)
  have state := Entry.state_of_disable disables
  refine announces_setEntry (lookup_of_entry found) (served ▸ entry.id_serve now _)
    (fun _ => .inr ⟨_, .disable, served.symm⟩) rfl rfl rfl (.inr ⟨.disabled target, ?_, rfl⟩)
  rw [Entry.seenAt_of_resolved (state ▸ FilterState.noConfusion), state]
  rfl

theorem announces_subscribe
    {worker : WorkerId} :
    (subscribe now target worker).Ends before
      (fun mail after => Announces filter offered now before after mail)
      fun _ after => Announces filter offered now before after [] := by
  simp only [subscribe, Step.ends_bind, Step.ends_get, Step.ends_ofExcept, Step.ends_modify,
    Step.ends_pure, Step.ends_ite, Step.ends_set]
  refine ⟨fun entry found => ⟨fun _ => announces_of_silent rfl rfl rfl, fun fresh => ?_⟩,
    fun _ _ => announces_of_silent rfl rfl rfl⟩
  have news : ∀ {coordinator : Coordinator}, coordinator.entries = before.entries →
      coordinator.news? now target = resolution? target (entry.seenAt now).state :=
    fun same => news?_of_lookup (same ▸ lookup_of_entry found)
  constructor
  · rfl
  · exact fun entry found => ⟨entry, found, .inl rfl⟩
  · exact List.subset_append_left _ _
  · intro letter member
    obtain ⟨notice, resolution, rfl⟩ := Option.map_eq_some_iff.mp (Option.mem_toList.mp member)
    exact .inr ⟨target, resolved?_of_resolution? resolution⟩
  · intro letter member
    obtain ⟨notice, resolution, rfl⟩ := Option.map_eq_some_iff.mp (Option.mem_toList.mp member)
    refine ⟨rfl, fun about => ?_⟩
    obtain rfl := Option.some.inj ((resolved?_of_resolution? resolution).symm.trans about)
    exact (news rfl).trans resolution
  · intro other notice subscribed told
    obtain old | new := List.mem_append.mp subscribed
    · exact .inr ⟨old, told⟩
    · obtain ⟨rfl, rfl⟩ := Prod.mk.inj (List.mem_singleton.mp new)
      refine .inl ?_
      rw [(news rfl).symm.trans told]
      exact List.mem_singleton_self _

/-- A worker that asks for a filter that the coordinator owns is subscribed. -/
theorem subscribed_subscribe
    {worker : WorkerId}
    (found : before.entries.lookup target = some entry) :
    (subscribe now target worker).Ends before (fun _ after => (target, worker) ∈ after.subscribers)
      fun _ after => (target, worker) ∈ after.subscribers := by
  simp only [subscribe, Step.ends_bind, Step.ends_get, Step.ends_ofExcept, Step.ends_modify,
    Step.ends_pure, Step.ends_ite, Step.ends_set, entry_of_lookup found]
  exact ⟨fun _ _ => ⟨id, fun _ => List.mem_append_right _ (List.mem_singleton_self _)⟩,
    fun _ failed => absurd failed (by simp)⟩

/-- Taking a message. A contribution has to be known only if it can be read. -/
theorem announces_receive
    {message : Message}
    (known : ∀ worker producer payload contribution,
      message.notice = .contribution filter worker producer payload →
      decodePayload payload = .ok contribution → offered producer contribution) :
    (receive now message).Ends before
      (fun mail after => Announces filter offered now before after mail)
      fun _ after => Announces filter offered now before after [] := by
  simp only [receive, Step.ends_bind, Step.ends_get, Step.ends_ite, Step.ends_fail]
  refine ⟨fun _ => announces_of_silent rfl rfl rfl, fun _ => ?_⟩
  split
  · next target worker producer payload notice =>
    simp only [Step.ends_bind, Step.ends_modify, Step.ends_ofExcept]
    refine ⟨fun contribution decoded => ?_, fun _ _ => announces_of_silent rfl rfl rfl⟩
    refine (announces_update fun same => ?_).mono
      (fun _ _ announces => announces.of_same rfl rfl rfl)
      fun _ _ announces => announces.of_same rfl rfl rfl
    subst same
    exact known worker producer payload contribution notice decoded
  · exact announces_subscribe
  · rw [Step.ends_fail]
    exact announces_of_silent rfl rfl rfl

/-- Nobody is told of a filter when the query is cancelled. -/
theorem announces_cancel (coordinator : Coordinator) :
    Announces filter offered now coordinator coordinator.cancel.2 coordinator.cancel.1 := by
  unfold cancel
  split
  · exact announces_of_silent rfl rfl rfl
  · constructor
    · rfl
    · intro entry found
      dsimp only
      rw [Entries.lookup_cancelAll, found]
      exact ⟨entry.cancel, rfl, .inr ⟨.cancel, .cancel, rfl⟩⟩
    · exact List.Subset.refl _
    · intro letter member
      obtain ⟨worker, _, rfl⟩ := List.mem_map.mp member
      exact .inl rfl
    · intro letter member
      obtain ⟨worker, _, rfl⟩ := List.mem_map.mp member
      exact ⟨rfl, fun about => nomatch about⟩
    · intro worker notice subscribed news
      refine .inr ⟨subscribed, ?_⟩
      rwa [news?, Entries.seen?_cancelAll] at news

/-- What the timer does to a filter that it knows: it ends it if nothing else has, and tells of it if it
has timed out. -/
theorem onDeadline_of_lookup
    {coordinator : Coordinator}
    (now : Nat)
    (found : coordinator.entries.lookup target = some entry) :
    (coordinator.onDeadline now target).2.query = coordinator.query ∧
      (coordinator.onDeadline now target).2.entries = coordinator.entries.update entry.timeOut.2 ∧
      (coordinator.onDeadline now target).2.subscribers = coordinator.subscribers ∧
      (coordinator.onDeadline now target).1 =
        if entry.timeOut.2.state = .timedOut then coordinator.broadcast target (.timedOut target)
        else [] := by
  unfold onDeadline
  rw [found]
  dsimp only
  rw [entry.timeOut_seenAt]
  split
  · exact ⟨rfl, rfl, rfl, rfl⟩
  · exact ⟨rfl, rfl, rfl, rfl⟩

theorem announces_onDeadline (coordinator : Coordinator) :
    Announces filter offered now coordinator (coordinator.onDeadline now target).2
      (coordinator.onDeadline now target).1 := by
  cases found : coordinator.entries.lookup target with
  | none =>
      have nothing : coordinator.onDeadline now target = ([], coordinator) := by
        rw [onDeadline, found]
      rw [nothing]
      exact announces_of_silent rfl rfl rfl
  | some entry =>
      obtain ⟨query, entries, subscribers, mail⟩ := onDeadline_of_lookup now found
      obtain ⟨settled, ended⟩ := entry.timeOut_cases
      have moves : entry.Moves offered (fun _ => False) now entry.timeOut.2 :=
        .inr ⟨.timeOut, .timeOut, rfl⟩
      refine announces_setEntry found entry.id_timeOut (fun _ => moves) query entries subscribers ?_
      rw [mail]
      split
      · next timedOut =>
        refine .inr ⟨.timedOut target, ?_, rfl⟩
        rw [Entry.seenAt_of_resolved settled, timedOut]
        rfl
      · next other => exact .inl ⟨rfl, by rw [ended.resolve_left other]⟩

/-- After the timer has come to a filter, the filter is resolved, and every subscriber is told if it has
timed out. -/
theorem expired_onDeadline
    {coordinator : Coordinator}
    (found : (coordinator.onDeadline now filter).2.entries.lookup filter = some next) :
    next.state ≠ .pending ∧ (next.state = .timedOut → ∀ worker,
      (filter, worker) ∈ (coordinator.onDeadline now filter).2.subscribers →
      (worker, coordinator.message (.timedOut filter)) ∈ (coordinator.onDeadline now filter).1) := by
  cases looked : coordinator.entries.lookup filter with
  | none =>
      have nothing : coordinator.onDeadline now filter = ([], coordinator) := by
        rw [onDeadline, looked]
      rw [nothing, looked] at found
      cases found
  | some entry =>
      obtain ⟨_, entries, subscribers, mail⟩ := onDeadline_of_lookup now looked
      rw [entries, Entries.lookup_update_of_lookup looked entry.id_timeOut] at found
      cases found
      refine ⟨entry.timeOut_cases.1, fun timedOut worker subscribed => ?_⟩
      rw [subscribers] at subscribed
      rw [mail, if_pos timedOut]
      exact List.mem_map_of_mem (mem_subscribersOf_iff.mpr subscribed)

end Announces

end Coordinator
end Spillway
