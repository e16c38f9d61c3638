import Spillway.Proofs.Cluster.Deliveries
import Spillway.Proofs.Filter.Canonical

/-!
# Banks mirror the coordinator

As long as nobody's deadline for a filter is over, a bank with a consumer of the filter sees it as the
coordinator does. A bank lags behind only while its worker is not subscribed, and then it has no consumer
or has resolved the filter already. This holds between any two changes: what a change of the coordinator
means for a bank depends on what the change announces, and on nothing else.
-/

namespace Spillway

/-! ## What a bank makes of the news -/

/-- A state as it comes out of a message. A filter that cannot be read does not arrive. -/
def FilterState.asTold : FilterState → FilterState
  | arrived filter => if (decodePayload (Wire.encode filter)).isOk then arrived filter else pending
  | state => state

/-- What is told is what there is, if a message can carry it. -/
theorem FilterState.asTold_eq
    {state : FilterState}
    (fits : ∀ filter, state = .arrived filter → Wire.WellFormed filter) :
    state.asTold = state := by
  cases state with
  | pending | timedOut | disabled => rfl
  | arrived filter =>
      refine if_pos ?_
      rw [decodePayload, Wire.decode_eq_ok_iff.mpr ⟨fits filter rfl, rfl⟩]
      rfl

/-- A filter that no message can carry does not arrive. -/
theorem FilterState.asTold_of_unfit
    {filter : KeyFilter}
    (unfit : ¬ Wire.WellFormed filter) :
    (arrived filter).asTold = pending := by
  refine if_neg fun read => ?_
  cases decoded : decodePayload (Wire.encode filter) with
  | ok other =>
      obtain rfl := Cluster.eq_of_decodePayload decoded rfl
      exact unfit (Wire.decode_eq_ok_iff.mp (mapError_eq_ok_iff.mp decoded)).1
  | error status =>
      rw [decoded] at read
      cases read

namespace Entry

/-- An entry that is told how its filter was resolved. -/
def told (entry : Entry) (now : Nat) : FilterState → Entry
  | .arrived filter =>
    match decodePayload (Wire.encode filter) with
    | .ok read => (entry.publish now read).2
    | .error _ => entry
  | .timedOut => entry.timeOut.2
  | .disabled => (entry.disable now).toOption.getD entry
  | .pending => entry

/-- The entry of a bank for a filter that is resolved elsewhere is open or as the bank was told, and its
deadline is not over for a while. -/
structure Reflects (state : FilterState) (limit : Nat) (entry : Entry) : Prop where
  elsewhere : entry.descriptor.isLocal = false
  untouched : entry.producers = []
  inTime : limit < entry.deadline
  behind : entry.state = .pending ∨ entry.state = state.asTold

section Reflects

variable {entry next : Entry} {state : FilterState} {now limit : Nat}

theorem Reflects.agrees
    (reflects : entry.Reflects state limit)
    (agrees : entry.Agrees next) :
    next.Reflects state limit where
  elsewhere := agrees.descriptor ▸ reflects.elsewhere
  untouched := agrees.producers ▸ reflects.untouched
  inTime := agrees.deadline ▸ reflects.inTime
  behind := agrees.state ▸ reflects.behind

theorem Reflects.openAt
    (reflects : entry.Reflects state limit)
    (early : now ≤ limit)
    (pending : entry.state = .pending) :
    entry.OpenAt now :=
  ⟨pending, Nat.lt_of_le_of_lt early reflects.inTime⟩

/-- A resolved entry stays as it is, whatever it is told. -/
theorem agrees_told
    (resolved : entry.state ≠ .pending)
    (now : Nat)
    (state : FilterState) :
    entry.Agrees (entry.told now state) := by
  cases state with
  | pending => exact .refl entry
  | arrived filter =>
      rw [told]
      split
      · rw [publish, seenAt_of_resolved resolved]
        rw [if_pos (isResolved_iff.mpr resolved)]
        exact ⟨rfl, rfl, rfl, rfl, rfl, rfl⟩
      · exact .refl entry
  | timedOut =>
      rw [told, timeOut, if_pos (isResolved_iff.mpr resolved)]
      exact .refl entry
  | disabled =>
      rw [told, disable, seenAt_of_resolved resolved]
      split
      · exact .refl entry
      · next pending => exact absurd pending resolved
      · exact .refl entry

/-- An open entry of a bank becomes what it is told. -/
theorem told_of_openAt
    (isOpen : entry.OpenAt now)
    (untouched : entry.producers = [])
    (state : FilterState) :
    (entry.told now state).descriptor = entry.descriptor ∧
      (entry.told now state).deadline = entry.deadline ∧
      (entry.told now state).producers = entry.producers ∧
      (entry.told now state).state = state.asTold := by
  cases state with
  | pending => exact ⟨rfl, rfl, rfl, isOpen.1⟩
  | arrived filter =>
      rw [told, FilterState.asTold]
      cases decoded : decodePayload (Wire.encode filter) with
      | ok read =>
          obtain rfl := Cluster.eq_of_decodePayload decoded rfl
          dsimp only
          rw [publish, seenAt_of_openAt isOpen]
          rw [if_neg (isResolved_of_openAt isOpen)]
          exact ⟨rfl, rfl, rfl, rfl⟩
      | error status => exact ⟨rfl, rfl, rfl, isOpen.1⟩
  | timedOut =>
      rw [told, timeOut, if_neg (isResolved_of_openAt isOpen)]
      exact ⟨rfl, rfl, rfl, rfl⟩
  | disabled =>
      rw [told, disable, seenAt_of_openAt isOpen]
      rw [isOpen.1]
      dsimp only
      rw [if_pos (List.isEmpty_iff.mpr untouched)]
      exact ⟨rfl, rfl, rfl, rfl⟩

/-- Whoever is told how a filter was resolved knows it. -/
theorem Reflects.told
    (reflects : entry.Reflects state limit)
    (early : now ≤ limit) :
    (entry.told now state).Reflects state limit ∧ (entry.told now state).state = state.asTold := by
  by_cases pending : entry.state = .pending
  · obtain ⟨descriptor, deadline, producers, told⟩ :=
      told_of_openAt (reflects.openAt early pending) reflects.untouched state
    exact ⟨⟨descriptor ▸ reflects.elsewhere, producers ▸ reflects.untouched,
      deadline ▸ reflects.inTime, .inr told⟩, told⟩
  · have agrees := agrees_told pending now state
    exact ⟨reflects.agrees agrees, agrees.state.trans (reflects.behind.resolve_left pending)⟩

/-- An entry of a bank is pending with the coordinator's. -/
theorem Reflects.waits
    (reflects : entry.Reflects state limit)
    (pending : state = .pending) :
    entry.state = .pending := by
  subst pending
  obtain waits | waits := reflects.behind
  · exact waits
  · exact waits

/-- What a bank's entry is like stays so when the coordinator's entry moves. -/
theorem Reflects.moves
    {offered : ProducerId → KeyFilter → Prop}
    {held : Entry}
    (reflects : held.Reflects entry.state limit)
    (moves : entry.Moves offered (fun _ => False) now next) :
    held.Reflects next.state limit := by
  refine ⟨reflects.elsewhere, reflects.untouched, reflects.inTime, ?_⟩
  by_cases pending : entry.state = .pending
  · exact .inl (reflects.waits pending)
  · rw [moves.final pending]
    exact reflects.behind

theorem Moves.deadline
    {offered : ProducerId → KeyFilter → Prop}
    {told : KeyFilter → Prop}
    (moves : entry.Moves offered told now next) :
    next.deadline = entry.deadline := by
  obtain rfl | ⟨_, _, _, serves⟩ := moves.serves
  · rfl
  · exact serves.deadline

/-- Before its deadline an entry is seen as it is. -/
theorem state_seenAt_of_lt (early : now < entry.deadline) : (entry.seenAt now).state = entry.state := by
  rw [state_seenAt, if_neg]
  exact fun due => Nat.not_le.mpr early due.2

end Reflects

end Entry

/-! ## What a bank hears -/

namespace Bank

section Hearing

variable {bank after : Bank} {entry : Entry} {state : FilterState} {filter : FilterId} {now limit : Nat}
  {message : Message} {notice : Notice} {letter : WorkerId × Message} {mail : Mail}

/-- A message that tells nothing of a filter leaves its entry as it is. -/
theorem agrees_of_receive
    (received : bank.receive now message = .ok after)
    (other : message.notice.resolved? ≠ some filter)
    (found : bank.entries.lookup filter = some entry) :
    ∃ next, after.entries.lookup filter = some next ∧ entry.Agrees next := by
  have elsewhere : ∀ {target changed}, changed.id = target → target ≠ filter →
      (bank.entries.update changed).lookup filter = some entry := by
    rintro _ changed rfl different
    rw [Entries.lookup_update, found, Option.map_some, if_neg (Ne.symm different)]
  unfold receive at received
  split at received
  · cases received
  · split at received
    · next target payload notice =>
      simp only [bind_eq_ok_iff, pure_eq_ok_iff] at received
      obtain ⟨published, _, held, located, rfl⟩ := received
      rw [notice] at other
      refine ⟨entry, elsewhere ((held.id_serve now (.publish published)).trans
        (Entries.id_of_lookup (lookup_of_entry located))) fun same => other (congrArg some same),
        .refl entry⟩
    · next target notice =>
      simp only [bind_eq_ok_iff, pure_eq_ok_iff] at received
      obtain ⟨held, located, rfl⟩ := received
      rw [notice] at other
      exact ⟨entry, elsewhere ((held.id_serve now .timeOut).trans
        (Entries.id_of_lookup (lookup_of_entry located))) fun same => other (congrArg some same),
        .refl entry⟩
    · next target notice =>
      simp only [bind_eq_ok_iff, pure_eq_ok_iff] at received
      obtain ⟨held, located, rfl⟩ := received
      rw [notice] at other
      have named : ((held.disable now).toOption.getD held).id = held.id := by
        cases disables : held.disable now with
        | ok next => exact congrArg FilterDescriptor.id (Entry.serves_disable disables).descriptor
        | error fault => rfl
      exact ⟨entry, elsewhere (named.trans (Entries.id_of_lookup (lookup_of_entry located)))
        fun same => other (congrArg some same), .refl entry⟩
    · cases received
      rw [cancel, Entries.lookup_cancelAll, found]
      exact ⟨entry.cancel, rfl, ⟨rfl, rfl, rfl, rfl, rfl, rfl⟩⟩
    · cases received

/-- A bank passes on to its entry what it is told of a filter. -/
theorem lookup_hear_news
    (found : bank.entries.lookup filter = some entry)
    (told : Coordinator.resolution? filter state = some notice) :
    (bank.hear now (bank.worker, ⟨bank.query, notice⟩)).entries.lookup filter =
      some (entry.told now state) := by
  have known := entry_of_lookup found
  have set : ∀ next : Entry, next.id = entry.id →
      (bank.setEntry next).entries.lookup filter = some next :=
    fun next named => Entries.lookup_update_of_lookup found named
  unfold hear receive
  rw [if_pos rfl, if_neg (not_not.mpr rfl)]
  cases state with
  | pending => cases told
  | arrived merged =>
      cases told
      dsimp only
      rw [Entry.told]
      cases decodePayload (Wire.encode merged) with
      | ok read =>
          rw [known]
          exact set _ (entry.id_serve now (.publish read))
      | error status => exact found
  | timedOut =>
      cases told
      dsimp only
      rw [known]
      exact set _ (entry.id_serve now .timeOut)
  | disabled =>
      cases told
      dsimp only
      rw [known]
      refine set _ ?_
      cases disables : entry.disable now with
      | ok next => exact congrArg FilterDescriptor.id (Entry.serves_disable disables).descriptor
      | error fault => rfl

/-- The news, or word of something else. -/
theorem hear_reflects
    (found : bank.entries.lookup filter = some entry)
    (reflects : entry.Reflects state limit)
    (early : now ≤ limit)
    (truthful : letter.2.notice.resolved? = some filter →
      letter.2.query = bank.query ∧ Coordinator.resolution? filter state = some letter.2.notice) :
    ∃ next, (bank.hear now letter).entries.lookup filter = some next ∧ next.Reflects state limit ∧
      (entry.state = state.asTold → next.state = state.asTold) ∧
      (letter.1 = bank.worker → letter.2.notice.resolved? = some filter →
        next.state = state.asTold) := by
  obtain ⟨worker, query, notice⟩ := letter
  by_cases about : notice.resolved? = some filter
  · obtain ⟨rfl, told⟩ := truthful about
    by_cases mine : worker = bank.worker
    · subst mine
      obtain ⟨reflectsNow, same⟩ := reflects.told early
      exact ⟨_, lookup_hear_news found told, reflectsNow, fun _ => same, fun _ _ => same⟩
    · rw [hear, if_neg mine]
      exact ⟨entry, found, reflects, id, fun here => absurd here mine⟩
  · obtain same | ⟨_, received⟩ := bank.hear_cases now (worker, ⟨query, notice⟩)
    · rw [same]
      exact ⟨entry, found, reflects, id, fun _ here => absurd here about⟩
    · obtain ⟨next, there, agrees⟩ := agrees_of_receive received about found
      exact ⟨next, there, reflects.agrees agrees, fun same => agrees.state.trans same,
        fun _ here => absurd here about⟩

/-- A bank that hears only what is true of a filter knows what it is told in the end. -/
theorem hearAll_reflects
    (found : bank.entries.lookup filter = some entry)
    (reflects : entry.Reflects state limit)
    (early : now ≤ limit)
    (truthful : ∀ letter ∈ mail, letter.2.notice.resolved? = some filter →
      letter.2.query = bank.query ∧ Coordinator.resolution? filter state = some letter.2.notice) :
    ∃ next, (bank.hearAll now mail).entries.lookup filter = some next ∧ next.Reflects state limit ∧
      (entry.state = state.asTold → next.state = state.asTold) ∧
      ∀ letter ∈ mail, letter.1 = bank.worker → letter.2.notice.resolved? = some filter →
        next.state = state.asTold := by
  induction mail generalizing bank entry with
  | nil => exact ⟨entry, found, reflects, id, fun _ member => absurd member List.not_mem_nil⟩
  | cons letter mail inductionHypothesis =>
      obtain ⟨middle, there, reflectsNow, keeps, tells⟩ :=
        hear_reflects found reflects early (truthful letter List.mem_cons_self)
      have owner := bank.sameOwner_hear now letter
      obtain ⟨next, thereNext, reflectsNext, keepsNext, tellsNext⟩ := inductionHypothesis there reflectsNow
        fun other member => owner.query ▸ truthful other (List.mem_cons_of_mem _ member)
      refine ⟨next, thereNext, reflectsNext, keepsNext ∘ keeps, fun other member mine about => ?_⟩
      obtain rfl | later := List.mem_cons.mp member
      · exact keepsNext (tells mine about)
      · exact tellsNext other later (mine.trans owner.worker.symm) about

theorem hasConsumer_iff :
    bank.hasConsumer filter = true ↔ ∃ consumer, (filter, consumer) ∈ bank.consumers := by
  simp [hasConsumer]

/-- The first consumer of a filter that is pending and resolved elsewhere makes the bank ask for it. -/
theorem hasConsumer_of_acts
    {message : Option Message}
    (acts : bank.Acts now message after)
    (consumed : after.hasConsumer filter = true) :
    bank.hasConsumer filter = true ∨
      ∃ entry, bank.entries.lookup filter = some entry ∧
        (entry.descriptor.isLocal = false → (entry.seenAt now).state = .pending →
          message = some (bank.message (.subscribe filter bank.worker))) := by
  obtain ⟨consumer, target, registered⟩ | ⟨target, producer, contribution, contributed⟩ := acts
  · simp only [register, bind_eq_ok_iff] at registered
    obtain ⟨entry, located, registered⟩ := registered
    have consumers : after.consumers = bank.consumers.insert (target, consumer) := by
      split at registered
      · cases registered
        rfl
      · cases registered
        rfl
    obtain ⟨other, member⟩ := hasConsumer_iff.mp consumed
    rw [consumers, List.mem_insert_iff] at member
    obtain new | old := member
    · cases new
      by_cases before : bank.hasConsumer filter = true
      · exact .inl before
      · refine .inr ⟨entry, lookup_of_entry located, fun elsewhere pending => ?_⟩
        rw [if_pos ⟨by simpa using before, elsewhere, pending⟩] at registered
        cases registered
        rfl
    · exact .inl (hasConsumer_iff.mpr ⟨other, old⟩)
  · refine .inl ?_
    simp only [contribute, bind_eq_ok_iff] at contributed
    obtain ⟨_, _, contributed⟩ := contributed
    split at contributed
    · simp only [bind_eq_ok_iff, mapError_eq_ok_iff] at contributed
      obtain ⟨_, _, contributed⟩ := contributed
      cases contributed
      exact consumed
    · split at contributed
      · cases contributed
        exact consumed
      · cases contributed
        exact consumed

end Hearing

end Bank

/-! ## Banks and their coordinator -/

/-- The coordinator owns the filter, whose deadline is not over for a while, and has merged nothing but
what may be offered. -/
def Coordinator.Owns
    (filter : FilterId)
    (offered : KeyFilter → Prop)
    (limit : Nat)
    (coordinator : Coordinator) :
    Prop :=
  ∃ (entry : Entry) (accepted : List (ProducerId × KeyFilter)),
    coordinator.entries.lookup filter = some entry ∧ limit < entry.deadline ∧
      entry.Collects accepted [] ∧ ∀ contribution ∈ accepted, offered contribution.2

/-- The bank sees the filter as the coordinator does once its worker is subscribed. One with a consumer
is subscribed, or it has resolved the filter, or it is just asking. -/
structure Follows
    (filter : FilterId)
    (limit : Nat)
    (asking : WorkerId → Prop)
    (coordinator : Coordinator)
    (bank : Bank) :
    Prop where
  query : bank.query = coordinator.query
  entries : ∃ entry held : Entry, coordinator.entries.lookup filter = some entry ∧
    bank.entries.lookup filter = some held ∧ held.Reflects entry.state limit ∧
    ((filter, bank.worker) ∈ coordinator.subscribers → held.state = entry.state.asTold) ∧
    (bank.hasConsumer filter = true →
      (filter, bank.worker) ∈ coordinator.subscribers ∨ held.state ≠ .pending ∨ asking bank.worker)

section Follows

variable {filter : FilterId} {limit now : Nat} {asking : WorkerId → Prop} {offered : KeyFilter → Prop}
  {coordinator next : Coordinator} {bank after : Bank} {mail : Mail}

theorem Coordinator.Owns.announces
    (owns : coordinator.Owns filter offered limit)
    (announces : Coordinator.Announces filter (fun _ contribution => offered contribution) now
      coordinator next mail) :
    next.Owns filter offered limit := by
  obtain ⟨entry, accepted, found, inTime, collects, known⟩ := owns
  obtain ⟨changed, there, moves⟩ := announces.moves entry found
  obtain ⟨more, collectsMore, offers⟩ := moves.collects collects
  refine ⟨changed, accepted ++ more, there, moves.deadline.symm ▸ inTime, collectsMore, ?_⟩
  intro contribution member
  obtain old | new := List.mem_append.mp member
  · exact known contribution old
  · exact offers contribution new

/-- Whatever the coordinator does, a bank that hears of it goes on to follow; one that has asked has to
be subscribed then. -/
theorem Follows.announces
    (follows : Follows filter limit asking coordinator bank)
    (owns : coordinator.Owns filter offered limit)
    (announces : Coordinator.Announces filter (fun _ contribution => offered contribution) now
      coordinator next mail)
    (early : now ≤ limit)
    (answered : asking bank.worker → (filter, bank.worker) ∈ next.subscribers) :
    Follows filter limit (fun _ => False) next (bank.hearAll now mail) := by
  obtain ⟨query, entry, held, found, kept, reflects, current, watched⟩ := follows
  obtain ⟨same, _, located, inTime, _⟩ := owns
  cases found.symm.trans located
  obtain ⟨changed, there, moves⟩ := announces.moves entry found
  have owner := bank.sameOwner_hearAll now mail
  have lateNow : now < changed.deadline := moves.deadline.symm ▸ Nat.lt_of_le_of_lt early inTime
  have newsNow : next.news? now filter = Coordinator.resolution? filter changed.state := by
    rw [Coordinator.news?_of_lookup there, Entry.state_seenAt_of_lt lateNow]
  have newsBefore : coordinator.news? now filter = Coordinator.resolution? filter entry.state := by
    rw [Coordinator.news?_of_lookup found,
      Entry.state_seenAt_of_lt (Nat.lt_of_le_of_lt early inTime)]
  have settled : held.state ≠ .pending → held.state = changed.state.asTold :=
    (reflects.moves moves).behind.resolve_left
  obtain ⟨heldNow, thereNow, reflectsNow, keeps, tells⟩ :=
    Bank.hearAll_reflects kept (reflects.moves moves) early fun letter member about => by
      obtain ⟨sender, truthful⟩ := announces.truthful letter member
      exact ⟨sender.trans query.symm, newsNow ▸ truthful about⟩
  refine ⟨owner.query.trans (query.trans announces.query.symm), changed, heldNow, there, thereNow,
    reflectsNow, fun subscribed => ?_, fun consumed => ?_⟩
  · rw [owner.worker] at subscribed
    cases news : Coordinator.resolution? filter changed.state with
    | none =>
        have pending := Coordinator.eq_pending_of_resolution? news
        rw [reflectsNow.waits pending, pending]
        rfl
    | some notice =>
        obtain sent | ⟨before, old⟩ := announces.told bank.worker notice subscribed (newsNow.trans news)
        · exact tells _ sent rfl (Coordinator.resolved?_of_resolution? news)
        · rw [newsBefore] at old
          have resolved := Coordinator.ne_pending_of_resolution? old
          refine keeps ?_
          rw [current before, moves.final resolved]
  · rw [owner.worker]
    rw [Bank.hasConsumer, owner.consumers] at consumed
    obtain subscribed | resolved | asks := watched consumed
    · exact .inl (announces.subscribers subscribed)
    · refine .inr (.inl ?_)
      rw [keeps (settled resolved), ← settled resolved]
      exact resolved
    · exact .inl (answered asks)

/-- What a bank does on its own account changes no entry for a filter that is resolved elsewhere. If it
has a consumer of the filter from then on, it had one before, or has resolved the filter, or asks. -/
theorem Follows.acts
    {message : Option Message}
    (follows : Follows filter limit (fun _ => False) coordinator bank)
    (acts : bank.Acts now message after)
    (early : now ≤ limit) :
    Follows filter limit
      (fun worker => message = some (bank.message (.subscribe filter worker))) coordinator after := by
  obtain ⟨query, entry, held, found, kept, reflects, current, watched⟩ := follows
  have owner := Bank.sameWorker_of_acts acts
  have keptNow : after.entries.lookup filter = some held := by
    obtain ⟨consumer, target, registered⟩ | ⟨target, producer, contribution, contributed⟩ := acts
    · rw [(Bank.entries_of_register registered).1]
      exact kept
    · exact (Bank.lookup_of_contribute contributed kept reflects.elsewhere).1
  refine ⟨owner.query.trans query, entry, held, found, keptNow, reflects, owner.worker ▸ current,
    fun consumed => ?_⟩
  rw [owner.worker]
  obtain before | ⟨same, located, asks⟩ := Bank.hasConsumer_of_acts acts consumed
  · exact (watched before).imp_right fun resolved => .inl (resolved.resolve_right False.elim)
  · cases kept.symm.trans located
    by_cases pending : held.state = .pending
    · have isOpen := reflects.openAt early pending
      exact .inr (.inr (asks reflects.elsewhere ((Entry.seenAt_of_openAt isOpen).symm ▸ pending)))
    · exact .inr (.inl pending)

theorem Follows.mono
    {others : WorkerId → Prop}
    (follows : Follows filter limit asking coordinator bank)
    (weakens : ∀ worker, asking worker → others worker) :
    Follows filter limit others coordinator bank := by
  obtain ⟨query, entry, held, found, kept, reflects, current, watched⟩ := follows
  exact ⟨query, entry, held, found, kept, reflects, current,
    fun consumed => (watched consumed).imp_right (Or.imp_right (weakens _))⟩

/-- A worker that asks the coordinator for a filter that it owns is subscribed. -/
theorem subscribed_receive
    {worker : WorkerId}
    {message : Message}
    (owns : coordinator.Owns filter offered limit)
    (query : message.query = coordinator.query)
    (asks : message.notice = .subscribe filter worker) :
    (filter, worker) ∈ (Coordinator.answer (Coordinator.receive now message) coordinator).2.subscribers := by
  obtain ⟨entry, _, found, _⟩ := owns
  have ends : (Coordinator.receive now message).Ends coordinator
      (fun _ after => (filter, worker) ∈ after.subscribers)
      fun _ after => (filter, worker) ∈ after.subscribers := by
    simp only [Coordinator.receive, Step.ends_bind, Step.ends_get, Step.ends_ite, asks]
    exact ⟨fun other => absurd query other, fun _ => Coordinator.subscribed_subscribe found⟩
  exact ends.state

end Follows

/-! ## The whole network -/

namespace Network

section Mirroring

variable {filter : FilterId} {limit : Nat} {offered : KeyFilter → Prop}
  {given : FilterId → KeyFilter → Prop} {cancels : Prop} {network before after : Network}
  {coordinator : Coordinator}

/-- Every bank follows the coordinator as far as a filter is concerned. -/
abbrev Mirrors
    (filter : FilterId)
    (offered : KeyFilter → Prop)
    (limit : Nat)
    (asking : WorkerId → Prop) :
    Network → Prop :=
  Linked (Coordinator.Owns filter offered limit) (Follows filter limit asking)

theorem Mirrors.commit
    {asking : WorkerId → Prop}
    {result : Mail × Coordinator}
    (mirrors : network.Mirrors filter offered limit asking)
    (joined : network.Joined)
    (there : network.coordinator = some coordinator)
    (early : network.clock ≤ limit)
    (announces : Coordinator.Announces filter (fun _ contribution => offered contribution) network.clock
      coordinator result.2 result.1)
    (answered : ∀ worker, asking worker → (filter, worker) ∈ result.2.subscribers) :
    (network.commit result).Mirrors filter offered limit (fun _ => False) := by
  refine Linked.commit mirrors joined there result
    (fun owns _ => show result.2.Owns filter offered limit from owns.announces announces)
    fun owns bank _ follows => ?_
  have goesOn := follows.announces owns announces early (answered bank.worker)
  exact ⟨goesOn.query, goesOn.entries⟩

/-- No change makes a bank fall behind. -/
theorem Turns.mirrors
    (turns : Turns given cancels before after)
    (mirrors : before.Mirrors filter offered limit (fun _ => False))
    (joined : before.Joined)
    (early : after.clock ≤ limit)
    (readable : ∀ contribution, Wire.WellFormed contribution → offered contribution)
    (known : ∀ contribution, given filter contribution → offered contribution) :
    after.Mirrors filter offered limit (fun _ => False) := by
  have earlier : before.clock ≤ limit := Nat.le_trans (turns.goesOn joined).2.1 early
  cases turns with
  | act position found acts =>
      have ⟨coordinator, there, _⟩ := mirrors
      refine Linked.setBank mirrors there found (fun _ follows => ?_) fun _ => id
      exact (follows.acts acts earlier).mono fun _ asks => nomatch asks
  | @send position bank after message coordinator failure found acts there =>
      have asked : (before.setBank position after).Mirrors filter offered limit
          (fun worker => some message = some (bank.message (.subscribe filter worker))) :=
        Linked.setBank mirrors there found (fun _ follows => follows.acts acts earlier)
          fun _ follows => follows.mono fun _ => False.elim
      have joinedNow := joined.setBank found (Bank.sameWorker_of_acts acts).worker
      obtain ⟨owns, links⟩ := Linked.of_coordinator mirrors there
      refine asked.commit joinedNow there earlier (Coordinator.answer_of_ends
        (Coordinator.announces_receive fun _ _ _ contribution _ decoded => ?_)) fun worker asks => ?_
      · exact readable contribution (Wire.decode_eq_ok_iff.mp (mapError_eq_ok_iff.mp decoded)).1
      · obtain rfl := Option.some.inj asks
        exact subscribed_receive owns (links position bank found).query rfl
  | update given there =>
      refine mirrors.commit joined there earlier
        (Coordinator.answer_of_ends (Coordinator.announces_update ?_)) fun _ => False.elim
      rintro rfl
      exact known _ given
  | disable there =>
      exact mirrors.commit joined there earlier
        (Coordinator.answer_of_ends Coordinator.announces_disable) fun _ => False.elim
  | cancel allowed there =>
      exact mirrors.commit joined there earlier (Coordinator.announces_cancel _) fun _ => False.elim
  | @fire coordinator event there =>
      rw [fire_eq_commit there] at early ⊢
      have joinedNow : ({ before with clock := max before.clock event.1 } : Network).Joined :=
        joined.of_bank? rfl
      have mirrorsNow : ({ before with clock := max before.clock event.1 } : Network).Mirrors filter
        offered limit (fun _ => False) := mirrors
      have clock := (joinedNow.hears_commit ({ coordinator with
        timer := coordinator.timer.erase event }.onDeadline (max before.clock event.1) event.2)).clock
      refine mirrorsNow.commit joinedNow there (clock ▸ early) ?_ fun _ => False.elim
      exact (Coordinator.announces_onDeadline _).of_same rfl rfl rfl
  | tick later => exact mirrors

theorem mirrors_of_run
    (run : Relation.ReflTransGen (Turns given cancels) before after)
    (mirrors : before.Mirrors filter offered limit (fun _ => False))
    (joined : before.Joined)
    (early : after.clock ≤ limit)
    (readable : ∀ contribution, Wire.WellFormed contribution → offered contribution)
    (known : ∀ contribution, given filter contribution → offered contribution) :
    after.Mirrors filter offered limit (fun _ => False) := by
  induction run with
  | refl => exact mirrors
  | tail run turns inductionHypothesis =>
      have joinedNow := (goesOn_of_run run joined).1
      have earlier := Nat.le_trans (turns.goesOn joinedNow).2.1 early
      exact turns.mirrors (inductionHypothesis earlier) joinedNow early readable known

/-! ## Parties that are opened -/

/-- At some moment nobody's deadline for the filter is over. -/
structure InTime (network : Network) (filter : FilterId) (moment : Nat) : Prop where
  coordinator : ∀ coordinator entry, network.coordinator = some coordinator →
    coordinator.entries.lookup filter = some entry → moment < entry.deadline
  banks : ∀ position bank entry, network.bank? position = some bank →
    bank.entries.lookup filter = some entry → moment < entry.deadline

/-- An entry that is opened in time is pending or disabled, as the mode says. -/
theorem state_startEntry
    {mode : FilterMode}
    {descriptor : FilterDescriptor}
    {since : Nat}
    (inTime : since < (Bank.startEntry mode since descriptor).deadline) :
    (Bank.startEntry mode since descriptor).state =
      if mode.allows descriptor then .pending else .disabled := by
  unfold Bank.startEntry at inTime ⊢
  dsimp only at inTime ⊢
  split
  · rfl
  · next excluded =>
    rw [if_neg excluded] at inTime
    have isOpen : (Entry.start descriptor since).OpenAt since := by
      refine ⟨rfl, ?_⟩
      cases disables : (Entry.start descriptor since).disable since with
      | ok entry =>
          rw [disables] at inTime
          exact (Entry.serves_disable disables).deadline ▸ inTime
      | error fault =>
          rw [disables] at inTime
          exact inTime
    exact (Entry.told_of_openAt isOpen rfl .disabled).2.2.2

theorem Opened.mirrors
    {query : QueryId}
    {mode : FilterMode}
    {descriptors : List FilterDescriptor}
    {descriptor : FilterDescriptor}
    (opened : network.Opened query mode descriptors)
    (member : descriptor ∈ descriptors)
    (elsewhere : descriptor.isLocal = false)
    (inTime : network.InTime descriptor.id limit)
    (early : network.clock ≤ limit) :
    network.Mirrors descriptor.id offered limit (fun _ => False) := by
  obtain ⟨coordinator, since, there, past, started⟩ := opened.coordinator
  simp only [Coordinator.start, bind_eq_ok_iff, pure_eq_ok_iff] at started
  obtain ⟨entries, started, rfl⟩ := started
  obtain ⟨distinct, opens⟩ := Coordinator.lookup_of_startEntries started
  have expected : ∀ other ∈ descriptors, 1 ≤ other.producers := fun other inside => (opens other inside).1
  have found := (opens descriptor member).2.2 elsewhere
  have lasts : limit < (Bank.startEntry mode since descriptor).deadline :=
    inTime.coordinator _ _ there found
  have fresh := Bank.fresh_startEntry (expected descriptor member) mode since
  refine ⟨_, there, ⟨_, [], found, lasts, fresh.collects, fun _ none => absurd none List.not_mem_nil⟩,
    fun position bank located => ?_⟩
  obtain ⟨sinceThen, pastThen, same⟩ := opened.banks position bank located
  have kept : bank.entries.lookup descriptor.id =
      some (Bank.startEntry mode sinceThen descriptor) := by
    rw [same]
    exact Bank.lookup_of_start distinct expected descriptor member
  have lastsThen := inTime.banks position bank _ located kept
  have freshThen := Bank.fresh_startEntry (expected descriptor member) mode sinceThen
  refine ⟨?_, _, _, found, kept, ?_, fun subscribed => absurd subscribed List.not_mem_nil, ?_⟩
  · rw [same]
    rfl
  · refine ⟨(congrArg FilterDescriptor.isLocal freshThen.descriptor).trans elsewhere,
      freshThen.collects.producers, lastsThen, .inr ?_⟩
    rw [state_startEntry (Nat.lt_of_le_of_lt (Nat.le_trans pastThen early) lastsThen),
      state_startEntry (Nat.lt_of_le_of_lt (Nat.le_trans past early) lasts)]
    split <;> rfl
  · intro consumed
    rw [same] at consumed
    cases consumed

end Mirroring

/-! ## Banks after any calls -/

/-- How far a filter has come as the coordinator sees it now. -/
def coordinatorState (network : Network) (filter : FilterId) : Option FilterState :=
  network.coordinator.bind fun coordinator => coordinator.entries.seen? network.clock filter

/-- How far a filter has come as a bank sees it now. -/
def bankState (network : Network) (position : Nat) (filter : FilterId) : Option FilterState :=
  (network.bank? position).bind fun bank => bank.entries.seen? network.clock filter

/-- Whether a bank has a consumer of a filter. -/
def hasConsumer (network : Network) (position : Nat) (filter : FilterId) : Bool :=
  (network.bank? position).any fun bank => bank.hasConsumer filter

/-- How the banks see a filter after calls. -/
structure Mirrored (opened : Network) (calls : List Call) (filter : FilterId) : Prop where
  /-- The coordinator owns the filter. -/
  known : ((opened.after calls).coordinatorState filter).isSome
  /-- Every bank with a consumer is where the coordinator is, with the same filter if it has arrived. -/
  same : ∀ position, (opened.after calls).hasConsumer position filter = true →
    (opened.after calls).bankState position filter = (opened.after calls).coordinatorState filter

section Banks

variable {query : QueryId} {mode : FilterMode} {descriptors : List FilterDescriptor}
  {descriptor : FilterDescriptor} {opened : Network} {calls : List Call}

/-- The coordinator owns the filter, for which it has accepted what came in messages and what it was handed
directly, and every bank with a consumer of the filter knows what a message can tell of it. -/
theorem exists_entry_of_calls
    (start : opened.Opened query mode descriptors)
    (member : descriptor ∈ descriptors)
    (elsewhere : descriptor.isLocal = false)
    (inTime : opened.InTime descriptor.id (opened.after calls).clock) :
    ∃ (entry : Entry) (accepted : List (ProducerId × KeyFilter)),
      (opened.after calls).coordinatorState descriptor.id = some entry.state ∧
      entry.Collects accepted [] ∧
      (∀ part ∈ accepted, Wire.WellFormed part.2 ∨
        ∃ producer, .update descriptor.id producer part.2 ∈ calls) ∧
      ∀ position, (opened.after calls).hasConsumer position descriptor.id = true →
        (opened.after calls).bankState position descriptor.id = some entry.state.asTold := by
  obtain ⟨first, _, there, _⟩ := start.coordinator
  have run : Relation.ReflTransGen
      (Turns (fun filter contribution => ∃ producer, .update filter producer contribution ∈ calls) True)
      opened (opened.after calls) :=
    run_after start.joined (Option.isSome_iff_exists.mpr ⟨first, there⟩)
      (fun _ producer _ handed => ⟨producer, handed⟩) fun _ => trivial
  have forward := (goesOn_of_run run start.joined).2.1
  have mirrors : (opened.after calls).Mirrors descriptor.id
      (fun contribution => Wire.WellFormed contribution ∨
        ∃ producer, .update descriptor.id producer contribution ∈ calls)
      (opened.after calls).clock (fun _ => False) :=
    mirrors_of_run run (start.mirrors member elsewhere inTime forward) start.joined (Nat.le_refl _)
      (fun _ => .inl) fun _ => .inr
  obtain ⟨coordinator, here, ⟨entry, accepted, found, lasts, collects, offered⟩, follows⟩ := mirrors
  have seen : (opened.after calls).coordinatorState descriptor.id = some entry.state := by
    rw [coordinatorState, here, Option.bind_some, Entries.seen?, found, Option.map_some,
      Entry.state_seenAt_of_lt lasts]
  refine ⟨entry, accepted, seen, collects, offered, fun position consumed => ?_⟩
  obtain ⟨bank, located, consumes⟩ := (Option.any_eq_true _ _).mp consumed
  obtain ⟨_, other, held, looked, kept, reflects, current, watched⟩ := follows position bank located
  cases found.symm.trans looked
  have seenThere : (opened.after calls).bankState position descriptor.id = some held.state := by
    rw [bankState, located, Option.bind_some, Entries.seen?, kept, Option.map_some,
      Entry.state_seenAt_of_lt reflects.inTime]
  have told : held.state = entry.state.asTold :=
    (watched consumes).elim current fun resolved =>
      reflects.behind.resolve_left (resolved.resolve_right id)
  rw [seenThere, told]

/-- Whatever is called in whatever order, a bank with a consumer of a filter sees it as the coordinator
does, as long as no deadline for the filter is over and the coordinator is handed directly only what a
message can carry: no directory of more than `2 ^ 28` buckets and no key of `2 ^ 32` bytes. -/
theorem mirrored_of_calls
    (start : opened.Opened query mode descriptors)
    (member : descriptor ∈ descriptors)
    (elsewhere : descriptor.isLocal = false)
    (inTime : opened.InTime descriptor.id (opened.after calls).clock)
    (carried : ∀ producer contribution, .update descriptor.id producer contribution ∈ calls →
      Wire.WellFormed contribution) :
    opened.Mirrored calls descriptor.id := by
  obtain ⟨entry, accepted, seen, collects, offered, told⟩ :=
    exists_entry_of_calls start member elsewhere inTime
  refine ⟨by rw [seen]; rfl, fun position consumed => ?_⟩
  rw [told position consumed, seen, FilterState.asTold_eq fun merged arrived => ?_]
  obtain ⟨_, merges⟩ := (collects.arrived merged arrived).resolve_right List.not_mem_nil
  refine Wire.wellFormed_mergeAll (fun contribution inside => ?_) merges
  obtain ⟨part, accepts, rfl⟩ := List.mem_map.mp inside
  exact (offered part accepts).elim id fun ⟨producer, given⟩ => carried producer part.2 given

end Banks

theorem inTime_sampleNetwork : sampleNetwork.InTime ⟨7⟩ 50 where
  coordinator _ _ there found := by
    cases there
    cases found
    decide
  banks position bank entry there found := by
    have late : ∀ post ∈ sampleNetwork.posts.toList, ∀ entry ∈ post.bank.entries, 50 < entry.deadline := by
      decide
    obtain ⟨post, placed, rfl⟩ := Option.map_eq_some_iff.mp there
    exact late post (Array.mem_toList_iff.mpr (Array.mem_of_getElem? placed)) entry
      (List.mem_of_find?_eq_some found)

/-- The first worker subscribes before anybody contributes, and the second one when all have. -/
def mirroredCalls : List Call :=
  [.register 0 ⟨3⟩ ⟨7⟩, .contribute 1 ⟨7⟩ ⟨1⟩ (.range .empty), .contribute 1 ⟨7⟩ ⟨1⟩ (.range .empty),
    .pass 50, .update ⟨7⟩ ⟨2⟩ (.range .empty), .disable ⟨7⟩, .register 1 ⟨4⟩ ⟨7⟩]

theorem mirrored_of_mirroredCalls :
    (∀ producer contribution, .update ⟨7⟩ producer contribution ∈ mirroredCalls →
        Wire.WellFormed contribution) ∧
      sampleNetwork.Mirrored mirroredCalls ⟨7⟩ ∧
      (sampleNetwork.after mirroredCalls).coordinatorState ⟨7⟩ = some (.arrived (.range .empty)) ∧
      (sampleNetwork.after mirroredCalls).bankState 0 ⟨7⟩ = some (.arrived (.range .empty)) ∧
      (sampleNetwork.after mirroredCalls).bankState 1 ⟨7⟩ = some (.arrived (.range .empty)) := by
  have clock : (sampleNetwork.after mirroredCalls).clock = 50 := by decide
  have carried : ∀ producer contribution, .update ⟨7⟩ producer contribution ∈ mirroredCalls →
      Wire.WellFormed contribution := by
    intro producer contribution given
    obtain ⟨-, rfl⟩ : producer = ⟨2⟩ ∧ contribution = .range .empty := by
      simpa [mirroredCalls] using given
    exact fun _ _ bounds => nomatch bounds
  exact ⟨carried, mirrored_of_calls opened_sampleNetwork List.mem_cons_self rfl
    (clock ▸ inTime_sampleNetwork) carried, by decide, by decide, by decide⟩

/-! What no message can carry does not arrive. -/

/-- A text of so many bytes. -/
def textOf (bytes : Nat) : String :=
  String.ofList (List.replicate bytes 'a')

/-- The range of one key, a text of so many bytes. -/
def rangeOf (bytes : Nat) : KeyFilter :=
  .range (.between (.text (textOf bytes)) (.text (textOf bytes)) rfl (Key.le_refl _))

theorem not_wellFormed_rangeOf
    {bytes : Nat}
    (long : 2 ^ 32 ≤ bytes) :
    ¬ Wire.WellFormed (rangeOf bytes) := by
  intro fits
  have short : (Text.encodeUtf8 (textOf bytes)).length < 2 ^ 32 := (fits _ _ rfl).2.2.1
  have length : (Text.encodeUtf8 (textOf bytes)).length = bytes := by
    simp [Text.encodeUtf8, textOf, Text.utf8Char, List.length_flatMap]
  omega

/-- The first worker has a consumer, and the coordinator is handed such a range directly. -/
def rangeCalls (bytes : Nat) : List Call :=
  [.register 0 ⟨3⟩ ⟨7⟩, .update ⟨7⟩ ⟨1⟩ (rangeOf bytes), .update ⟨7⟩ ⟨2⟩ (.range .empty)]

/-- The network after the consumer was registered. -/
def consumed : Network :=
  sampleNetwork.after [.register 0 ⟨3⟩ ⟨7⟩]

/-- The coordinator after it was also handed the range. -/
def handed (bytes : Nat) : Coordinator :=
  (Coordinator.answer (Coordinator.update 5 ⟨7⟩ ⟨1⟩ (rangeOf bytes))
    (consumed.coordinator.getD Cluster.sampleOpened.coordinator)).2

/-- What it does when the other producer has nothing to add. -/
def resolved (bytes : Nat) : Mail × Coordinator :=
  Coordinator.answer (Coordinator.update 5 ⟨7⟩ ⟨2⟩ (.range .empty)) (handed bytes)

theorem after_rangeCalls (bytes : Nat) :
    sampleNetwork.after (rangeCalls bytes) =
      ({ consumed with coordinator := some (handed bytes) } : Network).commit (resolved bytes) :=
  Eq.refl _

/-- The range arrives at the coordinator, and no bank hears of it. So a bank with a consumer still waits. -/
theorem not_mirrored_of_long
    {bytes : Nat}
    (long : 2 ^ 32 ≤ bytes) :
    sampleNetwork.InTime ⟨7⟩ (sampleNetwork.after (rangeCalls bytes)).clock ∧
      ¬ sampleNetwork.Mirrored (rangeCalls bytes) ⟨7⟩ := by
  have run : Relation.ReflTransGen (Turns (fun _ _ => True) True) sampleNetwork consumed :=
    run_after opened_sampleNetwork.joined rfl (fun _ _ _ _ => trivial) fun _ => trivial
  have joined : ({ consumed with coordinator := some (handed bytes) } : Network).Joined :=
    (goesOn_of_run run opened_sampleNetwork.joined).1.of_bank? rfl
  have hears := joined.hears_commit (resolved bytes)
  rw [← after_rangeCalls] at hears
  have clock : (sampleNetwork.after (rangeCalls bytes)).clock = 5 := hears.clock
  have inTime : sampleNetwork.InTime ⟨7⟩ (sampleNetwork.after (rangeCalls bytes)).clock := by
    obtain ⟨coordinator, banks⟩ := inTime_sampleNetwork
    rw [clock]
    exact ⟨fun _ entry there found => by have := coordinator _ entry there found; omega,
      fun position _ entry there found => by have := banks position _ entry there found; omega⟩
  have arrived : (sampleNetwork.after (rangeCalls bytes)).coordinatorState ⟨7⟩ =
      some (.arrived (rangeOf bytes)) := by
    obtain ⟨failures, coordinator⟩ := hears.coordinator
    rw [coordinatorState, coordinator, clock]
    rfl
  have consumes : (sampleNetwork.after (rangeCalls bytes)).hasConsumer 0 ⟨7⟩ = true := by
    rw [hasConsumer, hears.banks, Option.any_map]
    exact congrArg (fun consumers => consumers.any fun entry => entry.1 = ⟨7⟩)
      (Bank.sameOwner_hearAll _ _ _).consumers
  refine ⟨inTime, fun mirrored => ?_⟩
  obtain ⟨entry, _, seen, _, _, told⟩ :=
    exists_entry_of_calls opened_sampleNetwork List.mem_cons_self rfl inTime
  have state : entry.state = .arrived (rangeOf bytes) := Option.some.inj (seen.symm.trans arrived)
  have waits := told 0 consumes
  rw [state, FilterState.asTold_of_unfit (not_wellFormed_rangeOf long)] at waits
  have same := mirrored.same 0 consumes
  rw [arrived] at same
  cases waits.symm.trans same

theorem not_mirrored_rangeCalls :
    sampleNetwork.Opened ⟨1, 2⟩ .everywhere [Cluster.sampleDescriptor] ∧
      Cluster.sampleDescriptor.isLocal = false ∧
      sampleNetwork.InTime ⟨7⟩ (sampleNetwork.after (rangeCalls (2 ^ 32))).clock ∧
      ¬ sampleNetwork.Mirrored (rangeCalls (2 ^ 32)) ⟨7⟩ :=
  ⟨opened_sampleNetwork, rfl, not_mirrored_of_long (Nat.le_refl _)⟩

end Network

end Spillway
