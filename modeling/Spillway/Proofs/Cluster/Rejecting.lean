import Spillway.Proofs.Cluster.Histories
import Spillway.Proofs.Filter.Canonical
import Spillway.Proofs.Filter.Semilattice

/-!
# A contribution that is rejected costs nothing

A contribution may be unreadable, of the wrong kind, or apart from what was merged so far. In all three
cases it is rejected before it has changed anything, though the merge of an entry is made in place. The
producer may contribute again, and nothing that happens afterwards depends on what was rejected.
-/

namespace Spillway

theorem FilterFault.code_status (fault : FilterFault) : fault.status.code = .invalidArgument := by
  cases fault <;> rfl

namespace Entry

/-! ## Merging in place -/

/-- Merges a contribution into what was merged so far. -/
def absorb (contribution : KeyFilter) : Step Entry Unit := fun entry =>
  match entry.aggregate with
  | none => (.ok (), { entry with aggregate := some contribution })
  | some aggregate =>
    let (result, aggregate) := (KeyFilter.absorb contribution).outcome aggregate
    (result, { entry with aggregate := some aggregate })

/-- Offers the contribution of a producer to an entry that is changed step by step. -/
def offer (now : Nat) (producer : ProducerId) (contribution : KeyFilter) :
    Step Entry MergeOutcome := do
  let entry ← get
  if contribution.kind ≠ entry.descriptor.kind then
    Step.fail (EntryFault.wrongKind entry.id entry.descriptor.kind contribution.kind).status
  else
    modify fun entry => entry.seenAt now
    let entry ← get
    if entry.state.isResolved then
      modify fun entry => { entry with late := entry.late + 1 }
      return .late entry.state
    else if entry.producers.contains producer then return .duplicate
    else
      absorb contribution
      modify fun entry =>
        { entry with
          producers := entry.producers ++ [producer]
          outstanding := entry.outstanding - 1 }
      let entry ← get
      if 0 < entry.outstanding then return .merged entry.outstanding
      else
        match entry.aggregate with
        | none => Step.fail (.internal "runtime filter completed without payload")
        | some merged =>
          set { entry with aggregate := none, state := .arrived merged }
          return .completed merged

theorem outcome_absorb
    (entry : Entry)
    (contribution : KeyFilter) :
    (absorb contribution).outcome entry =
      match KeyFilter.mergeInto entry.aggregate contribution with
      | .ok merged => (.ok (), { entry with aggregate := some merged })
      | .error fault => (.error fault.status, entry) := by
  show absorb contribution entry = _
  unfold absorb KeyFilter.mergeInto
  cases held : entry.aggregate with
  | none => rfl
  | some aggregate =>
      have same : { entry with aggregate := some aggregate } = entry := by
        rw [← held]
      dsimp only
      rw [KeyFilter.outcome_absorb]
      cases aggregate.merge contribution with
      | ok merged => rfl
      | error fault => exact congrArg (Prod.mk (Except.error fault.status)) same

theorem ends_absorb
    {entry : Entry}
    {contribution : KeyFilter}
    {ok : Unit → Entry → Prop}
    {failed : Status → Entry → Prop} :
    (absorb contribution).Ends entry ok failed ↔
      (∀ merged, KeyFilter.mergeInto entry.aggregate contribution = .ok merged →
          ok () { entry with aggregate := some merged }) ∧
        ∀ fault, KeyFilter.mergeInto entry.aggregate contribution = .error fault →
          failed fault.status entry := by
  unfold Step.Ends
  rw [outcome_absorb]
  cases KeyFilter.mergeInto entry.aggregate contribution <;> simp

theorem id_accept
    (entry : Entry)
    (producer : ProducerId)
    (merged : KeyFilter) :
    (entry.accept producer merged).2.id = entry.id := by
  unfold accept
  dsimp only
  split <;> rfl

/-- An entry that is changed step by step is left as one that is replaced as a whole, and unchanged if
the contribution is refused. -/
theorem outcome_offer
    (entry : Entry)
    (now : Nat)
    (producer : ProducerId)
    (contribution : KeyFilter) :
    (offer now producer contribution).outcome entry =
      match entry.merge now producer contribution with
      | .ok result => (.ok result.1, result.2)
      | .error fault => (.error fault.status, entry) := by
  rw [Step.outcome_eq_iff_ends]
  simp only [offer, Step.ends_bind, Step.ends_get, Step.ends_ite, Step.ends_fail, Step.ends_modify,
    Step.ends_pure]
  constructor
  · intro different
    rw [merge, if_pos different]
  · intro kind
    have kind := not_not.mp kind
    constructor
    · intro resolved
      rw [merge_of_resolved (isResolved_iff.mp resolved) kind]
    · intro pending
      have isOpen : entry.OpenAt now := by
        obtain isOpen | settled | ⟨_, due⟩ := entry.seenAt_cases now
        · exact isOpen
        · rw [seenAt_of_resolved settled] at pending
          exact absurd (isResolved_iff.mpr settled) pending
        · rw [due] at pending
          exact absurd rfl pending
      rw [seenAt_of_openAt isOpen]
      constructor
      · intro known
        rw [merge_of_known isOpen kind (List.contains_iff_mem.mp known)]
      · intro fresh
        rw [merge_of_openAt isOpen kind fun known => fresh (List.contains_iff_mem.mpr known),
          ends_absorb]
        constructor
        · intro merged unites
          rw [unites]
          constructor
          · intro missing
            show _ = (Except.ok (entry.accept producer merged).1, (entry.accept producer merged).2)
            rw [accept_of_missing entry producer merged missing]
          · intro last
            show _ = (Except.ok (entry.accept producer merged).1, (entry.accept producer merged).2)
            rw [accept_of_last entry producer merged last]
        · intro fault refused
          rw [refused]
          rfl

end Entry

/-! ## What is offered -/

/-- What a coordinator is offered for a filter: a contribution, or a message that holds one. -/
inductive Offer where
  | direct (producer : ProducerId) (contribution : KeyFilter)
  | posted (worker : WorkerId) (producer : ProducerId) (payload : List UInt8)

namespace Offer

/-- Whose contribution it is. -/
def producer : Offer → ProducerId
  | direct producer _ => producer
  | posted _ producer _ => producer

/-- The contribution, if it can be read. -/
def content : Offer → Except Status KeyFilter
  | direct _ contribution => .ok contribution
  | posted _ _ payload => decodePayload payload

/-- The offer is made to the coordinator of a query. -/
def call (offer : Offer) (query : QueryId) (now : Nat) (filter : FilterId) : Step Coordinator Mail :=
  match offer with
  | direct producer contribution => Coordinator.update now filter producer contribution
  | posted worker producer payload =>
    Coordinator.receive now ⟨query, .contribution filter worker producer payload⟩

/-- Why an entry cannot merge what is offered. -/
inductive Unfit (entry : Entry) (offer : Offer) : Prop
  | unreadable
    {status : Status}
    (illegible : offer.content = .error status)
  | kind
    {contribution : KeyFilter}
    (holds : offer.content = .ok contribution)
    (different : contribution.kind ≠ entry.descriptor.kind)
  | apart
    {contribution aggregate : KeyFilter}
    (holds : offer.content = .ok contribution)
    (merged : entry.aggregate = some aggregate)
    (clash : aggregate.Clash contribution)

variable {offer : Offer} {entry : Entry} {now : Nat}

theorem code_of_illegible
    {status : Status}
    (illegible : offer.content = .error status) :
    status.code = .invalidArgument := by
  cases offer with
  | direct producer contribution => cases illegible
  | posted worker producer payload =>
      rw [content, decodePayload] at illegible
      cases read : Wire.decode payload with
      | ok contribution =>
          rw [read] at illegible
          cases illegible
      | error fault =>
          rw [read] at illegible
          cases illegible
          exact Wire.code_status fault

/-- What is fit can be merged. -/
theorem exists_mergeInto_of_fit (fit : ¬ offer.Unfit entry) :
    ∃ contribution merged, offer.content = .ok contribution ∧
      contribution.kind = entry.descriptor.kind ∧
        KeyFilter.mergeInto entry.aggregate contribution = .ok merged := by
  cases holds : offer.content with
  | error status => exact absurd (.unreadable holds) fit
  | ok contribution =>
      have kind : contribution.kind = entry.descriptor.kind := by
        by_contra different
        exact fit (.kind holds different)
      cases held : entry.aggregate with
      | none => exact ⟨contribution, contribution, rfl, kind, rfl⟩
      | some aggregate =>
          have united : aggregate.union? contribution ≠ none := fun none =>
            fit (.apart holds held ((aggregate.union?_eq_none_iff contribution).mp none))
          obtain ⟨merged, unites⟩ := Option.ne_none_iff_exists'.mp united
          exact ⟨contribution, merged, rfl, kind, KeyFilter.merge_eq_ok_iff.mpr unites⟩

/-- What is unfit is refused by the entry, if it can be read at all. -/
theorem merge_of_unfit
    {contribution : KeyFilter}
    (unfit : offer.Unfit entry)
    (isOpen : entry.OpenAt now)
    (fresh : offer.producer ∉ entry.producers)
    (holds : offer.content = .ok contribution) :
    ∃ fault, entry.merge now offer.producer contribution = .error fault ∧
      fault.status.code = .invalidArgument := by
  by_cases kind : contribution.kind = entry.descriptor.kind
  · rw [Entry.merge_of_openAt isOpen kind fresh]
    cases unfit with
    | unreadable illegible => cases illegible.symm.trans holds
    | kind other different =>
        cases other.symm.trans holds
        exact absurd kind different
    | @apart other aggregate read merged clash =>
        cases read.symm.trans holds
        obtain ⟨fault, refused⟩ := KeyFilter.exists_merge_eq_error_iff.mpr
          ((aggregate.union?_eq_none_iff contribution).mpr clash)
        rw [merged, KeyFilter.mergeInto, refused]
        exact ⟨.merge fault, rfl, fault.code_status⟩
  · refine ⟨.wrongKind entry.id entry.descriptor.kind contribution.kind, ?_, rfl⟩
    rw [Entry.merge, if_pos kind]

end Offer
namespace Coordinator

/-! ## Coordinators that have noted different things -/

/-- What mail tells of filters. -/
def tidings (mail : Mail) : Mail :=
  mail.filter fun letter => letter.2.notice ≠ .cancel

/-- The coordinators differ at most in the workers that they know and in what they have counted. -/
def Alike (coordinator other : Coordinator) : Prop :=
  ∃ workers stats, other = { coordinator with workers, stats }

variable {now : Nat} {filter : FilterId}

section Alike

variable {coordinator other : Coordinator}

theorem Alike.entries (alike : coordinator.Alike other) : other.entries = coordinator.entries := by
  obtain ⟨workers, stats, rfl⟩ := alike
  rfl

theorem Alike.received (alike : coordinator.Alike other) : coordinator.Alike other.received := by
  obtain ⟨workers, stats, rfl⟩ := alike
  exact ⟨_, _, rfl⟩

end Alike

theorem outcome_update_of_merge
    {coordinator : Coordinator}
    {entry : Entry}
    {producer : ProducerId}
    {contribution : KeyFilter}
    {result : MergeOutcome × Entry}
    (found : coordinator.entries.lookup filter = some entry)
    (merges : entry.merge now producer contribution = .ok result) :
    (update now filter producer contribution).outcome coordinator =
      (.ok ((coordinator.received.setEntry result.2).settle filter result.1).1,
        ((coordinator.received.setEntry result.2).settle filter result.1).2) := by
  rw [outcome_update, entry_of_lookup found]
  dsimp only
  rw [merges]

theorem entries_settle
    (coordinator : Coordinator)
    (filter : FilterId)
    (outcome : MergeOutcome) :
    (coordinator.settle filter outcome).2.entries = coordinator.entries := by
  cases outcome <;> rfl

/-- The call comes to the same at coordinators that are alike, and leaves them alike. -/
def Overlooks (call : Step Coordinator Mail) : Prop :=
  ∀ coordinator other, coordinator.Alike other →
    (call.outcome coordinator).1 = (call.outcome other).1 ∧
      (call.outcome coordinator).2.Alike (call.outcome other).2

theorem overlooks_update
    (producer : ProducerId)
    (contribution : KeyFilter) :
    Overlooks (update now filter producer contribution) := by
  rintro coordinator _ ⟨workers, stats, rfl⟩
  have same : ({ coordinator with workers, stats } : Coordinator).entry filter =
      coordinator.entry filter := rfl
  rw [outcome_update, outcome_update, same]
  cases coordinator.entry filter with
  | error status => exact ⟨rfl, _, _, rfl⟩
  | ok entry =>
      dsimp only
      cases entry.merge now producer contribution with
      | error fault => exact ⟨rfl, _, _, rfl⟩
      | ok result =>
          obtain ⟨outcome, next⟩ := result
          cases outcome with
          | merged | completed | duplicate | late => exact ⟨rfl, _, _, rfl⟩

theorem overlooks_disable : Overlooks (disable now filter) := by
  rintro coordinator _ ⟨workers, stats, rfl⟩
  have same : ({ coordinator with workers, stats } : Coordinator).entry filter =
      coordinator.entry filter := rfl
  rw [outcome_disable, outcome_disable, same]
  cases coordinator.entry filter with
  | error status => exact ⟨rfl, _, _, rfl⟩
  | ok entry =>
      dsimp only
      cases entry.disable now with
      | error fault => exact ⟨rfl, _, _, rfl⟩
      | ok next => exact ⟨rfl, _, _, rfl⟩

theorem overlooks_subscribe (worker : WorkerId) : Overlooks (subscribe now filter worker) := by
  rintro coordinator _ ⟨workers, stats, rfl⟩
  have same : ({ coordinator with workers, stats } : Coordinator).entry filter =
      coordinator.entry filter := rfl
  rw [outcome_subscribe, outcome_subscribe, same]
  cases coordinator.entry filter with
  | error status => exact ⟨rfl, _, _, rfl⟩
  | ok entry =>
      dsimp only
      split
      · exact ⟨rfl, _, _, rfl⟩
      · exact ⟨rfl, _, _, rfl⟩

theorem overlooks_receive (message : Message) : Overlooks (receive now message) := by
  rintro coordinator _ ⟨workers, stats, rfl⟩
  rw [outcome_receive, outcome_receive]
  dsimp only
  split
  · exact ⟨rfl, _, _, rfl⟩
  · split
    · split
      · exact overlooks_update _ _ _ _ ⟨_, _, rfl⟩
      · exact ⟨rfl, _, _, rfl⟩
    · exact overlooks_subscribe _ _ _ ⟨_, _, rfl⟩
    · exact ⟨rfl, _, _, rfl⟩

theorem Overlooks.answer
    {call : Step Coordinator Mail}
    {coordinator other : Coordinator}
    (overlooks : Overlooks call)
    (alike : coordinator.Alike other) :
    tidings (answer call coordinator).1 = tidings (answer call other).1 ∧
      (answer call coordinator).2.Alike (answer call other).2 := by
  obtain ⟨same, left⟩ := overlooks coordinator other alike
  refine ⟨?_, left⟩
  show tidings ((call.outcome coordinator).1.toOption.getD []) = _
  rw [same]
  rfl

theorem Alike.look
    {coordinator other : Coordinator}
    (alike : coordinator.Alike other) :
    (coordinator.look now filter).Alike (other.look now filter) := by
  obtain ⟨workers, stats, rfl⟩ := alike
  unfold Coordinator.look
  dsimp only
  cases coordinator.entries.lookup filter with
  | none => exact ⟨_, _, rfl⟩
  | some entry => exact ⟨_, _, rfl⟩

theorem Alike.onDeadline
    {coordinator other : Coordinator}
    (alike : coordinator.Alike other) :
    (coordinator.onDeadline now filter).1 = (other.onDeadline now filter).1 ∧
      (coordinator.onDeadline now filter).2.Alike (other.onDeadline now filter).2 := by
  obtain ⟨workers, stats, rfl⟩ := alike
  unfold Coordinator.onDeadline
  dsimp only
  cases coordinator.entries.lookup filter with
  | none => exact ⟨rfl, _, _, rfl⟩
  | some entry =>
      dsimp only
      split
      · exact ⟨rfl, _, _, rfl⟩
      · exact ⟨rfl, _, _, rfl⟩

/-- Different workers are told of the end of the query, but nobody is told of a filter. -/
theorem Alike.cancel
    {coordinator other : Coordinator}
    (alike : coordinator.Alike other) :
    tidings coordinator.cancel.1 = tidings other.cancel.1 ∧
      coordinator.cancel.2.Alike other.cancel.2 := by
  obtain ⟨workers, stats, rfl⟩ := alike
  unfold Coordinator.cancel
  dsimp only
  split
  · exact ⟨rfl, _, _, rfl⟩
  · have silent : ∀ workers : List WorkerId,
        tidings (workers.map fun worker => (worker, coordinator.message .cancel)) = [] := by
      intro workers
      apply List.filter_eq_nil_iff.mpr
      intro letter member
      obtain ⟨worker, _, rfl⟩ := List.mem_map.mp member
      simp [message]
    exact ⟨(silent coordinator.workers).trans (silent workers).symm, _, _, rfl⟩

/-- Whatever happens to coordinators that are alike, the same is told of filters. -/
theorem Alike.occur
    {coordinator other : Coordinator}
    (alike : coordinator.Alike other)
    (event : Event) :
    tidings (coordinator.occur event).1 = tidings (other.occur event).1 ∧
      (coordinator.occur event).2.Alike (other.occur event).2 := by
  cases event with
  | call call =>
      obtain ⟨now, request⟩ := call
      cases request with
      | subscribe filter worker => exact (overlooks_subscribe worker).answer alike
      | update filter producer contribution =>
          exact (overlooks_update producer contribution).answer alike
      | disable filter => exact overlooks_disable.answer alike
      | receive message => exact (overlooks_receive message).answer alike
      | look filter => exact ⟨rfl, alike.look⟩
      | expire filter => exact alike.onDeadline.imp_left (congrArg tidings)
  | cancel => exact alike.cancel
  | close =>
      obtain ⟨workers, stats, rfl⟩ := alike
      exact ⟨rfl, _, _, rfl⟩
  | undelivered count =>
      obtain ⟨workers, stats, rfl⟩ := alike
      exact ⟨rfl, _, _, rfl⟩

theorem Alike.through
    {coordinator other : Coordinator}
    (alike : coordinator.Alike other)
    (events : List Event) :
    tidings (coordinator.mailed events) = tidings (other.mailed events) ∧
      (coordinator.through events).Alike (other.through events) := by
  induction events generalizing coordinator other with
  | nil => exact ⟨rfl, alike⟩
  | cons event events inductionHypothesis =>
      obtain ⟨now, left⟩ := alike.occur event
      obtain ⟨later, last⟩ := inductionHypothesis left
      refine ⟨?_, last⟩
      simp only [mailed, tidings, List.filter_append] at now later ⊢
      rw [now, later]

/-! ## What a rejection leaves behind -/

section Offers

variable {coordinator : Coordinator} {entry : Entry} {offer : Offer}

/-- Whoever sends a message is noted; apart from that it does not matter how a contribution comes. -/
theorem outcome_call
    (coordinator : Coordinator)
    (now : Nat)
    (filter : FilterId)
    (offer : Offer) :
    ∃ base, coordinator.Alike base ∧
      (offer.call coordinator.query now filter).outcome coordinator =
        match offer.content with
        | .ok contribution => (update now filter offer.producer contribution).outcome base
        | .error status => (.error status, base) := by
  cases offer with
  | direct producer contribution => exact ⟨coordinator, ⟨_, _, rfl⟩, rfl⟩
  | posted worker producer payload =>
      refine ⟨coordinator.note worker, ⟨_, _, rfl⟩, ?_⟩
      rw [Offer.call, outcome_receive, if_neg (not_not.mpr rfl)]
      rfl

/-- What is offered is rejected if it is unfit, and only what is noted and counted changes. -/
theorem rejected_of_unfit
    (found : coordinator.entries.lookup filter = some entry)
    (isOpen : entry.OpenAt now)
    (fresh : offer.producer ∉ entry.producers)
    (unfit : offer.Unfit entry) :
    ∃ status, ((offer.call coordinator.query now filter).outcome coordinator).1 = .error status ∧
      status.code = .invalidArgument ∧
        coordinator.Alike ((offer.call coordinator.query now filter).outcome coordinator).2 := by
  obtain ⟨base, alike, outcome⟩ := coordinator.outcome_call now filter offer
  rw [outcome]
  cases holds : offer.content with
  | error status => exact ⟨status, rfl, Offer.code_of_illegible holds, alike⟩
  | ok contribution =>
      obtain ⟨fault, refused, code⟩ := Offer.merge_of_unfit unfit isOpen fresh holds
      have known : base.entry filter = .ok entry := entry_of_lookup (alike.entries ▸ found)
      dsimp only
      rw [outcome_update, known]
      dsimp only
      rw [refused]
      exact ⟨fault.status, rfl, code, alike.received⟩

/-- What is offered is merged into the entry of the filter, and its producer is counted. -/
def Accepts
    (coordinator : Coordinator)
    (now : Nat)
    (filter : FilterId)
    (entry : Entry)
    (offer : Offer) :
    Prop :=
  ∃ contribution merged mail after, offer.content = .ok contribution ∧
    KeyFilter.mergeInto entry.aggregate contribution = .ok merged ∧
      (offer.call coordinator.query now filter).outcome coordinator = (.ok mail, after) ∧
        after.entries.lookup filter = some (entry.accept offer.producer merged).2

/-- What is fit is accepted. -/
theorem accepts_of_fit
    (found : coordinator.entries.lookup filter = some entry)
    (isOpen : entry.OpenAt now)
    (fresh : offer.producer ∉ entry.producers)
    (fit : ¬ offer.Unfit entry) :
    coordinator.Accepts now filter entry offer := by
  obtain ⟨contribution, merged, holds, kind, merges⟩ := Offer.exists_mergeInto_of_fit fit
  obtain ⟨base, alike, outcome⟩ := coordinator.outcome_call now filter offer
  have found : base.entries.lookup filter = some entry := alike.entries ▸ found
  have accepts : entry.merge now offer.producer contribution =
      .ok (entry.accept offer.producer merged) := by
    rw [Entry.merge_of_openAt isOpen kind fresh, merges]
    rfl
  rw [holds] at outcome
  refine ⟨contribution, merged, _, _, holds, merges,
    outcome.trans (outcome_update_of_merge found accepts), ?_⟩
  rw [entries_settle]
  exact Entries.lookup_update_of_lookup found (entry.id_accept offer.producer merged)

/-- What becomes of a filter to which something unfit is offered. -/
structure CostsNothing
    (coordinator : Coordinator)
    (filter : FilterId)
    (entry : Entry)
    (now : Nat)
    (offer : Offer)
    (rejected : Coordinator) :
    Prop where
  /-- The call fails: the argument is invalid. -/
  refused : ∃ status,
    (offer.call coordinator.query now filter).outcome coordinator = (.error status, rejected) ∧
      status.code = .invalidArgument
  /-- All entries are as they were before. -/
  entries : rejected.entries = coordinator.entries
  /-- So is an entry that is changed step by step. -/
  inPlace : ∀ contribution, offer.content = .ok contribution →
    ∃ status, (Entry.offer now offer.producer contribution).outcome entry = (.error status, entry) ∧
      status.code = .invalidArgument
  /-- Whatever happens next, as long as the entry is open and has not counted the producer, what is
  offered by it and fit is merged and counted. -/
  again : ∀ (events : List Event) (later : Nat) (another : Offer) (current : Entry),
    another.producer = offer.producer →
    (rejected.through events).entries.lookup filter = some current →
    current.OpenAt later →
    offer.producer ∉ current.producers →
    ¬ another.Unfit current →
    (rejected.through events).Accepts later filter current another
  /-- Whatever happens next, the entries and what is told of filters are as if nothing had been
  offered. -/
  forgotten : ∀ events, (rejected.through events).entries = (coordinator.through events).entries ∧
    tidings (rejected.mailed events) = tidings (coordinator.mailed events)

/-- Something unfit that is offered by a producer costs it nothing. -/
theorem costsNothing_of_unfit
    (found : coordinator.entries.lookup filter = some entry)
    (isOpen : entry.OpenAt now)
    (fresh : offer.producer ∉ entry.producers)
    (unfit : offer.Unfit entry) :
    CostsNothing coordinator filter entry now offer
      ((offer.call coordinator.query now filter).outcome coordinator).2 := by
  obtain ⟨status, failed, code, alike⟩ := rejected_of_unfit found isOpen fresh unfit
  constructor
  · exact ⟨status, Prod.ext failed rfl, code⟩
  · exact alike.entries
  · intro contribution holds
    obtain ⟨fault, refused, code⟩ := Offer.merge_of_unfit unfit isOpen fresh holds
    rw [Entry.outcome_offer, refused]
    exact ⟨fault.status, rfl, code⟩
  · intro events later another current same present openThen missing fit
    exact accepts_of_fit present openThen (same ▸ missing) fit
  · intro events
    obtain ⟨told, left⟩ := alike.through events
    exact ⟨left.entries, told.symm⟩

end Offers

/-! ## A producer that sends keys of the wrong class first -/

/-- The range of one key. -/
def sampleRange (key : Key) : KeyFilter :=
  .range (.between key key key.sameClass_refl key.le_refl)

/-- An integer has been contributed. -/
def sampleContributed : Coordinator :=
  (Cluster.sampleOpened.coordinator.occur (.call ⟨10, .update ⟨7⟩ ⟨1⟩ (sampleRange (.int 3))⟩)).2

/-- Another producer sends a text. -/
def sampleOffer : Offer :=
  .posted ⟨2⟩ ⟨2⟩ (Wire.encode (sampleRange (.text "a")))

/-- The entry before and after. -/
def sampleEntry : Entry :=
  { Entry.start Cluster.sampleDescriptor 0 with
    aggregate := some (sampleRange (.int 3))
    producers := [⟨1⟩]
    outstanding := 1 }

theorem content_sampleOffer : sampleOffer.content = .ok (sampleRange (.text "a")) := by
  have short : (Text.encodeUtf8 "a").length < 2 ^ 32 := by decide
  have formed : Wire.WellFormed (sampleRange (.text "a")) :=
    Wire.wellFormed_between_iff.mpr ⟨short, short⟩
  rw [sampleOffer, Offer.content, decodePayload, Wire.decode_eq_ok_iff.mpr ⟨formed, rfl⟩]
  rfl

theorem costsNothing_of_sampleOffer :
    CostsNothing sampleContributed ⟨7⟩ sampleEntry 20 sampleOffer
      ((sampleOffer.call ⟨1, 2⟩ 20 ⟨7⟩).outcome sampleContributed).2 :=
  costsNothing_of_unfit (by decide) ⟨rfl, by decide⟩ (by decide)
    (.apart content_sampleOffer rfl (.classes List.mem_cons_self List.mem_cons_self rfl))

end Coordinator
end Spillway
