import Mathlib.Data.List.Nodup
import Spillway.Cluster.Entry
import Spillway.Proofs.Filter.Merging

/-!
# Entries are resolved once

An entry serves requests one after the other, each at a moment of its own, in any order and any number.
What a request can do to an entry is said once, by `Entry.Serves`: a resolved entry keeps its state, and
a pending one waits, accepts a contribution, arrives, is disabled or is given up. Everything else
follows: an entry is assigned at most once, it arrives before its deadline only and by merging exactly
with the last producer, and a pending entry counts the producers that are still missing.
-/

namespace Spillway
namespace Entry

/-! ## Requests -/

/-- What an entry is asked. A waiter looks at the entry again and again until it is answered; one look
is one request, so that others are served in between. -/
inductive Request where
  | merge (producer : ProducerId) (contribution : KeyFilter)
  | publish (filter : KeyFilter)
  | timeOut
  | disable
  | cancel
  | wait (since span : Nat)
  | look

/-- What an entry answers. -/
inductive Reply where
  | offered (result : Except EntryFault MergeOutcome)
  | published (installed : Bool)
  | timedOut (ended : Bool)
  | disabled (fault : Option EntryFault)
  | cancelled
  | waited (outcome : Option WaitOutcome)
  | seen (state : FilterState)

/-- Serves a request at a moment. An entry stays as it was seen. -/
def serve (entry : Entry) (now : Nat) : Request → Reply × Entry
  | .merge producer contribution =>
    match entry.merge now producer contribution with
    | .ok (outcome, next) => (.offered (.ok outcome), next)
    | .error fault => (.offered (.error fault), entry)
  | .publish filter =>
    let (installed, next) := entry.publish now filter
    (.published installed, next)
  | .timeOut =>
    let (ended, next) := entry.timeOut
    (.timedOut ended, next)
  | .disable =>
    match entry.disable now with
    | .ok next => (.disabled none, next)
    | .error fault => (.disabled (some fault), entry.seenAt now)
  | .cancel => (.cancelled, entry.cancel)
  | .wait since span => (.waited (entry.answer? now (entry.limitOf since span)), entry.seenAt now)
  | .look => (.seen (entry.seenAt now).state, entry.seenAt now)

theorem serve_of_merge
    (entry : Entry)
    {now : Nat}
    {producer : ProducerId}
    {contribution : KeyFilter}
    {outcome : MergeOutcome}
    {next : Entry}
    (merges : entry.merge now producer contribution = .ok (outcome, next)) :
    entry.serve now (.merge producer contribution) = (.offered (.ok outcome), next) := by
  unfold serve
  dsimp only
  rw [merges]

theorem serve_of_disable
    (entry : Entry)
    {now : Nat}
    {next : Entry}
    (disables : entry.disable now = .ok next) :
    entry.serve now .disable = (.disabled none, next) := by
  unfold serve
  dsimp only
  rw [disables]

/-- A waiter whom nobody disturbs is answered as by a look at the moment at which it is answered. -/
theorem reply_wait
    (entry : Entry)
    (since now span : Nat) :
    (entry.serve (entry.wait since now span).2 (.wait since span)).1 =
      .waited (some (entry.wait since now span).1) := by
  show Reply.waited (entry.answer? (entry.wait since now span).2 (entry.limitOf since span)) = _
  cases answered : entry.answer? now (entry.limitOf since span) with
  | some outcome =>
      have whole : entry.wait since now span = (outcome, now) := by
        simp only [wait, answered]
      rw [whole, answered]
  | none =>
      obtain ⟨outcome, last⟩ :=
        Option.isSome_iff_exists.mp (entry.answer?_lastMoment (entry.limitOf since span))
      have whole : entry.wait since now span =
          (outcome, entry.lastMoment (entry.limitOf since span)) := by
        simp only [wait, answered, last, Option.getD_some]
      rw [whole, last]

/-- Whether the clock is read for a request. A contribution of the wrong kind is refused at sight. -/
def readsClock (entry : Entry) : Request → Prop
  | .merge _ contribution => contribution.kind = entry.descriptor.kind
  | .cancel => False
  | _ => True

/-- The contribution that was accepted from a producer, if one was. -/
def acceptance : Request → Reply → Option (ProducerId × KeyFilter)
  | .merge producer contribution, .offered (.ok (.merged _)) => some (producer, contribution)
  | .merge producer contribution, .offered (.ok (.completed _)) => some (producer, contribution)
  | _, _ => none

theorem request_of_acceptance
    {request : Request}
    {reply : Reply}
    {contribution : ProducerId × KeyFilter}
    (accepted : acceptance request reply = some contribution) :
    request = .merge contribution.1 contribution.2 := by
  unfold acceptance at accepted
  split at accepted
  · cases accepted
    rfl
  · cases accepted
    rfl
  · cases accepted

/-- The filter that is handed over to be installed, if one is. -/
def Request.installed? : Request → Option KeyFilter
  | .publish filter => some filter
  | _ => none

/-- Whether the reply says that a filter was completed. -/
def Reply.completes : Reply → Bool
  | offered (.ok (.completed _)) => true
  | _ => false

/-! ## What a request does -/

/-- The entries agree in all but the count of late contributions and whether waiters are sent away. -/
structure Agrees (entry other : Entry) : Prop where
  descriptor : other.descriptor = entry.descriptor
  deadline : other.deadline = entry.deadline
  state : other.state = entry.state
  aggregate : other.aggregate = entry.aggregate
  producers : other.producers = entry.producers
  outstanding : other.outstanding = entry.outstanding

theorem Agrees.refl (entry : Entry) : entry.Agrees entry :=
  ⟨rfl, rfl, rfl, rfl, rfl, rfl⟩

/-- The entry is pending, and its deadline is not over. -/
def OpenAt (entry : Entry) (now : Nat) : Prop :=
  entry.state = .pending ∧ now < entry.deadline

/-- Everything that a request can do to an entry. -/
inductive Serves (entry : Entry) (now : Nat) (request : Request) : Reply → Entry → Prop
  /-- Nothing is resolved. The entry was resolved before, or it is still pending, which it may be after
  its deadline only for a request that does not read the clock. -/
  | stays
      {reply : Reply}
      {next : Entry}
      (agrees : entry.Agrees next)
      (refused : acceptance request reply = none)
      (incomplete : reply.completes = false)
      (inTime : entry.readsClock request → entry.state = .pending → now < entry.deadline)
      (waits : ∀ since span, request = .wait since span → next = entry ∧
        (reply = .waited (some .timedOut) → next.state ≠ .timedOut →
          entry.limitOf since span ≤ now)) :
      Serves entry now request reply next
  /-- A contribution is merged, and others are missing. -/
  | accepts
      {producer : ProducerId}
      {contribution merged : KeyFilter}
      (isOpen : entry.OpenAt now)
      (asked : request = .merge producer contribution)
      (fresh : producer ∉ entry.producers)
      (merges : KeyFilter.mergeInto entry.aggregate contribution = .ok merged)
      (missing : 0 < entry.outstanding - 1) :
      Serves entry now request (.offered (.ok (.merged (entry.outstanding - 1)))) {
        entry with
        producers := entry.producers ++ [producer]
        outstanding := entry.outstanding - 1
        aggregate := some merged }
  /-- The last contribution is merged. -/
  | completes
      {producer : ProducerId}
      {contribution merged : KeyFilter}
      (isOpen : entry.OpenAt now)
      (asked : request = .merge producer contribution)
      (fresh : producer ∉ entry.producers)
      (merges : KeyFilter.mergeInto entry.aggregate contribution = .ok merged)
      (last : entry.outstanding - 1 = 0) :
      Serves entry now request (.offered (.ok (.completed merged))) {
        entry with
        producers := entry.producers ++ [producer]
        outstanding := entry.outstanding - 1
        aggregate := none
        state := .arrived merged }
  /-- A filter that was merged elsewhere is installed. -/
  | installs
      {filter : KeyFilter}
      (isOpen : entry.OpenAt now)
      (asked : request = .publish filter) :
      Serves entry now request (.published true) { entry with state := .arrived filter }
  /-- The entry is disabled. -/
  | disables
      (isOpen : entry.OpenAt now)
      (asked : request = .disable)
      (untouched : entry.producers = []) :
      Serves entry now request (.disabled none) { entry with state := .disabled }
  /-- The entry is given up, on request or because its deadline is over. -/
  | givesUp
      {reply : Reply}
      {next : Entry}
      (pending : entry.state = .pending)
      (agrees : entry.giveUp.Agrees next)
      (refused : acceptance request reply = none)
      (incomplete : reply.completes = false) :
      Serves entry now request reply next

theorem seenAt_of_openAt
    {entry : Entry}
    {now : Nat}
    (isOpen : entry.OpenAt now) :
    entry.seenAt now = entry := by
  rw [seenAt, if_neg]
  exact fun due => Nat.not_le.mpr isOpen.2 due.2

theorem seenAt_of_resolved
    {entry : Entry}
    {now : Nat}
    (resolved : entry.state ≠ .pending) :
    entry.seenAt now = entry := by
  rw [seenAt, if_neg]
  exact fun due => resolved due.1

/-- An entry is seen as it is when it is resolved or in time, and as given up otherwise. -/
theorem seenAt_cases
    (entry : Entry)
    (now : Nat) :
    entry.OpenAt now ∨ entry.state ≠ .pending ∨
      entry.state = .pending ∧ entry.seenAt now = entry.giveUp := by
  by_cases pending : entry.state = .pending
  · by_cases due : entry.deadline ≤ now
    · exact .inr (.inr ⟨pending, if_pos ⟨pending, due⟩⟩)
    · exact .inl ⟨pending, Nat.not_le.mp due⟩
  · exact .inr (.inl pending)

/-- An entry that is seen to have arrived has arrived. -/
theorem arrived_seenAt_iff
    {entry : Entry}
    {now : Nat}
    {filter : KeyFilter} :
    (entry.seenAt now).state = .arrived filter ↔ entry.state = .arrived filter := by
  obtain isOpen | resolved | ⟨pending, due⟩ := entry.seenAt_cases now
  · rw [seenAt_of_openAt isOpen]
  · rw [seenAt_of_resolved resolved]
  · rw [due, pending]
    exact ⟨fun arrived => FilterState.noConfusion arrived, fun arrived => FilterState.noConfusion arrived⟩

theorem state_seenAt
    (entry : Entry)
    (now : Nat) :
    (entry.seenAt now).state =
      if entry.state = .pending ∧ entry.deadline ≤ now then .timedOut else entry.state := by
  unfold seenAt
  split <;> rfl

/-- An entry that is seen to be resolved is seen so from then on. -/
theorem state_seenAt_of_le
    {entry : Entry}
    {now later : Nat}
    (resolved : (entry.seenAt now).state ≠ .pending)
    (after : now ≤ later) :
    (entry.seenAt later).state = (entry.seenAt now).state := by
  obtain isOpen | settled | ⟨pending, due⟩ := entry.seenAt_cases now
  · rw [seenAt_of_openAt isOpen] at resolved
    exact absurd isOpen.1 resolved
  · rw [seenAt_of_resolved settled, seenAt_of_resolved settled]
  · by_cases isOpen : now < entry.deadline
    · rw [seenAt_of_openAt ⟨pending, isOpen⟩] at resolved
      exact absurd pending resolved
    · have past : entry.deadline ≤ later := Nat.le_trans (Nat.not_lt.mp isOpen) after
      rw [due, seenAt, if_pos ⟨pending, past⟩]

theorem isResolved_iff {state : FilterState} : state.isResolved = true ↔ state ≠ .pending := by
  cases state <;> simp [FilterState.isResolved]

theorem isResolved_of_openAt
    {entry : Entry}
    {now : Nat}
    (isOpen : entry.OpenAt now) :
    ¬ entry.state.isResolved = true :=
  fun resolved => isResolved_iff.mp resolved isOpen.1

/-! ## What each operation does -/

theorem mergedWith_eq
    (entry : Entry)
    (contribution : KeyFilter) :
    entry.mergedWith contribution =
      (KeyFilter.mergeInto entry.aggregate contribution).mapError .merge := by
  unfold mergedWith KeyFilter.mergeInto
  cases entry.aggregate <;> rfl

theorem accept_of_missing
    (entry : Entry)
    (producer : ProducerId)
    (merged : KeyFilter)
    (missing : 0 < entry.outstanding - 1) :
    entry.accept producer merged =
      (.merged (entry.outstanding - 1), {
        entry with
        producers := entry.producers ++ [producer]
        outstanding := entry.outstanding - 1
        aggregate := some merged }) :=
  if_pos missing

theorem accept_of_last
    (entry : Entry)
    (producer : ProducerId)
    (merged : KeyFilter)
    (last : ¬ 0 < entry.outstanding - 1) :
    entry.accept producer merged =
      (.completed merged, {
        entry with
        producers := entry.producers ++ [producer]
        outstanding := entry.outstanding - 1
        aggregate := none
        state := .arrived merged }) :=
  if_neg last

section Operations

variable {entry : Entry} {now : Nat}

/-- A request other than a look of a waiter that leaves an open entry as it is. -/
theorem serves_of_openAt
    {request : Request}
    {reply : Reply}
    (isOpen : entry.OpenAt now)
    (refused : acceptance request reply = none)
    (incomplete : reply.completes = false)
    (waits : ∀ since span, request ≠ .wait since span) :
    entry.Serves now request reply entry :=
  .stays (.refl entry) refused incomplete (fun _ _ => isOpen.2)
    fun since span asked => absurd asked (waits since span)

/-- A request other than a look of a waiter at a resolved entry. -/
theorem serves_of_resolved
    {next : Entry}
    {request : Request}
    {reply : Reply}
    (resolved : entry.state ≠ .pending)
    (agrees : entry.Agrees next)
    (refused : acceptance request reply = none)
    (incomplete : reply.completes = false)
    (waits : ∀ since span, request ≠ .wait since span) :
    entry.Serves now request reply next :=
  .stays agrees refused incomplete (fun _ pending => absurd pending resolved)
    fun since span asked => absurd asked (waits since span)

/-- An entry that is open takes the contribution of a producer that made none, if it can be merged. -/
theorem merge_of_openAt
    {producer : ProducerId}
    {contribution : KeyFilter}
    (isOpen : entry.OpenAt now)
    (kind : contribution.kind = entry.descriptor.kind)
    (fresh : producer ∉ entry.producers) :
    entry.merge now producer contribution =
      ((KeyFilter.mergeInto entry.aggregate contribution).mapError .merge).map
        (entry.accept producer) := by
  unfold merge
  rw [if_neg (show ¬ contribution.kind ≠ entry.descriptor.kind from not_not.mpr kind)]
  dsimp only
  rw [seenAt_of_openAt isOpen, if_neg (isResolved_of_openAt isOpen), mergedWith_eq,
    if_neg fun known => fresh (List.contains_iff_mem.mp known)]

/-- An entry that is open passes over what a producer sends again. -/
theorem merge_of_known
    {producer : ProducerId}
    {contribution : KeyFilter}
    (isOpen : entry.OpenAt now)
    (kind : contribution.kind = entry.descriptor.kind)
    (known : producer ∈ entry.producers) :
    entry.merge now producer contribution = .ok (.duplicate, entry) := by
  unfold merge
  rw [if_neg (show ¬ contribution.kind ≠ entry.descriptor.kind from not_not.mpr kind)]
  dsimp only
  rw [seenAt_of_openAt isOpen, if_neg (isResolved_of_openAt isOpen),
    if_pos (List.contains_iff_mem.mpr known)]

/-- An entry that is resolved counts what comes too late. -/
theorem merge_of_resolved
    {producer : ProducerId}
    {contribution : KeyFilter}
    (resolved : (entry.seenAt now).state ≠ .pending)
    (kind : contribution.kind = entry.descriptor.kind) :
    entry.merge now producer contribution =
      .ok (.late (entry.seenAt now).state,
        { entry.seenAt now with late := (entry.seenAt now).late + 1 }) := by
  unfold merge
  rw [if_neg (show ¬ contribution.kind ≠ entry.descriptor.kind from not_not.mpr kind)]
  dsimp only
  rw [if_pos (isResolved_iff.mpr resolved)]

theorem serves_merge
    {producer : ProducerId}
    {contribution : KeyFilter}
    {outcome : MergeOutcome}
    {next : Entry}
    (merges : entry.merge now producer contribution = .ok (outcome, next)) :
    entry.Serves now (.merge producer contribution) (.offered (.ok outcome)) next := by
  have notWaiting : ∀ since span, Request.merge producer contribution ≠ .wait since span :=
    fun _ _ asked => Request.noConfusion asked
  by_cases kind : contribution.kind = entry.descriptor.kind
  · by_cases fresh : entry.OpenAt now ∧ producer ∉ entry.producers
    · obtain ⟨isOpen, fresh⟩ := fresh
      rw [merge_of_openAt isOpen kind fresh] at merges
      cases union : KeyFilter.mergeInto entry.aggregate contribution with
      | error fault => rw [union] at merges; cases merges
      | ok merged =>
          rw [union] at merges
          have accepted : entry.accept producer merged = (outcome, next) := Except.ok.inj merges
          by_cases missing : 0 < entry.outstanding - 1
          · rw [accept_of_missing entry producer merged missing] at accepted
            cases accepted
            exact .accepts isOpen rfl fresh union missing
          · rw [accept_of_last entry producer merged missing] at accepted
            cases accepted
            exact .completes isOpen rfl fresh union (Nat.eq_zero_of_not_pos missing)
    · obtain isOpen | resolved | ⟨pending, due⟩ := entry.seenAt_cases now
      · have known : producer ∈ entry.producers := by
          by_contra unknown
          exact fresh ⟨isOpen, unknown⟩
        rw [merge_of_known isOpen kind known] at merges
        cases merges
        exact serves_of_openAt isOpen rfl rfl notWaiting
      · have same : entry.seenAt now = entry := seenAt_of_resolved resolved
        rw [merge_of_resolved (same.symm ▸ resolved) kind, same] at merges
        cases merges
        exact serves_of_resolved resolved ⟨rfl, rfl, rfl, rfl, rfl, rfl⟩ rfl rfl notWaiting
      · rw [merge_of_resolved (due ▸ FilterState.noConfusion) kind, due] at merges
        cases merges
        exact .givesUp pending ⟨rfl, rfl, rfl, rfl, rfl, rfl⟩ rfl rfl
  · rw [merge, if_pos kind] at merges
    cases merges

/-- A contribution is refused for its kind, or because it cannot be merged. -/
theorem serves_of_merge_error
    {producer : ProducerId}
    {contribution : KeyFilter}
    {fault : EntryFault}
    (refuses : entry.merge now producer contribution = .error fault) :
    entry.Serves now (.merge producer contribution) (.offered (.error fault)) entry := by
  refine .stays (.refl entry) rfl rfl (fun kind pending => ?_) fun _ _ asked =>
    Request.noConfusion asked
  by_contra late
  have due : entry.seenAt now = entry.giveUp := if_pos ⟨pending, Nat.not_lt.mp late⟩
  rw [merge_of_resolved (due ▸ FilterState.noConfusion) kind] at refuses
  cases refuses

theorem serves_publish (filter : KeyFilter) :
    entry.Serves now (.publish filter) (.published (entry.publish now filter).1)
      (entry.publish now filter).2 := by
  have notWaiting : ∀ since span, Request.publish filter ≠ .wait since span :=
    fun _ _ asked => Request.noConfusion asked
  unfold publish
  dsimp only
  obtain isOpen | resolved | ⟨pending, due⟩ := entry.seenAt_cases now
  · rw [seenAt_of_openAt isOpen, if_neg (isResolved_of_openAt isOpen)]
    exact .installs isOpen rfl
  · rw [seenAt_of_resolved resolved, if_pos (isResolved_iff.mpr resolved)]
    exact serves_of_resolved resolved ⟨rfl, rfl, rfl, rfl, rfl, rfl⟩ rfl rfl notWaiting
  · rw [due, if_pos (show entry.giveUp.state.isResolved = true from rfl)]
    exact .givesUp pending ⟨rfl, rfl, rfl, rfl, rfl, rfl⟩ rfl rfl

theorem serves_timeOut :
    entry.Serves now .timeOut (.timedOut entry.timeOut.1) entry.timeOut.2 := by
  unfold timeOut
  by_cases pending : entry.state = .pending
  · rw [if_neg fun resolved => isResolved_iff.mp resolved pending]
    exact .givesUp pending (.refl _) rfl rfl
  · rw [if_pos (isResolved_iff.mpr pending)]
    exact serves_of_resolved pending (.refl entry) rfl rfl fun _ _ asked => Request.noConfusion asked

/-- Looking before giving up makes no difference. -/
theorem timeOut_seenAt
    (entry : Entry)
    (now : Nat) :
    (entry.seenAt now).timeOut.2 = entry.timeOut.2 := by
  obtain isOpen | resolved | ⟨pending, due⟩ := entry.seenAt_cases now
  · rw [seenAt_of_openAt isOpen]
  · rw [seenAt_of_resolved resolved]
  · rw [due, timeOut, if_pos (show entry.giveUp.state.isResolved = true from rfl), timeOut,
      if_neg fun resolved => isResolved_iff.mp resolved pending]

theorem serves_disable
    {next : Entry}
    (disables : entry.disable now = .ok next) :
    entry.Serves now .disable (.disabled none) next := by
  have notWaiting : ∀ since span, Request.disable ≠ .wait since span :=
    fun _ _ asked => Request.noConfusion asked
  unfold disable at disables
  dsimp only at disables
  obtain isOpen | resolved | ⟨pending, due⟩ := entry.seenAt_cases now
  · rw [seenAt_of_openAt isOpen, isOpen.1] at disables
    dsimp only at disables
    split at disables
    · next untouched =>
      cases disables
      exact .disables isOpen rfl (List.isEmpty_iff.mp untouched)
    · cases disables
  · rw [seenAt_of_resolved resolved] at disables
    split at disables
    · cases disables
      exact serves_of_resolved resolved (.refl entry) rfl rfl notWaiting
    · next pending => exact absurd pending resolved
    · cases disables
  · rw [due] at disables
    cases disables

/-- Whoever looks leaves an entry as it was seen. -/
theorem serves_seenAt
    {request : Request}
    {reply : Reply}
    (refused : acceptance request reply = none)
    (incomplete : reply.completes = false)
    (waits : ∀ since span, request = .wait since span →
      entry.OpenAt now → reply = .waited (some .timedOut) → entry.limitOf since span ≤ now)
    (final : ∀ since span, request = .wait since span →
      reply = .waited (some .timedOut) → entry.state ≠ .pending → entry.state = .timedOut) :
    entry.Serves now request reply (entry.seenAt now) := by
  obtain isOpen | resolved | ⟨pending, due⟩ := entry.seenAt_cases now
  · rw [seenAt_of_openAt isOpen]
    exact .stays (.refl entry) refused incomplete (fun _ _ => isOpen.2) fun since span asked =>
      ⟨rfl, fun answered _ => waits since span asked isOpen answered⟩
  · rw [seenAt_of_resolved resolved]
    exact .stays (.refl entry) refused incomplete (fun _ pending => absurd pending resolved)
      fun since span asked =>
        ⟨rfl, fun answered other => absurd (final since span asked answered resolved) other⟩
  · rw [due]
    exact .givesUp pending (.refl _) refused incomplete

/-- A waiter who is told of a time-out has waited long enough, or the entry has timed out. -/
theorem answer?_eq_timedOut
    {limit : Nat}
    (answered : entry.answer? now limit = some .timedOut) :
    (entry.OpenAt now → limit ≤ now) ∧ (entry.state ≠ .pending → entry.state = .timedOut) := by
  unfold answer? at answered
  split at answered
  · cases answered
  · refine ⟨fun isOpen => ?_, fun resolved => ?_⟩
    · rw [seenAt_of_openAt isOpen, isOpen.1] at answered
      by_contra early
      simp [early] at answered
    · rw [seenAt_of_resolved resolved] at answered
      cases state : entry.state with
      | pending => exact absurd state resolved
      | timedOut => rfl
      | arrived filter => rw [state] at answered; cases answered
      | disabled => rw [state] at answered; cases answered

end Operations

/-- An entry does nothing else for a request. -/
theorem serves_serve
    (entry : Entry)
    (now : Nat)
    (request : Request) :
    entry.Serves now request (entry.serve now request).1 (entry.serve now request).2 := by
  cases request with
  | merge producer contribution =>
      unfold serve
      dsimp only
      cases merges : entry.merge now producer contribution with
      | ok result => exact serves_merge merges
      | error fault => exact serves_of_merge_error merges
  | publish filter => exact serves_publish filter
  | timeOut => exact serves_timeOut
  | disable =>
      unfold serve
      dsimp only
      cases disables : entry.disable now with
      | ok next => exact serves_disable disables
      | error fault =>
          exact serves_seenAt rfl rfl (fun _ _ asked => Request.noConfusion asked)
            fun _ _ asked => Request.noConfusion asked
  | cancel =>
      exact .stays ⟨rfl, rfl, rfl, rfl, rfl, rfl⟩ rfl rfl (fun read => read.elim)
        fun _ _ asked => Request.noConfusion asked
  | wait since span =>
      refine serves_seenAt rfl rfl ?_ ?_
      · intro _ _ asked isOpen answered
        cases asked
        exact (answer?_eq_timedOut (Reply.waited.inj answered)).1 isOpen
      · intro _ _ asked answered resolved
        cases asked
        exact (answer?_eq_timedOut (Reply.waited.inj answered)).2 resolved
  | look =>
      exact serves_seenAt rfl rfl (fun _ _ asked => Request.noConfusion asked)
        fun _ _ asked => Request.noConfusion asked

/-! ## What an entry knows of its contributions -/

/-- How an entry stands to the contributions that it accepted, in the order in which it accepted them,
and to the filters that it was handed. -/
structure Collects
    (entry : Entry)
    (accepted : List (ProducerId × KeyFilter))
    (installed : List KeyFilter) :
    Prop where
  producers : entry.producers = accepted.map Prod.fst
  distinct : (accepted.map Prod.fst).Nodup
  counted : entry.state = .pending →
    entry.outstanding + accepted.length = entry.descriptor.producers
  missing : entry.state = .pending → 0 < entry.outstanding
  merged : entry.state = .pending →
    KeyFilter.mergeAll (accepted.map Prod.snd) = .ok entry.aggregate
  arrived : ∀ filter, entry.state = .arrived filter →
    accepted.length = entry.descriptor.producers ∧
      KeyFilter.mergeAll (accepted.map Prod.snd) = .ok (some filter) ∨
    filter ∈ installed
  disabled : entry.state = .disabled → accepted = []

theorem collects_start
    {descriptor : FilterDescriptor}
    (expected : 1 ≤ descriptor.producers)
    (now : Nat) :
    (Entry.start descriptor now).Collects [] [] where
  producers := rfl
  distinct := List.nodup_nil
  counted := fun _ => rfl
  missing := fun _ => expected
  merged := fun _ => rfl
  arrived := fun _ arrived => FilterState.noConfusion arrived
  disabled := fun _ => rfl

namespace Collects

variable {entry next : Entry} {accepted : List (ProducerId × KeyFilter)} {installed : List KeyFilter}

theorem agrees
    (collects : entry.Collects accepted installed)
    (agrees : entry.Agrees next) :
    next.Collects accepted installed where
  producers := agrees.producers.trans collects.producers
  distinct := collects.distinct
  counted := by
    rw [agrees.state, agrees.outstanding, agrees.descriptor]
    exact collects.counted
  missing := by
    rw [agrees.state, agrees.outstanding]
    exact collects.missing
  merged := by
    rw [agrees.state, agrees.aggregate]
    exact collects.merged
  arrived := by
    rw [agrees.state, agrees.descriptor]
    exact collects.arrived
  disabled := by
    rw [agrees.state]
    exact collects.disabled

/-- An entry that is resolved counts nothing any more. -/
theorem of_resolved
    (resolved : next.state ≠ .pending)
    (producers : next.producers = accepted.map Prod.fst)
    (distinct : (accepted.map Prod.fst).Nodup)
    (arrived : ∀ filter, next.state = .arrived filter →
      accepted.length = next.descriptor.producers ∧
        KeyFilter.mergeAll (accepted.map Prod.snd) = .ok (some filter) ∨
      filter ∈ installed)
    (disabled : next.state = .disabled → accepted = []) :
    next.Collects accepted installed where
  producers := producers
  distinct := distinct
  counted := fun pending => absurd pending resolved
  missing := fun pending => absurd pending resolved
  merged := fun pending => absurd pending resolved
  arrived := arrived
  disabled := disabled

theorem giveUp (collects : entry.Collects accepted installed) :
    entry.giveUp.Collects accepted installed :=
  of_resolved FilterState.noConfusion collects.producers collects.distinct
    (fun _ arrived => FilterState.noConfusion arrived) fun disabled => FilterState.noConfusion disabled

theorem hand
    (collects : entry.Collects accepted installed)
    (filters : List KeyFilter) :
    entry.Collects accepted (installed ++ filters) :=
  { collects with
    arrived := fun filter arrived => (collects.arrived filter arrived).imp_right
      (List.mem_append_left filters) }

theorem producers_concat
    (collects : entry.Collects accepted installed)
    (producer : ProducerId)
    (contribution : KeyFilter) :
    entry.producers ++ [producer] = (accepted ++ [(producer, contribution)]).map Prod.fst := by
  rw [collects.producers, List.map_append, List.map_singleton]

theorem distinct_concat
    {producer : ProducerId}
    (collects : entry.Collects accepted installed)
    (fresh : producer ∉ entry.producers)
    (contribution : KeyFilter) :
    ((accepted ++ [(producer, contribution)]).map Prod.fst).Nodup := by
  rw [← collects.producers_concat, List.nodup_append_comm]
  exact List.nodup_cons.mpr ⟨fresh, collects.producers ▸ collects.distinct⟩

theorem merged_concat
    {producer : ProducerId}
    {contribution union : KeyFilter}
    (collects : entry.Collects accepted installed)
    (pending : entry.state = .pending)
    (merges : KeyFilter.mergeInto entry.aggregate contribution = .ok union) :
    KeyFilter.mergeAll ((accepted ++ [(producer, contribution)]).map Prod.snd) =
      .ok (some union) := by
  rw [List.map_append]
  exact KeyFilter.mergeAll_concat_eq_ok_iff.mpr
    ⟨_, collects.merged pending, union, merges, rfl⟩

theorem length_concat
    (collects : entry.Collects accepted installed)
    (pending : entry.state = .pending)
    (contribution : ProducerId × KeyFilter) :
    entry.outstanding - 1 + (accepted ++ [contribution]).length = entry.descriptor.producers := by
  have counted := collects.counted pending
  have missing := collects.missing pending
  rw [List.length_append, List.length_singleton]
  omega

/-- A contribution that is not the last one is taken in. -/
theorem accept
    {now : Nat}
    {producer : ProducerId}
    {contribution merged : KeyFilter}
    (collects : entry.Collects accepted installed)
    (isOpen : entry.OpenAt now)
    (fresh : producer ∉ entry.producers)
    (merges : KeyFilter.mergeInto entry.aggregate contribution = .ok merged)
    (missing : 0 < entry.outstanding - 1) :
    { entry with
      producers := entry.producers ++ [producer]
      outstanding := entry.outstanding - 1
      aggregate := some merged }.Collects (accepted ++ [(producer, contribution)]) installed where
  producers := collects.producers_concat producer contribution
  distinct := collects.distinct_concat fresh contribution
  counted := fun _ => collects.length_concat isOpen.1 _
  missing := fun _ => missing
  merged := fun _ => collects.merged_concat isOpen.1 merges
  arrived := fun _ arrived => FilterState.noConfusion (isOpen.1.symm.trans arrived)
  disabled := fun disabled => FilterState.noConfusion (isOpen.1.symm.trans disabled)

/-- The last contribution makes the filter arrive that all of them are merged to. -/
theorem complete
    {now : Nat}
    {producer : ProducerId}
    {contribution merged : KeyFilter}
    (collects : entry.Collects accepted installed)
    (isOpen : entry.OpenAt now)
    (fresh : producer ∉ entry.producers)
    (merges : KeyFilter.mergeInto entry.aggregate contribution = .ok merged)
    (last : entry.outstanding - 1 = 0) :
    { entry with
      producers := entry.producers ++ [producer]
      outstanding := entry.outstanding - 1
      aggregate := none
      state := .arrived merged }.Collects (accepted ++ [(producer, contribution)]) installed := by
  refine of_resolved FilterState.noConfusion (collects.producers_concat producer contribution)
    (collects.distinct_concat fresh contribution) (fun filter arrived => ?_) FilterState.noConfusion
  cases arrived
  have counted := collects.length_concat isOpen.1 (producer, contribution)
  rw [last, Nat.zero_add] at counted
  exact .inl ⟨counted, collects.merged_concat isOpen.1 merges⟩

/-- A request keeps the account of contributions right. -/
theorem serves
    {now : Nat}
    {request : Request}
    {reply : Reply}
    (collects : entry.Collects accepted installed)
    (serves : entry.Serves now request reply next) :
    next.Collects (accepted ++ (acceptance request reply).toList)
      (installed ++ request.installed?.toList) := by
  cases serves with
  | stays agrees refused =>
      rw [refused, Option.toList_none, List.append_nil]
      exact (collects.agrees agrees).hand _
  | accepts isOpen asked fresh merges missing =>
      subst asked
      exact (collects.accept isOpen fresh merges missing).hand _
  | completes isOpen asked fresh merges last =>
      subst asked
      exact (collects.complete isOpen fresh merges last).hand _
  | @installs filter isOpen asked =>
      subst asked
      rw [show acceptance (.publish filter) (.published true) = none from rfl, Option.toList_none,
        List.append_nil]
      refine of_resolved FilterState.noConfusion collects.producers collects.distinct
        (fun _ arrived => ?_) FilterState.noConfusion
      cases arrived
      exact .inr (List.mem_append_right _ (List.mem_singleton_self _))
  | disables isOpen asked untouched =>
      subst asked
      obtain rfl : accepted = [] := List.map_eq_nil_iff.mp (collects.producers.symm.trans untouched)
      exact of_resolved FilterState.noConfusion collects.producers collects.distinct
        (fun _ arrived => FilterState.noConfusion arrived) fun _ => rfl
  | givesUp pending agrees refused =>
      rw [refused, Option.toList_none, List.append_nil]
      exact (collects.giveUp.agrees agrees).hand _

end Collects

end Entry
end Spillway
