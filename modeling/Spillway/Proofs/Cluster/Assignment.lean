import Spillway.Proofs.Cluster.Entry

/-!
# Runs of an entry

What one request does is carried over to any number of them, served at any moments: an entry is
resolved at most once and keeps what it was resolved to, it arrives only before its deadline, and it
tells at most one contributor that the filter is complete.
-/

namespace Spillway
namespace Entry

/-- A request, and the moment at which it is served. -/
structure Call where
  now : Nat
  request : Request

/-- What is answered to a call. -/
def replyTo (entry : Entry) (call : Call) : Reply :=
  (entry.serve call.now call.request).1

/-- The entry after a call. -/
def next (entry : Entry) (call : Call) : Entry :=
  (entry.serve call.now call.request).2

/-- The entry after calls. -/
def after (entry : Entry) (calls : List Call) : Entry :=
  calls.foldl next entry

/-- What is answered to calls. -/
def replies : Entry → List Call → List Reply
  | _, [] => []
  | entry, call :: calls => entry.replyTo call :: (entry.next call).replies calls

/-- The contributions that calls make and that are accepted, in the order in which they are. -/
def accepted : Entry → List Call → List (ProducerId × KeyFilter)
  | _, [] => []
  | entry, call :: calls =>
    (acceptance call.request (entry.replyTo call)).toList ++ (entry.next call).accepted calls

/-- The filters that calls hand over to be installed. -/
def handed (calls : List Call) : List KeyFilter :=
  calls.flatMap fun call => call.request.installed?.toList

theorem after_append
    (entry : Entry)
    (calls later : List Call) :
    entry.after (calls ++ later) = (entry.after calls).after later :=
  List.foldl_append

theorem serves_next
    (entry : Entry)
    (call : Call) :
    entry.Serves call.now call.request (entry.replyTo call) (entry.next call) :=
  entry.serves_serve call.now call.request

/-! ## One call -/

section Call

variable {entry next : Entry} {now : Nat} {request : Request} {reply : Reply}

theorem Serves.descriptor (serves : entry.Serves now request reply next) :
    next.descriptor = entry.descriptor := by
  cases serves with
  | stays agrees => exact agrees.descriptor
  | accepts | completes | installs | disables => rfl
  | givesUp pending agrees => exact agrees.descriptor

theorem Serves.deadline (serves : entry.Serves now request reply next) :
    next.deadline = entry.deadline := by
  cases serves with
  | stays agrees => exact agrees.deadline
  | accepts | completes | installs | disables => rfl
  | givesUp pending agrees => exact agrees.deadline

/-- A resolved entry keeps its state, and nobody is told that it was completed. -/
theorem Serves.final
    (serves : entry.Serves now request reply next)
    (resolved : entry.state ≠ .pending) :
    next.state = entry.state ∧ reply.completes = false := by
  cases serves with
  | stays agrees refused incomplete => exact ⟨agrees.state, incomplete⟩
  | accepts isOpen | completes isOpen | installs isOpen | disables isOpen =>
      exact absurd isOpen.1 resolved
  | givesUp pending => exact absurd pending resolved

/-- An entry that is seen to be resolved is seen so after any request. -/
theorem Serves.seen
    (serves : entry.Serves now request reply next)
    (resolved : (entry.seenAt now).state ≠ .pending) :
    (next.seenAt now).state = (entry.seenAt now).state := by
  cases serves with
  | stays agrees =>
      rw [state_seenAt, state_seenAt, agrees.state, agrees.deadline]
  | accepts isOpen | completes isOpen | installs isOpen | disables isOpen =>
      rw [seenAt_of_openAt isOpen] at resolved
      exact absurd isOpen.1 resolved
  | givesUp pending agrees =>
      have past : entry.state = .pending ∧ entry.deadline ≤ now := by
        by_contra early
        rw [state_seenAt, if_neg early] at resolved
        exact resolved pending
      have given : next.state = .timedOut := agrees.state
      rw [state_seenAt, state_seenAt, if_pos past, given,
        if_neg fun due => FilterState.noConfusion due.1]

/-- An entry arrives in time, with a filter that it was handed or that it completed. -/
theorem Serves.arrives
    {filter : KeyFilter}
    (serves : entry.Serves now request reply next)
    (pending : entry.state = .pending)
    (arrived : next.state = .arrived filter) :
    now < entry.deadline ∧
      (request = .publish filter ∨ reply = .offered (.ok (.completed filter))) := by
  cases serves with
  | stays agrees =>
      exact FilterState.noConfusion (pending.symm.trans (agrees.state.symm.trans arrived))
  | accepts => exact FilterState.noConfusion (pending.symm.trans arrived)
  | completes isOpen =>
      cases arrived
      exact ⟨isOpen.2, .inr rfl⟩
  | installs isOpen asked =>
      cases arrived
      exact ⟨isOpen.2, .inl asked⟩
  | disables => exact FilterState.noConfusion arrived
  | givesUp _ agrees => exact FilterState.noConfusion (agrees.state.symm.trans arrived)

/-- Who is told that a filter was completed made a pending entry arrive. -/
theorem Serves.completed
    {filter : KeyFilter}
    (serves : entry.Serves now request reply next)
    (completed : reply = .offered (.ok (.completed filter))) :
    entry.state = .pending ∧ next.state = .arrived filter := by
  cases serves with
  | stays agrees refused incomplete =>
      subst completed
      cases incomplete
  | accepts => cases completed
  | completes isOpen =>
      cases completed
      exact ⟨isOpen.1, rfl⟩
  | installs => cases completed
  | disables => cases completed
  | givesUp pending agrees refused incomplete =>
      subst completed
      cases incomplete

/-- Who is told so made the last contribution. -/
theorem Serves.accepted_of_completed
    {filter : KeyFilter}
    (serves : entry.Serves now request reply next)
    (completed : reply = .offered (.ok (.completed filter))) :
    ∃ contribution, acceptance request reply = some contribution := by
  cases serves with
  | stays agrees refused incomplete =>
      subst completed
      cases incomplete
  | accepts => cases completed
  | completes isOpen asked =>
      subst asked
      exact ⟨_, rfl⟩
  | installs => cases completed
  | disables => cases completed
  | givesUp pending agrees refused incomplete =>
      subst completed
      cases incomplete

theorem completes_iff {reply : Reply} :
    reply.completes = true ↔ ∃ filter, reply = .offered (.ok (.completed filter)) := by
  constructor
  · intro completes
    unfold Reply.completes at completes
    split at completes
    · exact ⟨_, rfl⟩
    · cases completes
  · rintro ⟨filter, rfl⟩
    rfl

/-- A contribution completes the filter exactly when it is accepted as the last one. -/
theorem Serves.completes_iff_last
    {contributions : List (ProducerId × KeyFilter)}
    {installed : List KeyFilter}
    (serves : entry.Serves now request reply next)
    (collects : entry.Collects contributions installed) :
    reply.completes = true ↔
      (acceptance request reply).isSome = true ∧
        contributions.length + 1 = entry.descriptor.producers := by
  cases serves with
  | stays agrees refused incomplete | givesUp _ agrees refused incomplete =>
      simp [incomplete, refused]
  | accepts isOpen asked fresh merges missing =>
      have counted := collects.counted isOpen.1
      refine ⟨fun completes => Bool.noConfusion completes, fun last => ?_⟩
      have := last.2
      omega
  | completes isOpen asked fresh merges last =>
      subst asked
      have counted := collects.counted isOpen.1
      have missing := collects.missing isOpen.1
      exact ⟨fun _ => ⟨rfl, by omega⟩, fun _ => rfl⟩
  | installs isOpen asked | disables isOpen asked =>
      subst asked
      exact ⟨fun completes => Bool.noConfusion completes, fun last => Bool.noConfusion last.1⟩

/-- Whoever reads the clock after the deadline leaves a resolved entry. -/
theorem Serves.resolves
    (serves : entry.Serves now request reply next)
    (reads : entry.readsClock request)
    (due : entry.deadline ≤ now) :
    next.state ≠ .pending := by
  cases serves with
  | stays agrees refused incomplete inTime =>
      intro pending
      exact Nat.not_lt.mpr due (inTime reads (agrees.state.symm.trans pending))
  | accepts isOpen | completes isOpen | installs isOpen | disables isOpen =>
      exact absurd isOpen.2 (Nat.not_lt.mpr due)
  | givesUp pending agrees =>
      rw [agrees.state]
      exact FilterState.noConfusion

/-- A look of a waiter changes an entry only where the deadline is over, and one that sends the waiter
away without that comes after the waiter has waited long enough. -/
theorem Serves.waits
    {since span : Nat}
    (serves : entry.Serves now request reply next)
    (asked : request = .wait since span)
    (inTime : next.state ≠ .timedOut) :
    next = entry ∧ (reply = .waited (some .timedOut) → entry.limitOf since span ≤ now) := by
  cases serves with
  | stays agrees refused incomplete _ waits =>
      obtain ⟨same, limit⟩ := waits since span asked
      exact ⟨same, fun answered => limit answered inTime⟩
  | accepts _ other | completes _ other | installs _ other | disables _ other =>
      exact Request.noConfusion (other.symm.trans asked)
  | givesUp _ agrees => exact absurd agrees.state inTime

end Call

/-! ## Any number of calls -/

theorem Collects.after
    {entry : Entry}
    {contributions : List (ProducerId × KeyFilter)}
    {installed : List KeyFilter}
    (collects : entry.Collects contributions installed)
    (calls : List Call) :
    (entry.after calls).Collects (contributions ++ entry.accepted calls) (installed ++ handed calls) := by
  induction calls generalizing entry contributions installed with
  | nil =>
      rw [accepted, handed, List.flatMap_nil, List.append_nil, List.append_nil]
      exact collects
  | cons call calls inductionHypothesis =>
      have further := inductionHypothesis (collects.serves (entry.serves_next call))
      rw [List.append_assoc, List.append_assoc] at further
      exact further

theorem descriptor_after
    (entry : Entry)
    (calls : List Call) :
    (entry.after calls).descriptor = entry.descriptor := by
  induction calls generalizing entry with
  | nil => rfl
  | cons call calls inductionHypothesis =>
      exact (inductionHypothesis (entry.next call)).trans (entry.serves_next call).descriptor

theorem deadline_after
    (entry : Entry)
    (calls : List Call) :
    (entry.after calls).deadline = entry.deadline := by
  induction calls generalizing entry with
  | nil => rfl
  | cons call calls inductionHypothesis =>
      exact (inductionHypothesis (entry.next call)).trans (entry.serves_next call).deadline

theorem state_after_of_resolved
    {entry : Entry}
    (resolved : entry.state ≠ .pending)
    (calls : List Call) :
    (entry.after calls).state = entry.state := by
  induction calls generalizing entry with
  | nil => rfl
  | cons call calls inductionHypothesis =>
      have same := ((entry.serves_next call).final resolved).1
      exact (inductionHypothesis (same ▸ resolved)).trans same

theorem countP_completes_of_resolved
    {entry : Entry}
    (resolved : entry.state ≠ .pending)
    (calls : List Call) :
    (entry.replies calls).countP Reply.completes = 0 := by
  induction calls generalizing entry with
  | nil => rfl
  | cons call calls inductionHypothesis =>
      have final := (entry.serves_next call).final resolved
      rw [replies, List.countP_cons_of_neg (by simp [final.2])]
      exact inductionHypothesis (final.1 ▸ resolved)

theorem countP_completes_le_one
    (entry : Entry)
    (calls : List Call) :
    (entry.replies calls).countP Reply.completes ≤ 1 := by
  induction calls generalizing entry with
  | nil => exact Nat.zero_le 1
  | cons call calls inductionHypothesis =>
      rw [replies]
      cases completes : (entry.replyTo call).completes with
      | false =>
          rw [List.countP_cons_of_neg (by simp [completes])]
          exact inductionHypothesis (entry.next call)
      | true =>
          obtain ⟨filter, completed⟩ := completes_iff.mp completes
          have arrived := ((entry.serves_next call).completed completed).2
          have resolved : (entry.next call).state ≠ .pending := arrived ▸ FilterState.noConfusion
          refine Nat.le_of_eq ?_
          rw [List.countP_cons_of_pos completes, countP_completes_of_resolved resolved]

/-- What was accepted was contributed. -/
theorem mem_of_mem_accepted
    {entry : Entry}
    {calls : List Call}
    {contribution : ProducerId × KeyFilter}
    (member : contribution ∈ entry.accepted calls) :
    ∃ call ∈ calls, call.request = .merge contribution.1 contribution.2 := by
  induction calls generalizing entry with
  | nil => exact absurd member List.not_mem_nil
  | cons call calls inductionHypothesis =>
      obtain here | there := List.mem_append.mp member
      · exact ⟨call, List.mem_cons_self, request_of_acceptance (Option.mem_toList.mp here)⟩
      · obtain ⟨other, inside, asked⟩ := inductionHypothesis there
        exact ⟨other, List.mem_cons_of_mem call inside, asked⟩

/-- What is said to be complete is there from then on. -/
theorem state_after_of_completed
    {entry : Entry}
    {calls : List Call}
    {filter : KeyFilter}
    (completed : .offered (.ok (.completed filter)) ∈ entry.replies calls) :
    (entry.after calls).state = .arrived filter := by
  induction calls generalizing entry with
  | nil => exact absurd completed List.not_mem_nil
  | cons call calls inductionHypothesis =>
      obtain here | there := List.mem_cons.mp completed
      · have arrived := ((entry.serves_next call).completed here.symm).2
        exact (state_after_of_resolved (arrived ▸ FilterState.noConfusion) calls).trans arrived
      · exact inductionHypothesis there

/-- A filter that arrived was handed over, or somebody was told that it is complete. -/
theorem completed_of_state_after
    {entry : Entry}
    {calls : List Call}
    {filter : KeyFilter}
    (pending : entry.state = .pending)
    (arrived : (entry.after calls).state = .arrived filter) :
    filter ∈ handed calls ∨ .offered (.ok (.completed filter)) ∈ entry.replies calls := by
  induction calls generalizing entry with
  | nil => exact FilterState.noConfusion (pending.symm.trans arrived)
  | cons call calls inductionHypothesis =>
      by_cases still : (entry.next call).state = .pending
      · exact (inductionHypothesis still arrived).imp (List.mem_append_right _)
          (List.mem_cons_of_mem _)
      · have now := (state_after_of_resolved still calls).symm.trans arrived
        refine ((entry.serves_next call).arrives pending now).2.imp (fun asked => ?_) fun completed =>
          List.mem_cons.mpr (.inl completed.symm)
        refine List.mem_flatMap.mpr ⟨call, List.mem_cons_self, ?_⟩
        rw [asked]
        exact List.mem_singleton_self filter

/-! ## Single assignment -/

/-- How calls at a fresh entry leave it, and what one call more does to it. -/
structure AssignedOnce (fresh : Entry) (calls : List Call) : Prop where
  /-- A resolved entry keeps its state, which holds the filter if it arrived. -/
  final : (fresh.after calls).state ≠ .pending → ∀ later,
    (fresh.after (calls ++ later)).state = (fresh.after calls).state
  /-- There is a filter exactly where the entry arrived, and it is the union of what all producers
  contributed or was handed over. -/
  published : ∀ filter, (fresh.after calls).published = some filter ↔
    (fresh.after calls).state = .arrived filter
  arrived : ∀ filter, (fresh.after calls).state = .arrived filter →
    (fresh.accepted calls).length = fresh.descriptor.producers ∧
      KeyFilter.mergeAll ((fresh.accepted calls).map Prod.snd) = .ok (some filter) ∨
    filter ∈ handed calls
  /-- No producer contributes twice. -/
  distinct : ((fresh.accepted calls).map Prod.fst).Nodup
  /-- A pending entry counts the producers that are missing and holds what the others contributed. -/
  pending : (fresh.after calls).state = .pending →
    (fresh.after calls).outstanding + (fresh.accepted calls).length = fresh.descriptor.producers ∧
      ((fresh.after calls).aggregate.isSome ↔ 1 ≤ (fresh.accepted calls).length)
  /-- An entry arrives before its deadline, with a filter that is handed over or completed. -/
  arrives : ∀ call filter,
    (fresh.after calls).state = .pending →
    ((fresh.after calls).next call).state = .arrived filter →
    call.now < fresh.deadline ∧
      (call.request = .publish filter ∨
        (fresh.after calls).replyTo call = .offered (.ok (.completed filter)))
  /-- A contribution completes the filter exactly when it is accepted as the last one. -/
  completes : ∀ call, ((fresh.after calls).replyTo call).completes = true ↔
    (acceptance call.request ((fresh.after calls).replyTo call)).isSome = true ∧
      (fresh.accepted calls).length + 1 = fresh.descriptor.producers
  /-- What is completed arrives. -/
  completed : ∀ call filter,
    (fresh.after calls).replyTo call = .offered (.ok (.completed filter)) →
    (fresh.after calls).state = .pending ∧ ((fresh.after calls).next call).state = .arrived filter
  /-- The filter is completed at most once. -/
  once : (fresh.replies calls).countP Reply.completes ≤ 1
  /-- A disabled entry has accepted nothing. -/
  disabled : (fresh.after calls).state = .disabled → fresh.accepted calls = []
  /-- Whoever reads the clock after the deadline leaves a resolved entry. -/
  resolves : ∀ call, (fresh.after calls).readsClock call.request → fresh.deadline ≤ call.now →
    ((fresh.after calls).next call).state ≠ .pending
  /-- Waiting alone changes nothing before the deadline, and ends no earlier than it was to. -/
  waits : ∀ call since span, call.request = .wait since span →
    ((fresh.after calls).next call).state ≠ .timedOut →
    (fresh.after calls).next call = fresh.after calls ∧
      ((fresh.after calls).replyTo call = .waited (some .timedOut) →
        (fresh.after calls).limitOf since span ≤ call.now)
  /-- So it is with a waiter whom nobody disturbs until he is answered. -/
  waited : ∀ since now span moment, (fresh.after calls).wait since now span = (.timedOut, moment) →
    ((fresh.after calls).seenAt moment).state ≠ .timedOut →
    (fresh.after calls).seenAt moment = fresh.after calls ∧
      (fresh.after calls).limitOf since span ≤ moment

/-- Calls at a fresh entry that expects producers assign it at most once. -/
theorem assignedOnce_of_calls
    (descriptor : FilterDescriptor)
    (expected : 1 ≤ descriptor.producers)
    (openedAt : Nat)
    (calls : List Call) :
    (Entry.start descriptor openedAt).AssignedOnce calls := by
  have collects := (collects_start expected openedAt).after calls
  rw [List.nil_append, List.nil_append] at collects
  have sameDescriptor := (Entry.start descriptor openedAt).descriptor_after calls
  have sameDeadline := (Entry.start descriptor openedAt).deadline_after calls
  set fresh := Entry.start descriptor openedAt
  set reached := fresh.after calls
  refine {
    final := fun resolved later => ?final
    published := fun filter => ?published
    arrived := sameDescriptor ▸ collects.arrived
    distinct := collects.distinct
    pending := fun pending => ⟨sameDescriptor ▸ collects.counted pending, ?held⟩
    arrives := fun call filter pending arrived =>
      sameDeadline ▸ (reached.serves_next call).arrives pending arrived
    completes := fun call =>
      sameDescriptor ▸ (reached.serves_next call).completes_iff_last collects
    completed := fun call filter completed => (reached.serves_next call).completed completed
    once := fresh.countP_completes_le_one calls
    disabled := collects.disabled
    resolves := fun call reads due =>
      (reached.serves_next call).resolves reads (sameDeadline ▸ due)
    waits := fun call since span asked inTime => (reached.serves_next call).waits asked inTime
    waited := fun since now span moment answered inTime => ?waited }
  case final =>
    rw [after_append]
    exact state_after_of_resolved resolved later
  case published =>
    unfold Entry.published
    cases reached.state <;> simp [FilterState.published]
  case held =>
    rw [KeyFilter.isSome_of_mergeAll (collects.merged pending)]
    simp [Nat.one_le_iff_ne_zero]
  case waited =>
    have reply := reached.reply_wait since now span
    rw [answered] at reply
    have unchanged := (reached.serves_next ⟨moment, .wait since span⟩).waits rfl inTime
    exact ⟨unchanged.1, unchanged.2 reply⟩

/-- An entry that expects two producers. -/
def sampleEntry : Entry :=
  Entry.start ⟨⟨7⟩, .minMax, "target", "build", 2, 100, false, 4096⟩ 0

/-- Two producers contribute, one of them twice, a waiter gives up between them, and somebody wants to
disable the entry when its deadline is over. -/
def sampleCalls : List Call :=
  [⟨10, .merge ⟨1⟩ (.range .empty)⟩, ⟨20, .merge ⟨1⟩ (.range .empty)⟩, ⟨30, .wait 5 20⟩,
    ⟨99, .merge ⟨2⟩ (.range .empty)⟩, ⟨100, .disable⟩]

theorem assignedOnce_of_sampleCalls :
    sampleEntry.AssignedOnce sampleCalls ∧
      (sampleEntry.after sampleCalls).state = .arrived (.range .empty) :=
  ⟨assignedOnce_of_calls _ (by decide) 0 _, by decide⟩

end Entry
end Spillway
