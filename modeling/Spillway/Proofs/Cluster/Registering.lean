import Spillway.Proofs.Cluster.Mirroring

/-!
# A subscription is sent once, whether it comes through or not

The first consumer of a filter that is resolved elsewhere has its worker subscribed. It is written down
before the subscription is sent, and stays written down if that fails. So the registration fails, but it
is not undone: every later one finds a consumer, succeeds and sends nothing, and the worker is never
subscribed.
-/

namespace Spillway
namespace Bank

/-! ## Registering over a line -/

/-- The consumer is written down. -/
def noted (bank : Bank) (consumer : ConsumerId) (filter : FilterId) : Bank :=
  { bank with consumers := bank.consumers.insert (filter, consumer) }

/-- Registers a consumer over a line that says of a message whether it was taken. -/
def registerOver
    (answer : Message → Except Status Unit)
    (now : Nat)
    (consumer : ConsumerId)
    (filter : FilterId) :
    Step Bank Unit := do
  let bank ← get
  let (message, noted) ← Step.ofExcept (bank.register now consumer filter)
  set noted
  match message with
  | none => return ()
  | some message => Step.ofExcept (answer message)

section Registering

variable {bank : Bank} {now : Nat} {consumer : ConsumerId} {filter : FilterId} {entry : Entry}

/-- Whether a registration has a subscription sent. -/
def Sends (bank : Bank) (now : Nat) (filter : FilterId) (entry : Entry) : Prop :=
  bank.hasConsumer filter = false ∧ entry.descriptor.isLocal = false ∧
    (entry.seenAt now).state = .pending

instance (bank : Bank) (now : Nat) (filter : FilterId) (entry : Entry) :
    Decidable (bank.Sends now filter entry) :=
  inferInstanceAs (Decidable (_ ∧ _ ∧ _))

theorem register_of_lookup
    (found : bank.entries.lookup filter = some entry) :
    bank.register now consumer filter =
      .ok (if bank.Sends now filter entry then some (bank.message (.subscribe filter bank.worker))
        else none, bank.noted consumer filter) := by
  rw [register, entry_of_lookup found]
  by_cases sends : bank.Sends now filter entry
  · have first : (!bank.hasConsumer filter) = true ∧ entry.descriptor.isLocal = false ∧
        (entry.seenAt now).state = .pending := ⟨by rw [sends.1]; rfl, sends.2⟩
    rw [if_pos sends]
    exact if_pos first
  · have notFirst : ¬ ((!bank.hasConsumer filter) = true ∧ entry.descriptor.isLocal = false ∧
        (entry.seenAt now).state = .pending) :=
      fun first => sends ⟨Bool.not_eq_true' _ ▸ first.1, first.2⟩
    rw [if_neg sends]
    exact if_neg notFirst

/-- A consumer is written down, whatever comes of the subscription. -/
theorem outcome_registerOver
    {answer : Message → Except Status Unit}
    (found : bank.entries.lookup filter = some entry) :
    (registerOver answer now consumer filter).outcome bank =
      (if bank.Sends now filter entry then answer (bank.message (.subscribe filter bank.worker))
        else .ok (), bank.noted consumer filter) := by
  simp only [Step.outcome_eq_iff_ends, registerOver, Step.ends_bind, Step.ends_get,
    Step.ends_ofExcept, register_of_lookup found, Except.ok.injEq, forall_eq', reduceCtorEq,
    false_imp_iff, implies_true, and_true, Step.ends_set]
  by_cases sends : bank.Sends now filter entry
  · rw [if_pos sends, if_pos sends, Step.ends_ofExcept]
    cases answer (bank.message (.subscribe filter bank.worker)) <;> simp
  · rw [if_neg sends, if_neg sends]
    exact (Step.ends_pure ()).mpr rfl

/-- A registration for an unknown filter fails and does nothing. -/
theorem registerOver_of_missing
    {status : Status}
    (refused : bank.register now consumer filter = .error status)
    (answer : Message → Except Status Unit) :
    (registerOver answer now consumer filter).outcome bank = (.error status, bank) := by
  simp [Step.outcome_eq_iff_ends, registerOver, Step.ends_bind, Step.ends_get, Step.ends_ofExcept,
    refused]

theorem register_of_missing (missing : bank.entries.lookup filter = none) :
    ∃ status, bank.register now consumer filter = .error status := by
  rw [register, Bank.entry, missing]
  exact ⟨_, rfl⟩

theorem hasConsumer_noted_iff
    {target : FilterId} :
    (bank.noted consumer target).hasConsumer filter = true ↔
      bank.hasConsumer filter = true ∨ target = filter := by
  rw [hasConsumer_iff, hasConsumer_iff]
  constructor
  · rintro ⟨other, member⟩
    rcases List.mem_insert_iff.mp member with new | old
    · exact .inr (congrArg Prod.fst new).symm
    · exact .inl ⟨other, old⟩
  · rintro (⟨other, old⟩ | rfl)
    · exact ⟨other, List.mem_insert_of_mem old⟩
    · exact ⟨consumer, List.mem_insert_self⟩

end Registering

/-! ## What happens to a bank -/

/-- What may happen to a bank. Of a registration it is given what the line says of a subscription, if
one is sent. -/
inductive Action where
  | register (consumer : ConsumerId) (filter : FilterId) (answer : Except Status Unit)
  | contribute (filter : FilterId) (producer : ProducerId) (contribution : KeyFilter)
  | receive (message : Message)
  | cancel

/-- What happens to a bank, and when. -/
structure Event where
  now : Nat
  action : Action

/-- What is done when something happens. -/
def Event.step (event : Event) : Step Bank Unit :=
  match event.action with
  | .register consumer filter answer => registerOver (fun _ => answer) event.now consumer filter
  | .contribute filter producer contribution =>
    Step.transition fun bank =>
      (bank.contribute event.now filter producer contribution).map fun result => ((), result.2)
  | .receive message =>
    Step.transition fun bank => (bank.receive event.now message).map fun next => ((), next)
  | .cancel => modify cancel

/-- Whether a consumer of the filter is registered. -/
def Event.Registers (filter : FilterId) (event : Event) : Prop :=
  ∃ consumer answer, event.action = .register consumer filter answer

/-- The bank after something has happened. -/
def next (bank : Bank) (event : Event) : Bank :=
  (event.step.outcome bank).2

/-- The bank after all that has happened. -/
def after (bank : Bank) (events : List Event) : Bank :=
  events.foldl next bank

/-- How a registration for the filter ends, if it is one. -/
def registration? (filter : FilterId) (bank : Bank) (event : Event) : Option (Except Status Unit) :=
  match event.action with
  | .register _ target _ => if target = filter then some (event.step.outcome bank).1 else none
  | _ => none

/-- What the line says of a subscription to the filter, if one is sent. -/
def subscription? (filter : FilterId) (bank : Bank) (event : Event) : Option (Except Status Unit) :=
  match event.action with
  | .register consumer target answer =>
    match bank.register event.now consumer target with
    | .ok (some message, _) =>
      if message.notice = .subscribe filter bank.worker then some answer else none
    | _ => none
  | _ => none

/-- How the registrations for the filter end, one after the other. -/
def registrations (filter : FilterId) : Bank → List Event → List (Except Status Unit)
  | _, [] => []
  | bank, event :: events =>
    (bank.registration? filter event).toList ++ (bank.next event).registrations filter events

/-- What the line says of the subscriptions to the filter, one after the other. -/
def subscriptions (filter : FilterId) : Bank → List Event → List (Except Status Unit)
  | _, [] => []
  | bank, event :: events =>
    (bank.subscription? filter event).toList ++ (bank.next event).subscriptions filter events

/-! ## What one event does -/

/-- A registration writes the consumer down, or it does nothing. -/
theorem next_register
    (bank : Bank)
    (now : Nat)
    (consumer : ConsumerId)
    (target : FilterId)
    (answer : Except Status Unit) :
    bank.next ⟨now, .register consumer target answer⟩ = bank.noted consumer target ∨
      bank.next ⟨now, .register consumer target answer⟩ = bank := by
  cases found : bank.entries.lookup target with
  | none =>
      obtain ⟨status, refused⟩ : ∃ status, bank.register now consumer target = .error status :=
        register_of_missing found
      exact .inr (congrArg Prod.snd (registerOver_of_missing refused fun _ => answer))
  | some entry => exact .inl (congrArg Prod.snd (outcome_registerOver found))

section Next

variable {bank : Bank} {filter : FilterId} {entry : Entry}

/-- An entry that is resolved elsewhere is only told of it, or cancelled. -/
theorem moves_next
    (found : bank.entries.lookup filter = some entry)
    (elsewhere : entry.descriptor.isLocal = false)
    (event : Event) :
    ∃ changed, (bank.next event).entries.lookup filter = some changed ∧
      entry.Moves (fun _ _ => False) (fun _ => True) event.now changed := by
  have same : ∀ {other : Bank}, other.entries = bank.entries →
      ∃ changed, other.entries.lookup filter = some changed ∧
        entry.Moves (fun _ _ => False) (fun _ => True) event.now changed :=
    fun entries => ⟨entry, entries ▸ found, .inl rfl⟩
  obtain ⟨now, action⟩ := event
  cases action with
  | register consumer target answer =>
      obtain noted | unchanged := bank.next_register now consumer target answer
      · exact same ((congrArg Bank.entries noted).trans rfl)
      · exact same (congrArg Bank.entries unchanged)
  | contribute target producer contribution =>
      show ∃ changed, ((Step.transition _).outcome bank).2.entries.lookup filter = some changed ∧ _
      rw [Step.outcome_transition]
      cases contributed : bank.contribute now target producer contribution with
      | error status => exact same rfl
      | ok result => exact ⟨entry, (lookup_of_contribute contributed found elsewhere).1, .inl rfl⟩
  | receive message =>
      show ∃ changed, ((Step.transition _).outcome bank).2.entries.lookup filter = some changed ∧ _
      rw [Step.outcome_transition]
      cases received : bank.receive now message with
      | error status => exact same rfl
      | ok next => exact moves_of_receive received (fun _ _ _ _ => trivial) found
  | cancel =>
      refine ⟨entry.cancel, ?_, .inr ⟨.cancel, .cancel, rfl⟩⟩
      show bank.entries.cancelAll.lookup filter = _
      rw [Entries.lookup_cancelAll, found]
      rfl

theorem consumers_of_contribute
    {now : Nat}
    {producer : ProducerId}
    {contribution : KeyFilter}
    {result : Option Message × Bank}
    (contributed : bank.contribute now filter producer contribution = .ok result) :
    result.2.consumers = bank.consumers := by
  simp only [contribute, bind_eq_ok_iff] at contributed
  obtain ⟨_, _, contributed⟩ := contributed
  split at contributed
  · simp only [bind_eq_ok_iff, mapError_eq_ok_iff] at contributed
    obtain ⟨_, _, contributed⟩ := contributed
    cases contributed
    rfl
  · split at contributed <;> cases contributed <;> rfl

/-- A registration for the filter sends a subscription or not, and ends accordingly. -/
theorem registers_of_lookup
    (found : bank.entries.lookup filter = some entry)
    (now : Nat)
    (consumer : ConsumerId)
    (answer : Except Status Unit) :
    bank.registration? filter ⟨now, .register consumer filter answer⟩ =
        some (if bank.Sends now filter entry then answer else .ok ()) ∧
      bank.subscription? filter ⟨now, .register consumer filter answer⟩ =
        (if bank.Sends now filter entry then some answer else none) ∧
      bank.next ⟨now, .register consumer filter answer⟩ = bank.noted consumer filter := by
  refine ⟨?_, ?_, congrArg Prod.snd (outcome_registerOver found)⟩
  · rw [registration?]
    dsimp only
    rw [if_pos rfl, Event.step, outcome_registerOver found]
  · rw [subscription?]
    dsimp only
    rw [register_of_lookup found]
    by_cases sends : bank.Sends now filter entry
    · rw [if_pos sends, if_pos sends]
      exact if_pos rfl
    · rw [if_neg sends, if_neg sends]

/-- Whatever else happens is no registration for the filter and sends no subscription to it. -/
theorem silent_of_not_registers
    {event : Event}
    (other : ¬ event.Registers filter) :
    bank.registration? filter event = none ∧ bank.subscription? filter event = none ∧
      ((bank.next event).hasConsumer filter = true ↔ bank.hasConsumer filter = true) := by
  obtain ⟨now, action⟩ := event
  cases action with
  | register consumer target answer =>
      have different : target ≠ filter := by
        rintro rfl
        exact other ⟨consumer, answer, rfl⟩
      refine ⟨if_neg different, ?_, ?_⟩
      · rw [subscription?]
        dsimp only
        split
        · next message after registered =>
          obtain ⟨worker, about⟩ := (entries_of_register registered).2 message rfl
          rw [about]
          exact if_neg fun same => different (Notice.subscribe.inj same).1
        · rfl
      · obtain noted | unchanged := bank.next_register now consumer target answer
        · rw [noted, hasConsumer_noted_iff]
          simp [different]
        · rw [unchanged]
  | contribute target producer contribution =>
      refine ⟨rfl, rfl, ?_⟩
      show Bank.hasConsumer ((Step.transition _).outcome bank).2 filter = true ↔ _
      rw [Step.outcome_transition]
      cases contributed : bank.contribute now target producer contribution with
      | error status => exact Iff.rfl
      | ok result =>
          show result.2.hasConsumer filter = true ↔ _
          rw [hasConsumer, consumers_of_contribute contributed]
          rfl
  | receive message =>
      refine ⟨rfl, rfl, ?_⟩
      show Bank.hasConsumer ((Step.transition _).outcome bank).2 filter = true ↔ _
      rw [Step.outcome_transition]
      cases received : bank.receive now message with
      | error status => exact Iff.rfl
      | ok next =>
          show next.hasConsumer filter = true ↔ _
          rw [hasConsumer, (sameOwner_of_receive received).consumers]
          rfl
  | cancel => exact ⟨rfl, rfl, Iff.rfl⟩

end Next

/-! ## All registrations for a filter -/

/-- How a bank stands to the registrations for a filter so far, and to the subscriptions that were sent
for them. -/
structure Registered
    (filter : FilterId)
    (bank : Bank)
    (moment : Nat)
    (results answers : List (Except Status Unit)) :
    Prop where
  known : ∃ entry, bank.entries.lookup filter = some entry ∧ entry.descriptor.isLocal = false
  consumers : bank.hasConsumer filter = true ↔ results ≠ []
  /-- No registration fails but the first. -/
  later : ∀ result ∈ results.tail, result = .ok ()
  /-- A subscription was sent for the first registration, which has ended accordingly, or the filter was
  resolved before it. -/
  sent : answers = results.take 1 ∨
    answers = [] ∧ (∀ result ∈ results, result = .ok ()) ∧
      bank.entries.seen? moment filter ≠ some .pending

section Registered

variable {filter : FilterId} {bank : Bank} {moment : Nat} {results answers : List (Except Status Unit)}

/-- Time alone does not make a filter pending again. -/
theorem Registered.wait
    {later : Nat}
    (registered : Registered filter bank moment results answers)
    (after : moment ≤ later) :
    Registered filter bank later results answers where
  known := registered.known
  consumers := registered.consumers
  later := registered.later
  sent := by
    refine registered.sent.imp_right fun ⟨nothing, fine, resolved⟩ => ⟨nothing, fine, ?_⟩
    obtain ⟨entry, found, _⟩ := registered.known
    rw [Entries.seen?, found, Option.map_some, Ne, Option.some.injEq] at resolved ⊢
    rwa [Entry.state_seenAt_of_le resolved after]

/-- Nor does anything that happens. -/
theorem resolved_next
    {event : Event}
    (known : ∃ entry, bank.entries.lookup filter = some entry ∧ entry.descriptor.isLocal = false)
    (resolved : bank.entries.seen? event.now filter ≠ some .pending) :
    (bank.next event).entries.seen? event.now filter ≠ some .pending := by
  obtain ⟨entry, found, elsewhere⟩ := known
  obtain ⟨changed, there, moves⟩ := moves_next found elsewhere event
  rw [Entries.seen?, found, Option.map_some, Ne, Option.some.injEq] at resolved
  rwa [Entries.seen?, there, Option.map_some, Ne, Option.some.injEq, moves.seen resolved]

theorem known_next
    (known : ∃ entry, bank.entries.lookup filter = some entry ∧ entry.descriptor.isLocal = false)
    (event : Event) :
    ∃ entry, (bank.next event).entries.lookup filter = some entry ∧
      entry.descriptor.isLocal = false := by
  obtain ⟨entry, found, elsewhere⟩ := known
  obtain ⟨changed, there, moves⟩ := moves_next found elsewhere event
  exact ⟨changed, there, moves.descriptor ▸ elsewhere⟩

/-- The first registration sends a subscription if the filter is pending. -/
theorem Registered.first
    {now : Nat}
    {consumer : ConsumerId}
    {answer : Except Status Unit}
    (registered : Registered filter bank now [] []) :
    Registered filter (bank.next ⟨now, .register consumer filter answer⟩) now
      (bank.registration? filter ⟨now, .register consumer filter answer⟩).toList
      (bank.subscription? filter ⟨now, .register consumer filter answer⟩).toList := by
  obtain ⟨entry, found, elsewhere⟩ := registered.known
  obtain ⟨result, sends, noted⟩ := registers_of_lookup found now consumer answer
  have unconsumed : bank.hasConsumer filter = false := by
    rw [← Bool.not_eq_true, registered.consumers]
    exact not_not.mpr rfl
  rw [result, sends, noted]
  constructor
  · exact registered.known
  · exact iff_of_true (hasConsumer_noted_iff.mpr (.inr rfl)) (List.cons_ne_nil _ _)
  · exact fun _ member => absurd member List.not_mem_nil
  · by_cases asks : bank.Sends now filter entry
    · rw [if_pos asks, if_pos asks]
      exact .inl rfl
    · rw [if_neg asks, if_neg asks]
      refine .inr ⟨rfl, fun _ member => List.mem_singleton.mp member, ?_⟩
      show bank.entries.seen? now filter ≠ _
      rw [Entries.seen?, found, Option.map_some, Ne, Option.some.injEq]
      exact fun pending => asks ⟨unconsumed, elsewhere, pending⟩

/-- Any other registration succeeds and sends nothing. -/
theorem Registered.further
    {now : Nat}
    {consumer : ConsumerId}
    {answer : Except Status Unit}
    (registered : Registered filter bank now results answers)
    (some : results ≠ []) :
    bank.registration? filter ⟨now, .register consumer filter answer⟩ = .some (.ok ()) ∧
      bank.subscription? filter ⟨now, .register consumer filter answer⟩ = none ∧
        Registered filter (bank.next ⟨now, .register consumer filter answer⟩) now
          (results ++ [.ok ()]) answers := by
  obtain ⟨entry, found, elsewhere⟩ := registered.known
  obtain ⟨result, sends, noted⟩ := registers_of_lookup found now consumer answer
  have passed : ¬ bank.Sends now filter entry := fun asks =>
    Bool.false_ne_true (asks.1.symm.trans (registered.consumers.mpr some))
  rw [if_neg passed] at result sends
  refine ⟨result, sends, ?_⟩
  rw [noted]
  constructor
  · exact registered.known
  · exact iff_of_true (hasConsumer_noted_iff.mpr (.inr rfl)) (List.append_ne_nil_of_left_ne_nil some _)
  · rw [List.tail_append_of_ne_nil some]
    intro result member
    exact (List.mem_append.mp member).elim (registered.later result) List.mem_singleton.mp
  · rcases registered.sent with first | ⟨nothing, fine, resolved⟩
    · left
      rw [first, List.take_append_of_le_length (List.length_pos_iff.mpr some)]
    · refine .inr ⟨nothing, ?_, resolved⟩
      intro result member
      exact (List.mem_append.mp member).elim (fine result) List.mem_singleton.mp

theorem Registered.next
    (event : Event)
    (registered : Registered filter bank event.now results answers) :
    Registered filter (bank.next event) event.now
      (results ++ (bank.registration? filter event).toList)
      (answers ++ (bank.subscription? filter event).toList) := by
  by_cases registers : event.Registers filter
  · obtain ⟨now, action⟩ := event
    obtain ⟨consumer, answer, rfl⟩ := registers
    by_cases none : results = []
    · subst none
      obtain rfl : answers = [] := registered.sent.elim id And.left
      exact registered.first
    · obtain ⟨result, sends, after⟩ := registered.further none
      rw [result, sends, Option.toList_none, List.append_nil]
      exact after
  · obtain ⟨result, sends, consumers⟩ := silent_of_not_registers registers
    rw [result, sends, Option.toList_none, List.append_nil, List.append_nil]
    exact {
      known := known_next registered.known event
      consumers := consumers.trans registered.consumers
      later := registered.later
      sent := registered.sent.imp_right fun ⟨nothing, fine, resolved⟩ =>
        ⟨nothing, fine, resolved_next registered.known resolved⟩ }

/-- Events that come in the order of their moments. -/
theorem Registered.after
    {events : List Event}
    {now : Nat}
    (registered : Registered filter bank moment results answers)
    (inOrder : (moment :: (events.map Event.now ++ [now])).IsChain (· ≤ ·)) :
    Registered filter (bank.after events) now (results ++ bank.registrations filter events)
      (answers ++ bank.subscriptions filter events) := by
  induction events generalizing bank moment results answers with
  | nil =>
      have forward : moment ≤ now := (List.isChain_cons_cons.mp inOrder).1
      rw [registrations, subscriptions, List.append_nil, List.append_nil]
      exact registered.wait forward
  | cons event events inductionHypothesis =>
      obtain ⟨forward, inOrder⟩ := List.isChain_cons_cons.mp inOrder
      have rest := inductionHypothesis ((registered.wait forward).next event) inOrder
      rw [registrations, subscriptions, ← List.append_assoc, ← List.append_assoc]
      exact rest

theorem registrations_append
    (bank : Bank)
    (events more : List Event) :
    bank.registrations filter (events ++ more) =
      bank.registrations filter events ++ (bank.after events).registrations filter more := by
  induction events generalizing bank with
  | nil => rfl
  | cons event events inductionHypothesis =>
      rw [List.cons_append, registrations, registrations, inductionHypothesis, List.append_assoc]
      rfl

theorem subscriptions_append
    (bank : Bank)
    (events more : List Event) :
    bank.subscriptions filter (events ++ more) =
      bank.subscriptions filter events ++ (bank.after events).subscriptions filter more := by
  induction events generalizing bank with
  | nil => rfl
  | cons event events inductionHypothesis =>
      rw [List.cons_append, subscriptions, subscriptions, inductionHypothesis, List.append_assoc]
      rfl

/-- Once a registration has failed, no subscription is ever taken. -/
theorem Registered.lost
    {status : Status}
    (registered : Registered filter bank moment results answers)
    (failed : .error status ∈ results) :
    .ok () ∉ answers := by
  rcases registered.sent with first | ⟨_, fine, _⟩
  · cases results with
    | nil => exact absurd failed List.not_mem_nil
    | cons result rest =>
        rcases List.mem_cons.mp failed with rfl | later
        · rw [first]
          simp
        · cases registered.later _ later
  · cases fine _ failed

/-- While the filter is pending, a subscription has been taken exactly if no registration has failed. -/
theorem Registered.subscribed
    (registered : Registered filter bank moment results answers)
    (some : results ≠ [])
    (pending : bank.entries.seen? moment filter = .some .pending) :
    .ok () ∈ answers ↔ ∀ result ∈ results, result = .ok () := by
  have first := registered.sent.resolve_right fun ⟨_, _, resolved⟩ => resolved pending
  cases results with
  | nil => exact absurd rfl some
  | cons result rest =>
      rw [first]
      simp only [List.take_succ_cons, List.take_zero, List.mem_singleton, List.forall_mem_cons]
      constructor
      · intro taken
        exact ⟨taken.symm, registered.later⟩
      · intro fine
        exact fine.1.symm

end Registered

/-! ## What a registration comes to -/

/-- All that has happened, and then a registration. -/
def andRegister
    (events : List Event)
    (now : Nat)
    (consumer : ConsumerId)
    (filter : FilterId)
    (answer : Except Status Unit) :
    List Event :=
  events ++ [⟨now, .register consumer filter answer⟩]

/-- What a registration comes to after all that has happened. -/
def attempt
    (opened : Bank)
    (events : List Event)
    (now : Nat)
    (consumer : ConsumerId)
    (filter : FilterId)
    (answer : Except Status Unit) :
    Except Status Unit × Bank :=
  (registerOver (fun _ => answer) now consumer filter).outcome (opened.after events)

/-- A registration that fails leaves no consumer behind, and one that succeeds while the filter is
pending has the worker subscribed. -/
def Retriable
    (opened : Bank)
    (events : List Event)
    (now : Nat)
    (consumer : ConsumerId)
    (filter : FilterId)
    (answer : Except Status Unit) :
    Prop :=
  (∀ status, (opened.attempt events now consumer filter answer).1 = .error status →
    (opened.attempt events now consumer filter answer).2.consumers =
      (opened.after events).consumers) ∧
    ((opened.attempt events now consumer filter answer).1 = .ok () →
      (opened.after events).entries.seen? now filter = some .pending →
        .ok () ∈ opened.subscriptions filter (andRegister events now consumer filter answer))

/-- What a registration comes to at a bank to which something has happened since it was opened. -/
structure RegistersOnce
    (opened : Bank)
    (events : List Event)
    (now : Nat)
    (consumer : ConsumerId)
    (filter : FilterId)
    (answer : Except Status Unit) :
    Prop where
  /-- A registration fails exactly if it is the first one, the filter is pending, and the subscription is
  not taken. -/
  fails : ∀ status, (opened.attempt events now consumer filter answer).1 = .error status ↔
    opened.registrations filter events = [] ∧
      (opened.after events).entries.seen? now filter = some .pending ∧ answer = .error status
  /-- The consumer is written down, even if the registration fails. -/
  noted : (opened.attempt events now consumer filter answer).2 =
    (opened.after events).noted consumer filter
  /-- All that is ever sent is sent for the first registration, which ends as the line answers. -/
  once : opened.subscriptions filter (andRegister events now consumer filter answer) = [] ∨
    opened.subscriptions filter (andRegister events now consumer filter answer) =
      (opened.registrations filter (andRegister events now consumer filter answer)).take 1
  /-- Once a registration has failed, no subscription is ever taken. -/
  lost : ∀ status,
    .error status ∈ opened.registrations filter (andRegister events now consumer filter answer) →
      .ok () ∉ opened.subscriptions filter (andRegister events now consumer filter answer)
  /-- While the filter is pending, a subscription has been taken exactly if no registration has
  failed. -/
  subscribed : (opened.after events).entries.seen? now filter = some .pending →
    (.ok () ∈ opened.subscriptions filter (andRegister events now consumer filter answer) ↔
      ∀ result ∈ opened.registrations filter (andRegister events now consumer filter answer),
        result = .ok ())

/-- Whatever has happened to a bank, a registration succeeds or fails together with the only
subscription that is ever sent. -/
theorem registersOnce_of_events
    {opened : Bank}
    {filter : FilterId}
    {entry : Entry}
    {events : List Event}
    {openedAt now : Nat}
    (found : opened.entries.lookup filter = some entry)
    (elsewhere : entry.descriptor.isLocal = false)
    (untouched : opened.hasConsumer filter = false)
    (inOrder : (openedAt :: (events.map Event.now ++ [now])).IsChain (· ≤ ·))
    (consumer : ConsumerId)
    (answer : Except Status Unit) :
    RegistersOnce opened events now consumer filter answer := by
  have fresh : Registered filter opened openedAt [] [] := {
    known := ⟨entry, found, elsewhere⟩
    consumers := iff_of_false (Bool.eq_false_iff.mp untouched) (not_not.mpr rfl)
    later := fun _ member => absurd member List.not_mem_nil
    sent := .inl rfl }
  have before := fresh.after inOrder
  simp only [List.nil_append] at before
  obtain ⟨current, there, remote⟩ := before.known
  obtain ⟨result, _, noted⟩ := registers_of_lookup there now consumer answer
  have after : Registered filter ((opened.after events).noted consumer filter) now
      (opened.registrations filter (andRegister events now consumer filter answer))
      (opened.subscriptions filter (andRegister events now consumer filter answer)) := by
    have next := before.next ⟨now, .register consumer filter answer⟩
    rw [noted] at next
    simpa only [andRegister, registrations_append, subscriptions_append, registrations,
      subscriptions, List.append_nil] using next
  have asks : (opened.after events).Sends now filter current ↔
      opened.registrations filter events = [] ∧
        (opened.after events).entries.seen? now filter = some .pending := by
    rw [Sends, ← Bool.not_eq_true, before.consumers, not_not, Entries.seen?, there, Option.map_some,
      Option.some.injEq]
    exact ⟨fun sends => ⟨sends.1, sends.2.2⟩, fun first => ⟨first.1, remote, first.2⟩⟩
  constructor
  · intro status
    rw [attempt, outcome_registerOver there]
    by_cases sends : (opened.after events).Sends now filter current
    · rw [if_pos sends]
      obtain ⟨first, pending⟩ := asks.mp sends
      simp [first, pending]
    · rw [if_neg sends]
      constructor
      · intro failed
        cases failed
      · rintro ⟨first, pending, _⟩
        exact absurd (asks.mpr ⟨first, pending⟩) sends
  · rw [attempt, outcome_registerOver there]
  · exact after.sent.symm.imp_left And.left
  · exact fun status failed => after.lost failed
  · intro pending
    refine after.subscribed ?_ pending
    rw [andRegister, registrations_append, registrations, result]
    simp

/-! ## A subscription that is not taken -/

/-- The bank of a worker that is opened before the coordinator. -/
def sampleBank : Bank :=
  start ⟨1⟩ ⟨1, 2⟩ .everywhere [Cluster.sampleDescriptor] 5

/-- A consumer registers, but there is no coordinator yet. -/
def lostEvents : List Event :=
  [⟨10, .register ⟨3⟩ ⟨7⟩ (.error Network.noCoordinator)⟩]

theorem lookup_sampleBank :
    sampleBank.entries.lookup ⟨7⟩ = some (Entry.start Cluster.sampleDescriptor 5) := by
  decide

theorem registersOnce_of_lostEvents :
    RegistersOnce sampleBank lostEvents 20 ⟨4⟩ ⟨7⟩ (.ok ()) ∧
      sampleBank.registrations ⟨7⟩ lostEvents = [.error Network.noCoordinator] ∧
      (sampleBank.after lostEvents).entries.seen? 20 ⟨7⟩ = some .pending :=
  ⟨registersOnce_of_events lookup_sampleBank rfl rfl
      (show [5, 10, 20].IsChain (· ≤ ·) from by decide) ⟨4⟩ (.ok ()),
    by decide, by decide⟩

/-- The registration that fails leaves its consumer behind, and the next one succeeds though nothing was
taken. -/
theorem not_retriable_lostEvents :
    ¬ Retriable sampleBank [] 10 ⟨3⟩ ⟨7⟩ (.error Network.noCoordinator) ∧
      ¬ Retriable sampleBank lostEvents 20 ⟨4⟩ ⟨7⟩ (.ok ()) := by
  constructor
  · intro retriable
    exact absurd (retriable.1 Network.noCoordinator rfl) (by decide)
  · intro retriable
    exact absurd (retriable.2 rfl (by decide)) (by decide)

end Bank
end Spillway
