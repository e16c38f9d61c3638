import Mathlib.Logic.Relation
import Spillway.Cluster.Network
import Spillway.Proofs.Cluster.Agreement
import Spillway.Proofs.Cluster.Announcements

/-!
# Calls in a network

A call at a bank sends at most one message, and it is delivered before the call returns: the coordinator
takes it and sends its own messages, which are delivered to other banks and perhaps to the one that is
still busy. Whatever the nesting, a call comes down to few changes, one after the other: a bank does
something of its own, the coordinator does, and every bank hears what is meant for its worker.
-/

namespace Spillway

/-- The worker that sends a notice to the coordinator. -/
def Notice.sender? : Notice → Option WorkerId
  | contribution _ worker _ _ => some worker
  | subscribe _ worker => some worker
  | _ => none

namespace Bank

/-! ## Letters to a bank -/

/-- What a letter does to a bank. One for another worker does nothing, nor does one that is refused. -/
def hear (now : Nat) (bank : Bank) (letter : WorkerId × Message) : Bank :=
  if letter.1 = bank.worker then (bank.receive now letter.2).toOption.getD bank else bank

/-- What letters do to a bank, one after the other. -/
def hearAll (now : Nat) (bank : Bank) (mail : Mail) : Bank :=
  mail.foldl (hear now) bank

/-- The banks are of one worker, for one query. -/
structure SameWorker (before after : Bank) : Prop where
  worker : after.worker = before.worker
  query : after.query = before.query

/-- The banks have the same consumers, too. -/
structure SameOwner (before after : Bank) : Prop extends before.SameWorker after where
  consumers : after.consumers = before.consumers

theorem SameOwner.refl (bank : Bank) : bank.SameOwner bank :=
  ⟨⟨rfl, rfl⟩, rfl⟩

theorem SameOwner.trans
    {first second third : Bank}
    (one : first.SameOwner second)
    (another : second.SameOwner third) :
    first.SameOwner third where
  worker := another.worker.trans one.worker
  query := another.query.trans one.query
  consumers := another.consumers.trans one.consumers

variable {now : Nat} {bank after : Bank}

theorem sameOwner_of_receive
    {message : Message}
    (received : bank.receive now message = .ok after) :
    bank.SameOwner after := by
  unfold receive at received
  split at received
  · cases received
  · split at received
    · simp only [bind_eq_ok_iff, pure_eq_ok_iff] at received
      obtain ⟨_, _, _, _, rfl⟩ := received
      exact ⟨⟨rfl, rfl⟩, rfl⟩
    · simp only [bind_eq_ok_iff, pure_eq_ok_iff] at received
      obtain ⟨_, _, rfl⟩ := received
      exact ⟨⟨rfl, rfl⟩, rfl⟩
    · simp only [bind_eq_ok_iff, pure_eq_ok_iff] at received
      obtain ⟨_, _, rfl⟩ := received
      exact ⟨⟨rfl, rfl⟩, rfl⟩
    · cases received
      exact ⟨⟨rfl, rfl⟩, rfl⟩
    · cases received

/-- A letter does nothing, or it is one for the worker that the bank takes. -/
theorem hear_cases
    (now : Nat)
    (bank : Bank)
    (letter : WorkerId × Message) :
    bank.hear now letter = bank ∨
      letter.1 = bank.worker ∧ bank.receive now letter.2 = .ok (bank.hear now letter) := by
  unfold hear
  split
  · next mine =>
    cases received : bank.receive now letter.2 with
    | ok after => exact .inr ⟨mine, rfl⟩
    | error status => exact .inl rfl
  · exact .inl rfl

theorem sameOwner_hear
    (now : Nat)
    (bank : Bank)
    (letter : WorkerId × Message) :
    bank.SameOwner (bank.hear now letter) := by
  obtain same | ⟨_, received⟩ := bank.hear_cases now letter
  · rw [same]
    exact .refl bank
  · exact sameOwner_of_receive received

theorem sameOwner_hearAll
    (now : Nat)
    (bank : Bank)
    (mail : Mail) :
    bank.SameOwner (bank.hearAll now mail) := by
  induction mail generalizing bank with
  | nil => exact .refl bank
  | cons letter mail inductionHypothesis =>
      exact (bank.sameOwner_hear now letter).trans (inductionHypothesis _)

/-- What a bank does on its own account, and the message that it sends for it. -/
def Acts (now : Nat) (bank : Bank) (message : Option Message) (after : Bank) : Prop :=
  (∃ consumer filter, bank.register now consumer filter = .ok (message, after)) ∨
    ∃ filter producer contribution,
      bank.contribute now filter producer contribution = .ok (message, after)

/-- A bank that acts stays the bank of its worker. -/
theorem sameWorker_of_acts
    {message : Option Message}
    (acts : bank.Acts now message after) :
    bank.SameWorker after := by
  obtain ⟨consumer, filter, registered⟩ | ⟨filter, producer, contribution, contributed⟩ := acts
  · simp only [register, bind_eq_ok_iff] at registered
    obtain ⟨_, _, registered⟩ := registered
    split at registered
    · cases registered
      exact ⟨rfl, rfl⟩
    · cases registered
      exact ⟨rfl, rfl⟩
  · simp only [contribute, bind_eq_ok_iff] at contributed
    obtain ⟨_, _, contributed⟩ := contributed
    split at contributed
    · simp only [bind_eq_ok_iff, mapError_eq_ok_iff] at contributed
      obtain ⟨_, _, contributed⟩ := contributed
      cases contributed
      exact ⟨rfl, rfl⟩
    · split at contributed
      · cases contributed
        exact ⟨rfl, rfl⟩
      · cases contributed
        exact ⟨rfl, rfl⟩

end Bank

namespace Network

/-! ## Posts -/

/-- Every bank is used, and is the only one of its worker. -/
structure Joined (network : Network) : Prop where
  present : ∀ position bank, network.bank? position = some bank →
    network.posts[position]?.any Post.present = true
  distinct : ∀ position other bank another, network.bank? position = some bank →
    network.bank? other = some another → bank.worker = another.worker → position = other

theorem bank?_setBank
    (network : Network)
    (position other : Nat)
    (bank : Bank) :
    (network.setBank position bank).bank? other =
      (network.bank? other).map fun old => if position = other then bank else old := by
  unfold bank? setBank
  rw [Array.getElem?_modify]
  split
  · rw [Option.map_map, Option.map_map]
    rfl
  · rw [Option.map_map]
    rfl

theorem present_setBank
    (network : Network)
    (position other : Nat)
    (bank : Bank) :
    (network.setBank position bank).posts[other]?.any Post.present =
      network.posts[other]?.any Post.present := by
  unfold setBank
  rw [Array.getElem?_modify]
  split
  · cases network.posts[other]? <;> rfl
  · rfl

section Joined

variable {network : Network} {position : Nat} {bank after : Bank} {worker : WorkerId}

/-- A bank that is found in the place of another one of the same worker is put there. -/
theorem Joined.setBank
    (joined : network.Joined)
    (found : network.bank? position = some bank)
    (same : after.worker = bank.worker) :
    (network.setBank position after).Joined := by
  have before : ∀ {other held}, (network.setBank position after).bank? other = some held →
      ∃ old, network.bank? other = some old ∧ old.worker = held.worker := by
    intro other held looked
    rw [bank?_setBank] at looked
    obtain ⟨old, there, rfl⟩ := Option.map_eq_some_iff.mp looked
    refine ⟨old, there, ?_⟩
    split
    · next here =>
      subst here
      cases there.symm.trans found
      exact same.symm
    · rfl
  constructor
  · intro other held looked
    obtain ⟨old, there, _⟩ := before looked
    rw [present_setBank]
    exact joined.present other old there
  · intro first second held another looked alsoLooked equal
    obtain ⟨old, there, worker⟩ := before looked
    obtain ⟨older, alsoThere, alsoWorker⟩ := before alsoLooked
    exact joined.distinct first second old older there alsoThere
      (worker.trans (equal.trans alsoWorker.symm))

/-- What is sent to a worker comes to a bank of its. -/
theorem bank?_of_presentPosition? (found : network.presentPosition? worker = some position) :
    ∃ bank, network.bank? position = some bank ∧ bank.worker = worker := by
  obtain ⟨found, _⟩ := Option.filter_eq_some_iff.mp found
  have named := List.find?_some found
  obtain ⟨post, there, named⟩ := (Option.any_eq_true _ _).mp named
  exact ⟨post.bank, by rw [bank?, there, Option.map_some], of_decide_eq_true named⟩

/-- What is sent to the worker of a bank comes to the bank. -/
theorem Joined.presentPosition?
    (joined : network.Joined)
    (found : network.bank? position = some bank) :
    network.presentPosition? bank.worker = some position := by
  have named : ∀ {other held}, network.bank? other = some held →
      network.posts[other]?.any (fun post => post.bank.worker = held.worker) = true := by
    intro other held looked
    obtain ⟨post, there, rfl⟩ := Option.map_eq_some_iff.mp looked
    rw [there]
    exact decide_eq_true rfl
  have inside : position < network.posts.size := by
    obtain ⟨post, there, _⟩ := Option.map_eq_some_iff.mp found
    exact (Array.getElem?_eq_some_iff.mp there).1
  cases located : network.position? bank.worker with
  | none =>
      have nowhere := List.find?_eq_none.mp located position
        (List.mem_reverse.mpr (List.mem_range.mpr inside))
      exact absurd (named found) nowhere
  | some other =>
      have here := List.find?_some located
      obtain ⟨post, there, sameWorker⟩ := (Option.any_eq_true _ _).mp here
      have alsoFound : network.bank? other = some post.bank := by
        rw [bank?, there, Option.map_some]
      obtain rfl := joined.distinct position other bank post.bank found alsoFound
        (of_decide_eq_true sameWorker).symm
      unfold Network.presentPosition?
      rw [located, Option.filter_some, if_pos (joined.present position bank found)]

/-- The parties of a query as they are opened, at moments of their own, and joined. -/
structure Opened
    (query : QueryId)
    (mode : FilterMode)
    (descriptors : List FilterDescriptor)
    (network : Network) :
    Prop where
  coordinator : ∃ coordinator since, network.coordinator = some coordinator ∧ since ≤ network.clock ∧
    Coordinator.start query mode descriptors since = .ok coordinator
  banks : ∀ position bank, network.bank? position = some bank →
    ∃ since, since ≤ network.clock ∧ bank = Bank.start bank.worker query mode descriptors since
  joined : network.Joined

/-! ## Letters -/

/-- A worker has sent the coordinator something. -/
def HasWritten (network : Network) (worker : WorkerId) : Prop :=
  ∃ delivery ∈ network.deliveries, delivery.receiver = .coordinator ∧
    delivery.message.notice.sender? = some worker

/-- All that letters of the coordinator change: every bank hears them, and the coordinator counts those
that were not taken. -/
structure Hears (before after : Network) (mail : Mail) : Prop where
  clock : after.clock = before.clock
  coordinator : ∃ failures, after.coordinator = before.coordinator.map (·.noteFailures failures)
  banks : ∀ position, after.bank? position =
    (before.bank? position).map fun bank => bank.hearAll before.clock mail
  joined : after.Joined
  written : ∀ worker, after.HasWritten worker ↔ before.HasWritten worker

instance (network : Network) (worker : WorkerId) : Decidable (network.HasWritten worker) :=
  inferInstanceAs (Decidable (∃ delivery ∈ network.deliveries, delivery.receiver = .coordinator ∧
    delivery.message.notice.sender? = some worker))

theorem Hears.nil (joined : network.Joined) : Hears network network [] where
  clock := rfl
  coordinator := ⟨0, Option.map_id'.symm⟩
  banks _ := Option.map_id'.symm
  joined := joined
  written _ := .rfl

theorem Hears.trans
    {first second third : Network}
    {mail more : Mail}
    (one : Hears first second mail)
    (another : Hears second third more) :
    Hears first third (mail ++ more) where
  clock := another.clock.trans one.clock
  coordinator := by
    obtain ⟨failures, counted⟩ := one.coordinator
    obtain ⟨others, alsoCounted⟩ := another.coordinator
    refine ⟨failures + others, ?_⟩
    rw [alsoCounted, counted, Option.map_map]
    simp only [Function.comp_def, Coordinator.noteFailures, Nat.add_assoc]
  banks position := by
    rw [another.banks, one.banks, Option.map_map, one.clock]
    congr 1
    funext bank
    exact List.foldl_append.symm
  joined := another.joined
  written worker := (another.written worker).trans (one.written worker)

/-- Posts that are in place when a letter is written down stay so. -/
theorem Joined.of_bank?
    (joined : network.Joined)
    {after : Network}
    (posts : after.posts = network.posts) :
    after.Joined := by
  obtain ⟨present, distinct⟩ := joined
  unfold Network.bank? at present distinct
  rw [← posts] at present distinct
  exact ⟨present, distinct⟩

/-- A letter is taken by the bank of its worker, or it is refused and no bank hears anything. -/
theorem Joined.handToWorker_cases
    (joined : network.Joined)
    (worker : WorkerId)
    (message : Message) :
    (∃ position bank after, network.bank? position = some bank ∧ bank.worker = worker ∧
      bank.receive network.clock message = .ok after ∧
      network.handToWorker worker message = .ok (network.setBank position after)) ∨
    ∃ status, network.handToWorker worker message = .error status ∧
      ∀ position bank, network.bank? position = some bank →
        bank.hear network.clock (worker, message) = bank := by
  unfold handToWorker
  cases located : network.presentPosition? worker with
  | none =>
      refine .inr ⟨_, rfl, fun position bank found => if_neg ?_⟩
      rintro rfl
      cases located.symm.trans (joined.presentPosition? found)
  | some position =>
      obtain ⟨bank, there, named⟩ := bank?_of_presentPosition? located
      dsimp only
      rw [there]
      dsimp only
      cases received : bank.receive network.clock message with
      | ok after => exact .inl ⟨position, bank, after, there, named, received, rfl⟩
      | error status =>
          refine .inr ⟨status, rfl, fun other another found => ?_⟩
          obtain same | ⟨mine, taken⟩ := another.hear_cases network.clock (worker, message)
          · exact same
          · obtain rfl := joined.distinct position other bank another there found (named.trans mine)
            cases there.symm.trans found
            cases received.symm.trans taken

theorem Joined.hears_sendToWorker
    (joined : network.Joined)
    (worker : WorkerId)
    (message : Message) :
    Hears network (network.sendToWorker worker message) [(worker, message)] := by
  have written : ∀ {failure : Option Status} {other : WorkerId},
      (∃ delivery ∈ (⟨.worker worker, message, failure⟩ : Delivery) :: network.deliveries,
        delivery.receiver = .coordinator ∧ delivery.message.notice.sender? = some other) ↔
      network.HasWritten other := by
    intro failure other
    simp [HasWritten]
  unfold sendToWorker
  obtain ⟨position, bank, after, found, named, received, handed⟩ | ⟨status, handed, unheard⟩ :=
    joined.handToWorker_cases worker message
  · rw [handed]
    have heard : bank.hear network.clock (worker, message) = after := by
      rw [Bank.hear, if_pos named.symm, received]
      rfl
    refine ⟨rfl, ⟨0, Option.map_id'.symm⟩, fun other => ?_,
      (joined.setBank found (Bank.sameOwner_of_receive received).worker).of_bank? rfl,
      fun _ => written⟩
    refine (network.bank?_setBank position other after).trans ?_
    cases looked : network.bank? other with
    | none => rfl
    | some held =>
        rw [Option.map_some, Option.map_some]
        congr 1
        split
        · next here =>
          subst here
          cases found.symm.trans looked
          exact heard.symm
        · next elsewhere =>
          refine (if_neg fun mine => elsewhere ?_).symm
          exact joined.distinct position other bank held found looked (named.trans mine)
  · rw [handed]
    refine ⟨rfl, ⟨1, rfl⟩, fun other => ?_, joined.of_bank? rfl, fun _ => written⟩
    show network.bank? other = _
    cases looked : network.bank? other with
    | none => rfl
    | some held =>
        rw [Option.map_some]
        exact congrArg some (unheard other held looked).symm

theorem Joined.hears_sendAll
    (joined : network.Joined)
    (mail : Mail) :
    Hears network (network.sendAll mail) mail := by
  induction mail generalizing network with
  | nil => exact .nil joined
  | cons letter mail inductionHypothesis =>
      have first := joined.hears_sendToWorker letter.1 letter.2
      exact first.trans (inductionHypothesis first.joined)

end Joined

/-! ## Everything that can happen -/

/-- The coordinator has changed, and its letters are delivered. -/
def commit (network : Network) (result : Mail × Coordinator) : Network :=
  { network with coordinator := some result.2 }.sendAll result.1

theorem Joined.hears_commit
    {network : Network}
    (joined : network.Joined)
    (result : Mail × Coordinator) :
    Hears { network with coordinator := some result.2 } (network.commit result) result.1 := by
  have here : ({ network with coordinator := some result.2 } : Network).Joined := joined.of_bank? rfl
  exact here.hears_sendAll result.1

/-- One change to a network, given the contributions that the coordinator may be handed directly, and
whether it may be cancelled. -/
inductive Turns (given : FilterId → KeyFilter → Prop) (cancels : Prop) : Network → Network → Prop
  | act
      (network : Network)
      (position : Nat)
      {bank after : Bank}
      (found : network.bank? position = some bank)
      (acts : bank.Acts network.clock none after) :
      Turns given cancels network (network.setBank position after)
  | send
      (network : Network)
      (position : Nat)
      {bank after : Bank}
      {message : Message}
      {coordinator : Coordinator}
      (failure : Option Status)
      (found : network.bank? position = some bank)
      (acts : bank.Acts network.clock (some message) after)
      (there : network.coordinator = some coordinator) :
      Turns given cancels network
        (((network.setBank position after).commit
          (Coordinator.answer (Coordinator.receive network.clock message) coordinator)).record
            ⟨.coordinator, message, failure⟩)
  | update
      (network : Network)
      {filter : FilterId}
      {producer : ProducerId}
      {contribution : KeyFilter}
      {coordinator : Coordinator}
      (known : given filter contribution)
      (there : network.coordinator = some coordinator) :
      Turns given cancels network
        (network.commit
          (Coordinator.answer (Coordinator.update network.clock filter producer contribution) coordinator))
  | disable
      (network : Network)
      {filter : FilterId}
      {coordinator : Coordinator}
      (there : network.coordinator = some coordinator) :
      Turns given cancels network
        (network.commit (Coordinator.answer (Coordinator.disable network.clock filter) coordinator))
  | cancel
      (network : Network)
      {coordinator : Coordinator}
      (allowed : cancels)
      (there : network.coordinator = some coordinator) :
      Turns given cancels network (network.commit coordinator.cancel)
  | fire
      (network : Network)
      {coordinator : Coordinator}
      (event : Nat × FilterId)
      (there : network.coordinator = some coordinator) :
      Turns given cancels network (network.fire event)
  | tick
      (network : Network)
      {clock : Nat}
      (later : network.clock ≤ clock) :
      Turns given cancels network { network with clock }

section Turns

variable {given : FilterId → KeyFilter → Prop} {cancels : Prop} {before after : Network}
  {coordinator : Coordinator}

theorem fire_eq_commit
    {event : Nat × FilterId}
    (there : before.coordinator = some coordinator) :
    before.fire event = { before with clock := max before.clock event.1 }.commit
      ({ coordinator with timer := coordinator.timer.erase event }.onDeadline (max before.clock event.1)
        event.2) := by
  unfold fire
  rw [there]
  rfl

/-- The posts keep their workers, time does not go back, and the coordinator stays. -/
theorem Turns.goesOn
    (turns : Turns given cancels before after)
    (joined : before.Joined) :
    after.Joined ∧ before.clock ≤ after.clock ∧
      (before.coordinator.isSome → after.coordinator.isSome) := by
  have committed : ∀ {network : Network}, network.Joined → ∀ result,
      (network.commit result).Joined ∧ network.clock ≤ (network.commit result).clock ∧
        (network.commit result).coordinator.isSome := by
    intro network joined result
    have hears := joined.hears_commit result
    obtain ⟨failures, counted⟩ := hears.coordinator
    refine ⟨hears.joined, Nat.le_of_eq hears.clock.symm, ?_⟩
    rw [counted]
    rfl
  cases turns with
  | act position found acts =>
      exact ⟨joined.setBank found (Bank.sameWorker_of_acts acts).worker, Nat.le_refl _, id⟩
  | send position failure found acts there =>
      obtain ⟨joined, clock, some⟩ := committed
        (joined.setBank found (Bank.sameWorker_of_acts acts).worker)
        (Coordinator.answer (Coordinator.receive before.clock _) _)
      exact ⟨joined.of_bank? rfl, clock, fun _ => some⟩
  | update known there | disable there | cancel allowed there =>
      obtain ⟨joined, clock, some⟩ := committed joined _
      exact ⟨joined, clock, fun _ => some⟩
  | @fire coordinator event there =>
      have here : ({ before with clock := max before.clock event.1 } : Network).Joined :=
        joined.of_bank? rfl
      rw [fire_eq_commit there]
      obtain ⟨joined, clock, some⟩ := committed here _
      exact ⟨joined, Nat.le_trans (Nat.le_max_left _ _) clock, fun _ => some⟩
  | tick later => exact ⟨joined.of_bank? rfl, later, id⟩

/-- Every bank stays at its post. -/
theorem Turns.sameWorker
    {position : Nat}
    {bank : Bank}
    (turns : Turns given cancels before after)
    (joined : before.Joined)
    (found : before.bank? position = some bank) :
    ∃ next, after.bank? position = some next ∧ bank.SameWorker next := by
  have committed : ∀ {network : Network} {old : Bank}, network.Joined →
      network.bank? position = some old → bank.SameWorker old → ∀ result,
      ∃ next, (network.commit result).bank? position = some next ∧ bank.SameWorker next := by
    intro network old joined there same result
    have owner := (old.sameOwner_hearAll network.clock result.1).toSameWorker
    refine ⟨old.hearAll network.clock result.1, ?_, owner.worker.trans same.worker,
      owner.query.trans same.query⟩
    rw [(joined.hears_commit result).banks position]
    exact congrArg (Option.map _) there
  have moved : ∀ {other : Nat} {held changed : Bank} {message : Option Message},
      before.bank? other = some held → held.Acts before.clock message changed →
      ∃ next, (before.setBank other changed).bank? position = some next ∧ bank.SameWorker next := by
    intro other held changed message there acts
    rw [bank?_setBank, found, Option.map_some]
    split
    · next here =>
      subst here
      cases there.symm.trans found
      exact ⟨changed, rfl, Bank.sameWorker_of_acts acts⟩
    · exact ⟨bank, rfl, rfl, rfl⟩
  cases turns with
  | act other there acts => exact moved there acts
  | send other failure there acts here =>
      obtain ⟨next, placed, same⟩ := moved there acts
      exact committed (joined.setBank there (Bank.sameWorker_of_acts acts).worker) placed same _
  | update known here | disable here | cancel allowed here =>
      exact committed joined found ⟨rfl, rfl⟩ _
  | fire event here =>
      have joinedNow : ({ before with clock := max before.clock event.1 } : Network).Joined :=
        joined.of_bank? rfl
      rw [fire_eq_commit here]
      exact committed joinedNow found ⟨rfl, rfl⟩ _
  | tick later => exact ⟨bank, found, rfl, rfl⟩

theorem goesOn_of_run
    (run : Relation.ReflTransGen (Turns given cancels) before after)
    (joined : before.Joined) :
    after.Joined ∧ before.clock ≤ after.clock ∧
      (before.coordinator.isSome → after.coordinator.isSome) := by
  induction run with
  | refl => exact ⟨joined, Nat.le_refl _, id⟩
  | tail _ turns inductionHypothesis =>
      obtain ⟨joined, clock, stays⟩ := inductionHypothesis
      obtain ⟨joinedNow, clockNow, staysNow⟩ := turns.goesOn joined
      exact ⟨joinedNow, Nat.le_trans clock clockNow, staysNow ∘ stays⟩

theorem sameWorker_of_run
    {position : Nat}
    {bank : Bank}
    (run : Relation.ReflTransGen (Turns given cancels) before after)
    (joined : before.Joined)
    (found : before.bank? position = some bank) :
    ∃ next, after.bank? position = some next ∧ bank.SameWorker next := by
  induction run with
  | refl => exact ⟨bank, found, rfl, rfl⟩
  | tail run turns inductionHypothesis =>
      obtain ⟨next, there, same⟩ := inductionHypothesis
      obtain ⟨last, here, sameNow⟩ := turns.sameWorker (goesOn_of_run run joined).1 there
      exact ⟨last, here, sameNow.worker.trans same.worker, sameNow.query.trans same.query⟩

end Turns

/-- The coordinator is as it has to be, and every bank stands in a relation to it. -/
def Linked
    (kept : Coordinator → Prop)
    (related : Coordinator → Bank → Prop)
    (network : Network) :
    Prop :=
  ∃ coordinator, network.coordinator = some coordinator ∧ kept coordinator ∧
    ∀ position bank, network.bank? position = some bank → related coordinator bank

section Linked

variable {network : Network} {coordinator : Coordinator} {kept keptNow : Coordinator → Prop}
  {related relatedNow : Coordinator → Bank → Prop}

theorem Linked.of_coordinator
    (linked : network.Linked kept related)
    (there : network.coordinator = some coordinator) :
    kept coordinator ∧
      ∀ position bank, network.bank? position = some bank → related coordinator bank := by
  obtain ⟨same, here, links⟩ := linked
  cases here.symm.trans there
  exact links

theorem Linked.mono
    (linked : network.Linked kept related)
    (keeps : ∀ coordinator, kept coordinator → keptNow coordinator)
    (relates : ∀ coordinator bank, related coordinator bank → relatedNow coordinator bank) :
    network.Linked keptNow relatedNow := by
  obtain ⟨coordinator, there, owns, links⟩ := linked
  exact ⟨coordinator, there, keeps coordinator owns,
    fun position bank found => relates coordinator bank (links position bank found)⟩

/-- A change of one bank. -/
theorem Linked.setBank
    {position : Nat}
    {bank after : Bank}
    (linked : network.Linked kept related)
    (there : network.coordinator = some coordinator)
    (found : network.bank? position = some bank)
    (changed : kept coordinator → related coordinator bank → relatedNow coordinator after)
    (elsewhere : ∀ other, related coordinator other → relatedNow coordinator other) :
    (network.setBank position after).Linked kept relatedNow := by
  obtain ⟨keeps, links⟩ := linked.of_coordinator there
  refine ⟨coordinator, there, keeps, fun other held looked => ?_⟩
  rw [bank?_setBank] at looked
  obtain ⟨old, before, rfl⟩ := Option.map_eq_some_iff.mp looked
  split
  · exact changed keeps (links position bank found)
  · exact elsewhere old (links other old before)

/-- A change of the coordinator, of which the banks hear. -/
theorem Linked.commit
    (linked : network.Linked kept related)
    (joined : network.Joined)
    (there : network.coordinator = some coordinator)
    (result : Mail × Coordinator)
    (changed : kept coordinator → ∀ failures, keptNow (result.2.noteFailures failures))
    (heard : kept coordinator → ∀ bank failures, related coordinator bank →
      relatedNow (result.2.noteFailures failures) (bank.hearAll network.clock result.1)) :
    (network.commit result).Linked keptNow relatedNow := by
  obtain ⟨keeps, links⟩ := linked.of_coordinator there
  have hears := joined.hears_commit result
  obtain ⟨failures, counted⟩ := hears.coordinator
  refine ⟨_, counted, changed keeps failures, fun position bank found => ?_⟩
  obtain ⟨old, looked, rfl⟩ := Option.map_eq_some_iff.mp ((hears.banks position).symm.trans found)
  exact heard keeps old failures (links position old looked)

end Linked

/-! ## Calls -/

/-- What is asked of the parties of a network; time passes like a call. -/
inductive Call where
  | register (position : Nat) (consumer : ConsumerId) (filter : FilterId)
  | contribute (position : Nat) (filter : FilterId) (producer : ProducerId) (contribution : KeyFilter)
  | update (filter : FilterId) (producer : ProducerId) (contribution : KeyFilter)
  | disable (filter : FilterId)
  | cancel
  | pass (moment : Nat)
  deriving DecidableEq

/-- The call as a step. -/
def Call.step : Call → Step Network Unit
  | register position consumer filter =>
    atBank position fun now bank => bank.register now consumer filter
  | contribute position filter producer contribution =>
    atBank position fun now bank => bank.contribute now filter producer contribution
  | update filter producer contribution =>
    atCoordinator fun now => Coordinator.update now filter producer contribution
  | disable filter => atCoordinator fun now => Coordinator.disable now filter
  | cancel => atCoordinator fun _ => Step.transition fun coordinator => .ok coordinator.cancel
  | pass moment => modify fun network => network.advance moment

/-- The network after a call. -/
def next (network : Network) (call : Call) : Network :=
  (call.step.outcome network).2

/-- The network after calls. -/
def after (network : Network) (calls : List Call) : Network :=
  calls.foldl next network

section Calls

variable {network : Network} {coordinator : Coordinator} {given : FilterId → KeyFilter → Prop}
  {cancels : Prop}

/-- A call at the coordinator, whether it fails or not. -/
theorem state_atCoordinator
    (there : network.coordinator = some coordinator)
    (call : Nat → Step Coordinator Mail) :
    ((atCoordinator call).outcome network).2 =
      network.commit (Coordinator.answer (call network.clock) coordinator) := by
  show (atCoordinator call network).2 = _
  unfold atCoordinator Coordinator.answer
  rw [there]
  dsimp only
  cases (call network.clock).outcome coordinator with
  | mk result after => cases result <;> rfl

/-- A message to the coordinator is taken and then written down. -/
theorem state_sendToCoordinator
    (there : network.coordinator = some coordinator)
    (message : Message) :
    ∃ failure, ((sendToCoordinator message).outcome network).2 =
      (network.commit (Coordinator.answer (Coordinator.receive network.clock message) coordinator)).record
        ⟨.coordinator, message, failure⟩ := by
  have taken := state_atCoordinator there fun now => Coordinator.receive now message
  show ∃ failure, (sendToCoordinator message network).2 = _
  unfold sendToCoordinator
  rw [← taken]
  cases (atCoordinator fun now => Coordinator.receive now message).outcome network with
  | mk result after =>
      cases result with
      | ok => exact ⟨none, rfl⟩
      | error status => exact ⟨some status, rfl⟩

/-- A call at a bank is one change at most. -/
theorem run_atBank
    (there : network.coordinator = some coordinator)
    (position : Nat)
    (call : Nat → Bank → Except Status (Option Message × Bank))
    (acts : ∀ bank message after, call network.clock bank = .ok (message, after) →
      bank.Acts network.clock message after) :
    Relation.ReflTransGen (Turns given cancels) network ((atBank position call).outcome network).2 := by
  have ends : (atBank position call).Ends network
      (fun _ after => Relation.ReflTransGen (Turns given cancels) network after)
      fun _ after => Relation.ReflTransGen (Turns given cancels) network after := by
    rw [atBank, Step.ends_bind, Step.ends_get]
    split
    · exact .refl
    · next bank found =>
      rw [Step.ends_bind, Step.ends_ofExcept]
      refine ⟨fun value called => ?_, fun _ _ => .refl⟩
      obtain ⟨message, after⟩ := value
      have acts := acts bank message after called
      rw [Step.ends_bind, Step.ends_set]
      cases message with
      | none => exact .single (.act network position found acts)
      | some message =>
          have reached : ∀ {result : Except Status Unit × Network},
              (sendToCoordinator message).outcome (network.setBank position after) = result →
              Relation.ReflTransGen (Turns given cancels) network result.2 := by
            rintro _ rfl
            obtain ⟨failure, sent⟩ := state_sendToCoordinator
              (show (network.setBank position after).coordinator = some coordinator from there) message
            rw [sent]
            exact .single (.send network position failure found acts there)
          exact ((sendToCoordinator message).ends_outcome _).mono (fun _ _ succeeds => reached succeeds)
            fun _ _ fails => reached fails
  exact ends.state

/-- The timer comes to one deadline after the other. -/
theorem run_fires
    (joined : network.Joined)
    (there : network.coordinator.isSome)
    (events : List (Nat × FilterId)) :
    Relation.ReflTransGen (Turns given cancels) network (events.foldl fire network) := by
  induction events generalizing network with
  | nil => exact .refl
  | cons event events inductionHypothesis =>
      obtain ⟨coordinator, here⟩ := Option.isSome_iff_exists.mp there
      have turns : Turns given cancels network (network.fire event) := .fire network event here
      obtain ⟨joinedNow, _, stays⟩ := turns.goesOn joined
      exact .head turns (inductionHypothesis joinedNow (stays there))

/-- Whatever is called, it comes down to the changes. -/
theorem run_next
    (joined : network.Joined)
    (there : network.coordinator = some coordinator)
    (call : Call)
    (known : ∀ filter producer contribution, call = .update filter producer contribution →
      given filter contribution)
    (allowed : call = .cancel → cancels) :
    Relation.ReflTransGen (Turns given cancels) network (network.next call) := by
  cases call with
  | register position consumer filter =>
      rw [next, Call.step]
      exact run_atBank there position _ fun _ _ _ registered => .inl ⟨consumer, filter, registered⟩
  | contribute position filter producer contribution =>
      rw [next, Call.step]
      exact run_atBank there position _ fun _ _ _ contributed =>
        .inr ⟨filter, producer, contribution, contributed⟩
  | update filter producer contribution =>
      rw [next, Call.step, state_atCoordinator there]
      exact .single (.update network (known _ _ _ rfl) there)
  | disable filter =>
      rw [next, Call.step, state_atCoordinator there]
      exact .single (.disable network there)
  | cancel =>
      rw [next, Call.step, state_atCoordinator there]
      exact .single (.cancel network (allowed rfl) there)
  | pass moment =>
      have present : network.coordinator.isSome := Option.isSome_iff_exists.mpr ⟨coordinator, there⟩
      exact (run_fires joined present _).tail (.tick _ (Nat.le_max_left _ _))

theorem run_after
    {calls : List Call}
    (joined : network.Joined)
    (there : network.coordinator.isSome)
    (known : ∀ filter producer contribution, .update filter producer contribution ∈ calls →
      given filter contribution)
    (allowed : .cancel ∈ calls → cancels) :
    Relation.ReflTransGen (Turns given cancels) network (network.after calls) := by
  induction calls generalizing network with
  | nil => exact .refl
  | cons call calls inductionHypothesis =>
      obtain ⟨coordinator, here⟩ := Option.isSome_iff_exists.mp there
      have first : Relation.ReflTransGen (Turns given cancels) network (network.next call) :=
        run_next joined here call
          (fun filter producer contribution same =>
            known filter producer contribution (same ▸ List.mem_cons_self))
          fun same => allowed (same ▸ List.mem_cons_self)
      obtain ⟨joinedNow, _, stays⟩ := goesOn_of_run first joined
      exact first.trans (inductionHypothesis joinedNow (stays there)
        (fun filter producer contribution member =>
          known filter producer contribution (List.mem_cons_of_mem _ member))
        fun member => allowed (List.mem_cons_of_mem _ member))

end Calls

/-! ## A query with two workers -/

/-- The parties of a query with one filter. -/
def sampleNetwork : Network where
  clock := 5
  coordinator := some Cluster.sampleOpened.coordinator
  posts := #[⟨Bank.start ⟨1⟩ ⟨1, 2⟩ .everywhere [Cluster.sampleDescriptor] 5, true⟩,
    ⟨Bank.start ⟨2⟩ ⟨1, 2⟩ .everywhere [Cluster.sampleDescriptor] 5, true⟩]

theorem opened_sampleNetwork :
    sampleNetwork.Opened ⟨1, 2⟩ .everywhere [Cluster.sampleDescriptor] where
  coordinator := ⟨_, 0, rfl, by decide, Cluster.opened_sample.coordinator⟩
  banks
    | 0, bank, found => ⟨5, by decide, by cases found; rfl⟩
    | 1, bank, found => ⟨5, by decide, by cases found; rfl⟩
  joined := {
    present := fun
      | 0, _, _ => rfl
      | 1, _, _ => rfl
    distinct := fun
      | 0, 0, _, _, _, _, _ => rfl
      | 1, 1, _, _, _, _, _ => rfl
      | 0, 1, _, _, one, another, same => by cases one; cases another; cases same
      | 1, 0, _, _, one, another, same => by cases one; cases another; cases same }

end Network
end Spillway
