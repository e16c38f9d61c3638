import Mathlib.Data.Multiset.AddSub
import Mathlib.Logic.Function.Basic
import Mathlib.Logic.Relation
import Spillway.Proofs.Cluster.Announcements

/-!
# Parties agree on filters

A coordinator and any number of banks exchange messages that arrive late, out of order, more than once
or never, and every party goes by a clock of its own. Still, a filter that has arrived at a bank is the
one that has arrived at the coordinator, where it was merged of one contribution of each producer. Only
the coordinator merges, so it is enough to follow what it has said: whatever is on its way was true when
it was sent, and stays true.
-/

namespace Spillway

/-- The bank of a worker, and the worker's clock. -/
structure Station where
  bank : Bank
  clock : Nat

/-- The parties of a query, the coordinator's clock, the messages that are on their way, and what
producers have handed over to the banks so far. -/
structure Cluster (ι : Type) where
  coordinator : Coordinator
  clock : Nat
  stations : ι → Station
  inFlight : Multiset (Endpoint × Message) := 0
  contributed : List (FilterId × ProducerId × KeyFilter) := []

namespace Cluster

variable {ι : Type}

/-! ## Steps of the parties -/

section Steps

variable [DecidableEq ι]

/-- The coordinator has changed, and its mail is on its way. -/
def dispatch (cluster : Cluster ι) (mail : Mail) (coordinator : Coordinator) : Cluster ι :=
  { cluster with
    coordinator
    inFlight := cluster.inFlight +
      Multiset.ofList (mail.map fun letter => (Endpoint.worker letter.1, letter.2)) }

/-- A call at the coordinator. One that fails sends nothing. -/
def command (cluster : Cluster ι) (call : Step Coordinator Mail) : Cluster ι :=
  match call.outcome cluster.coordinator with
  | (.ok mail, coordinator) => cluster.dispatch mail coordinator
  | (.error _, coordinator) => cluster.dispatch [] coordinator

/-- What the timer does when one of its deadlines has come. -/
def expire (cluster : Cluster ι) (event : Nat × FilterId) : Cluster ι :=
  let disarmed := { cluster.coordinator with timer := cluster.coordinator.timer.erase event }
  let (mail, coordinator) := disarmed.onDeadline cluster.clock event.2
  cluster.dispatch mail coordinator

/-- A call at a bank. One that fails changes nothing. -/
def settle
    (cluster : Cluster ι)
    (station : ι)
    (result : Except Status (Option Message × Bank)) :
    Cluster ι :=
  match result with
  | .ok (message, bank) =>
    { cluster with
      stations := Function.update cluster.stations station { cluster.stations station with bank }
      inFlight := cluster.inFlight +
        Multiset.ofList (message.map fun sent => (Endpoint.coordinator, sent)).toList }
  | .error _ => cluster

/-- A producer hands its contribution over to a bank. -/
def contribute
    (cluster : Cluster ι)
    (station : ι)
    (filter : FilterId)
    (producer : ProducerId)
    (contribution : KeyFilter) :
    Cluster ι :=
  let { bank, clock } := cluster.stations station
  { cluster with contributed := (filter, producer, contribution) :: cluster.contributed }.settle station
    (bank.contribute clock filter producer contribution)

/-- A consumer registers at a bank. -/
def register (cluster : Cluster ι) (station : ι) (consumer : ConsumerId) (filter : FilterId) :
    Cluster ι :=
  let { bank, clock } := cluster.stations station
  cluster.settle station (bank.register clock consumer filter)

/-- A message is no longer on its way. -/
def drop (cluster : Cluster ι) (letter : Endpoint × Message) : Cluster ι :=
  { cluster with inFlight := cluster.inFlight.erase letter }

/-- A message arrives at the coordinator. -/
def deliver (cluster : Cluster ι) (message : Message) : Cluster ι :=
  (cluster.drop (.coordinator, message)).command (Coordinator.receive cluster.clock message)

/-- A message arrives at a bank. -/
def deliverTo (cluster : Cluster ι) (station : ι) (message : Message) : Cluster ι :=
  let { bank, clock } := cluster.stations station
  (cluster.drop (.worker bank.worker, message)).settle station
    (do return (none, ← bank.receive clock message))

/-- Everything that can happen. -/
inductive Evolves : Cluster ι → Cluster ι → Prop
  | contribute
      (cluster : Cluster ι)
      (station : ι)
      (filter : FilterId)
      (producer : ProducerId)
      (contribution : KeyFilter) :
      Evolves cluster (cluster.contribute station filter producer contribution)
  | register (cluster : Cluster ι) (station : ι) (consumer : ConsumerId) (filter : FilterId) :
      Evolves cluster (cluster.register station consumer filter)
  | disable (cluster : Cluster ι) (filter : FilterId) :
      Evolves cluster (cluster.command (Coordinator.disable cluster.clock filter))
  | expire
      (cluster : Cluster ι)
      (event : Nat × FilterId)
      (armed : event ∈ cluster.coordinator.timer)
      (due : event.1 ≤ cluster.clock) :
      Evolves cluster (cluster.expire event)
  | cancel (cluster : Cluster ι) :
      Evolves cluster (cluster.dispatch cluster.coordinator.cancel.1 cluster.coordinator.cancel.2)
  | deliver
      (cluster : Cluster ι)
      (message : Message)
      (sent : (.coordinator, message) ∈ cluster.inFlight) :
      Evolves cluster (cluster.deliver message)
  | deliverTo
      (cluster : Cluster ι)
      (station : ι)
      (message : Message)
      (sent : (.worker (cluster.stations station).bank.worker, message) ∈ cluster.inFlight) :
      Evolves cluster (cluster.deliverTo station message)
  | duplicate
      (cluster : Cluster ι)
      (letter : Endpoint × Message)
      (sent : letter ∈ cluster.inFlight) :
      Evolves cluster { cluster with inFlight := letter ::ₘ cluster.inFlight }
  | lose (cluster : Cluster ι) (letter : Endpoint × Message) :
      Evolves cluster (cluster.drop letter)
  | tick (cluster : Cluster ι) (clock : Nat) (later : cluster.clock ≤ clock) :
      Evolves cluster { cluster with clock }
  | tickAt
      (cluster : Cluster ι)
      (station : ι)
      (clock : Nat)
      (later : (cluster.stations station).clock ≤ clock) :
      Evolves cluster {
        cluster with
        stations := Function.update cluster.stations station { cluster.stations station with clock } }

/-- The parties of a query as they are opened, at moments of their own. -/
structure Opened
    (query : QueryId)
    (mode : FilterMode)
    (descriptors : List FilterDescriptor)
    (cluster : Cluster ι) :
    Prop where
  coordinator : Coordinator.start query mode descriptors cluster.clock = .ok cluster.coordinator
  banks : ∀ station, (cluster.stations station).bank =
    Bank.start (cluster.stations station).bank.worker query mode descriptors
      (cluster.stations station).clock
  silent : cluster.inFlight = 0
  untouched : cluster.contributed = []

end Steps

/-! ## What stays true -/

/-- A filter has arrived at the coordinator. -/
def Arrived (cluster : Cluster ι) (filter : FilterId) (merged : KeyFilter) : Prop :=
  ∃ entry, cluster.coordinator.entries.lookup filter = some entry ∧ entry.state = .arrived merged

/-- What a message says of a filter is true. -/
def Truthful (cluster : Cluster ι) (filter : FilterId) : Notice → Prop
  | .publish other payload => other = filter →
    ∃ merged, cluster.Arrived filter merged ∧ payload = Wire.encode merged
  | .contribution other _ producer payload => other = filter →
    ∃ contribution, (filter, producer, contribution) ∈ cluster.contributed ∧
      payload = Wire.encode contribution
  | _ => True

/-- The parties agree as far as a filter is concerned. -/
structure Sound (descriptor : FilterDescriptor) (cluster : Cluster ι) : Prop where
  coordinator : ∃ entry accepted,
    cluster.coordinator.entries.lookup descriptor.id = some entry ∧
      entry.descriptor = descriptor ∧ entry.Collects accepted [] ∧
        ∀ contribution ∈ accepted, (descriptor.id, contribution) ∈ cluster.contributed
  banks : ∀ station, ∃ entry,
    (cluster.stations station).bank.entries.lookup descriptor.id = some entry ∧
      entry.descriptor = descriptor ∧
        ∀ filter, entry.state = .arrived filter → cluster.Arrived descriptor.id filter
  truthful : ∀ letter ∈ cluster.inFlight, cluster.Truthful descriptor.id letter.2.notice

section Sound

variable {descriptor : FilterDescriptor} {cluster next : Cluster ι}

theorem Truthful.mono
    {filter : FilterId}
    {notice : Notice}
    (truthful : cluster.Truthful filter notice)
    (arrived : ∀ merged, cluster.Arrived filter merged → next.Arrived filter merged)
    (contributed : cluster.contributed ⊆ next.contributed) :
    next.Truthful filter notice := by
  cases notice with
  | publish other payload =>
      intro same
      obtain ⟨merged, there, payload⟩ := truthful same
      exact ⟨merged, arrived merged there, payload⟩
  | contribution other worker producer payload =>
      intro same
      obtain ⟨contribution, made, payload⟩ := truthful same
      exact ⟨contribution, contributed made, payload⟩
  | subscribe | timedOut | disabled | cancel => exact trivial

/-- An operation of the coordinator keeps the parties agreed. -/
theorem Sound.dispatch
    {mail : Mail}
    {coordinator : Coordinator}
    (sound : cluster.Sound descriptor)
    (turns : Coordinator.Turns descriptor.id
      (fun producer contribution => (descriptor.id, producer, contribution) ∈ cluster.contributed)
      cluster.clock cluster.coordinator coordinator mail) :
    (cluster.dispatch mail coordinator).Sound descriptor := by
  obtain ⟨entry, accepted, found, same, collects, known⟩ := sound.coordinator
  obtain ⟨changed, there, moves⟩ := turns.moves entry found
  have arrived : ∀ merged, cluster.Arrived descriptor.id merged →
      (cluster.dispatch mail coordinator).Arrived descriptor.id merged := by
    rintro merged ⟨other, looked, here⟩
    cases found.symm.trans looked
    exact ⟨changed, there, moves.arrived here⟩
  constructor
  · obtain ⟨more, collectsMore, offered⟩ := moves.collects collects
    refine ⟨changed, accepted ++ more, there, moves.descriptor.trans same, collectsMore, ?_⟩
    intro contribution member
    obtain old | new := List.mem_append.mp member
    · exact known contribution old
    · exact offered contribution new
  · intro station
    obtain ⟨held, looked, same, agrees⟩ := sound.banks station
    exact ⟨held, looked, same, fun filter here => arrived filter (agrees filter here)⟩
  · intro letter member
    obtain old | new := Multiset.mem_add.mp member
    · exact (sound.truthful letter old).mono arrived (List.Subset.refl _)
    · obtain ⟨sent, inside, rfl⟩ := List.mem_map.mp (Multiset.mem_coe.mp new)
      have tells := turns.mail sent inside
      dsimp only at tells ⊢
      cases notice : sent.2.notice with
      | publish other payload =>
          rw [notice] at tells
          intro equal
          obtain ⟨entry, merged, looked, state, payload⟩ := tells equal
          exact ⟨merged, ⟨entry, looked, state⟩, payload⟩
      | contribution other worker producer payload =>
          rw [notice] at tells
          exact tells.elim
      | subscribe | timedOut | disabled | cancel => exact trivial

/-- A call at the coordinator sends its answer. -/
theorem command_eq
    (cluster : Cluster ι)
    (call : Step Coordinator Mail) :
    cluster.command call = cluster.dispatch (Coordinator.answer call cluster.coordinator).1
      (Coordinator.answer call cluster.coordinator).2 := by
  unfold command Coordinator.answer
  split
  · next outcome =>
    rw [outcome]
    rfl
  · next outcome =>
    rw [outcome]
    rfl

theorem Sound.command
    {call : Step Coordinator Mail}
    (sound : cluster.Sound descriptor)
    (ends : call.Ends cluster.coordinator
      (fun mail after => Coordinator.Announces descriptor.id
        (fun producer contribution => (descriptor.id, producer, contribution) ∈ cluster.contributed)
        cluster.clock cluster.coordinator after mail)
      fun _ after => Coordinator.Announces descriptor.id
        (fun producer contribution => (descriptor.id, producer, contribution) ∈ cluster.contributed)
        cluster.clock cluster.coordinator after []) :
    (cluster.command call).Sound descriptor := by
  rw [command_eq]
  exact sound.dispatch (Coordinator.answer_of_ends ends).turns

/-- What can be read of a message that is on its way is what was said. -/
theorem eq_of_decodePayload
    {said read : KeyFilter}
    {payload : List UInt8}
    (decoded : decodePayload payload = .ok read)
    (same : payload = Wire.encode said) :
    read = said := by
  subst same
  exact Wire.eq_of_decode_encode (mapError_eq_ok_iff.mp decoded)

theorem Sound.drop
    (sound : cluster.Sound descriptor)
    (letter : Endpoint × Message) :
    (cluster.drop letter).Sound descriptor :=
  ⟨sound.coordinator, sound.banks, fun other member =>
    sound.truthful other (Multiset.mem_of_mem_erase member)⟩

section Stations

variable [DecidableEq ι] {station : ι} {message : Option Message} {bank : Bank}

theorem stations_settle :
    (cluster.settle station (.ok (message, bank))).stations station =
      { cluster.stations station with bank } :=
  Function.update_self ..

theorem stations_settle_of_ne
    {other : ι}
    (different : other ≠ station) :
    (cluster.settle station (.ok (message, bank))).stations other = cluster.stations other :=
  Function.update_of_ne different ..

/-- An operation of a bank keeps the parties agreed. -/
theorem Sound.settle
    {result : Except Status (Option Message × Bank)}
    (sound : cluster.Sound descriptor)
    (moves : ∀ message bank entry, result = .ok (message, bank) →
      (cluster.stations station).bank.entries.lookup descriptor.id = some entry →
      entry.descriptor = descriptor →
      (∃ now next, bank.entries.lookup descriptor.id = some next ∧
        entry.Moves (fun _ _ => False) (cluster.Arrived descriptor.id) now next) ∧
      ∀ sent ∈ message, cluster.Truthful descriptor.id sent.notice) :
    (cluster.settle station result).Sound descriptor := by
  cases result with
  | error status => exact sound
  | ok result =>
      obtain ⟨message, bank⟩ := result
      obtain ⟨entry, found, same, agrees⟩ := sound.banks station
      obtain ⟨⟨now, changed, there, moved⟩, sends⟩ := moves message bank entry rfl found same
      refine ⟨sound.coordinator, fun other => ?_, fun letter member => ?_⟩
      · by_cases here : other = station
        · subst here
          refine ⟨changed, ?_, moved.descriptor.trans same, fun filter arrived => ?_⟩
          · rw [stations_settle]
            exact there
          · exact (moved.arrives arrived).elim (agrees filter) id
        · obtain ⟨held, looked, same, agrees⟩ := sound.banks other
          refine ⟨held, ?_, same, agrees⟩
          rw [stations_settle_of_ne here]
          exact looked
      · obtain old | new := Multiset.mem_add.mp member
        · exact sound.truthful letter old
        · obtain ⟨sent, inside, rfl⟩ :=
            Option.map_eq_some_iff.mp (Option.mem_toList.mp (Multiset.mem_coe.mp new))
          exact sends sent inside

theorem Sound.contribute
    (sound : cluster.Sound descriptor)
    (elsewhere : descriptor.isLocal = false)
    (station : ι)
    (filter : FilterId)
    (producer : ProducerId)
    (contribution : KeyFilter) :
    (cluster.contribute station filter producer contribution).Sound descriptor := by
  have remembered : { cluster with
      contributed := (filter, producer, contribution) :: cluster.contributed }.Sound descriptor := by
    obtain ⟨entry, accepted, found, same, collects, known⟩ := sound.coordinator
    exact ⟨⟨entry, accepted, found, same, collects, fun other member =>
        List.mem_cons_of_mem _ (known other member)⟩, sound.banks,
      fun letter member => (sound.truthful letter member).mono (fun _ arrived => arrived)
        (List.subset_cons_self _ _)⟩
  refine remembered.settle fun message bank entry contributed found same => ?_
  obtain ⟨there, sends⟩ := Bank.lookup_of_contribute contributed found (same ▸ elsewhere)
  refine ⟨⟨0, entry, there, .inl rfl⟩, fun sent inside => ?_⟩
  obtain ⟨worker, notice⟩ := sends sent inside
  rw [notice]
  rintro rfl
  exact ⟨contribution, List.mem_cons_self, rfl⟩

theorem Sound.register
    (sound : cluster.Sound descriptor)
    (station : ι)
    (consumer : ConsumerId)
    (filter : FilterId) :
    (cluster.register station consumer filter).Sound descriptor := by
  refine sound.settle fun message bank entry registered found same => ?_
  obtain ⟨unchanged, sends⟩ := Bank.entries_of_register registered
  refine ⟨⟨0, entry, unchanged ▸ found, .inl rfl⟩, fun sent inside => ?_⟩
  obtain ⟨worker, notice⟩ := sends sent inside
  rw [notice]
  exact trivial

theorem Sound.deliverTo
    (sound : cluster.Sound descriptor)
    (station : ι)
    (message : Message)
    (sent : (.worker (cluster.stations station).bank.worker, message) ∈ cluster.inFlight) :
    (cluster.deliverTo station message).Sound descriptor := by
  refine (sound.drop _).settle fun reply bank entry received found same => ?_
  simp only [bind_eq_ok_iff, pure_eq_ok_iff] at received
  obtain ⟨after, received, unchanged⟩ := received
  cases unchanged
  have known : ∀ payload published, message.notice = .publish descriptor.id payload →
      decodePayload payload = .ok published → cluster.Arrived descriptor.id published := by
    intro payload published notice decoded
    have truthful := sound.truthful _ sent
    rw [notice] at truthful
    obtain ⟨merged, arrived, encoded⟩ := truthful rfl
    exact eq_of_decodePayload decoded encoded ▸ arrived
  obtain ⟨changed, there, moves⟩ := Bank.moves_of_receive received known found
  exact ⟨⟨_, changed, there, moves⟩, fun _ none => absurd none (Option.not_mem_none _)⟩

end Stations

/-- What the coordinator takes of a message is what was contributed. -/
theorem Sound.deliver
    (sound : cluster.Sound descriptor)
    (message : Message)
    (sent : (.coordinator, message) ∈ cluster.inFlight) :
    (cluster.deliver message).Sound descriptor := by
  refine (sound.drop _).command (Coordinator.announces_receive fun worker producer payload contribution
    notice decoded => ?_)
  have truthful := sound.truthful _ sent
  rw [notice] at truthful
  obtain ⟨said, made, encoded⟩ := truthful rfl
  exact eq_of_decodePayload decoded encoded ▸ made

theorem Sound.expire
    (sound : cluster.Sound descriptor)
    (event : Nat × FilterId) :
    (cluster.expire event).Sound descriptor := by
  refine sound.dispatch (Coordinator.Announces.turns ?_)
  exact (Coordinator.announces_onDeadline _).of_same rfl rfl rfl

/-- Whatever happens, the parties stay agreed. -/
theorem Sound.evolves
    [DecidableEq ι]
    (sound : cluster.Sound descriptor)
    (elsewhere : descriptor.isLocal = false)
    (evolves : cluster.Evolves next) :
    next.Sound descriptor := by
  cases evolves with
  | contribute station filter producer contribution =>
      exact sound.contribute elsewhere station filter producer contribution
  | register station consumer filter => exact sound.register station consumer filter
  | disable filter => exact sound.command Coordinator.announces_disable
  | expire event => exact sound.expire event
  | cancel => exact sound.dispatch (Coordinator.announces_cancel _).turns
  | deliver message sent => exact sound.deliver message sent
  | deliverTo station message sent => exact sound.deliverTo station message sent
  | duplicate letter sent =>
      refine ⟨sound.coordinator, sound.banks, fun other member => ?_⟩
      obtain rfl | old := Multiset.mem_cons.mp member
      · exact sound.truthful other sent
      · exact sound.truthful other old
  | lose letter => exact sound.drop letter
  | tick clock later => exact ⟨sound.coordinator, sound.banks, sound.truthful⟩
  | tickAt station clock later =>
      refine ⟨sound.coordinator, fun other => ?_, sound.truthful⟩
      by_cases here : other = station
      · subst here
        obtain ⟨entry, found, rest⟩ := sound.banks other
        refine ⟨entry, ?_, rest⟩
        dsimp only
        rw [Function.update_self]
        exact found
      · obtain ⟨entry, found, rest⟩ := sound.banks other
        refine ⟨entry, ?_, rest⟩
        dsimp only
        rw [Function.update_of_ne here]
        exact found

/-- The parties start agreed. -/
theorem Opened.sound
    {query : QueryId}
    {mode : FilterMode}
    {descriptors : List FilterDescriptor}
    (opened : cluster.Opened query mode descriptors)
    (member : descriptor ∈ descriptors)
    (elsewhere : descriptor.isLocal = false) :
    cluster.Sound descriptor := by
  have started := opened.coordinator
  simp only [Coordinator.start, bind_eq_ok_iff, pure_eq_ok_iff] at started
  obtain ⟨entries, started, same⟩ := started
  obtain ⟨distinct, opens⟩ := Coordinator.fresh_of_startEntries started
  constructor
  · obtain ⟨entry, found, fresh⟩ := (opens descriptor member).2.2 elsewhere
    refine ⟨entry, [], ?_, fresh.descriptor, fresh.collects, fun _ none =>
      absurd none List.not_mem_nil⟩
    rw [← same]
    exact found
  · intro station
    obtain ⟨entry, found, fresh⟩ : ∃ entry : Entry,
        (Bank.start (cluster.stations station).bank.worker query mode descriptors
          (cluster.stations station).clock).entries.lookup descriptor.id = some entry ∧
            entry.Fresh descriptor :=
      Bank.fresh_of_start distinct (fun other inside => (opens other inside).1) descriptor member
    refine ⟨entry, ?_, fresh.descriptor, fun filter arrived => ?_⟩
    · rw [opened.banks station]
      exact found
    · exact absurd arrived (fresh.not_arrived (opens descriptor member).1 filter)
  · rw [opened.silent]
    exact fun _ none => absurd none (Multiset.notMem_zero _)

end Sound

/-! ## What is seen -/

/-- How far a filter has come as the coordinator sees it. -/
def coordinatorState (cluster : Cluster ι) (filter : FilterId) : Option FilterState :=
  (cluster.coordinator.entries.lookup filter).map fun entry => (entry.seenAt cluster.clock).state

/-- How far a filter has come as the worker of a bank sees it. -/
def bankState (cluster : Cluster ι) (station : ι) (filter : FilterId) : Option FilterState :=
  ((cluster.stations station).bank.entries.lookup filter).map fun entry =>
    (entry.seenAt (cluster.stations station).clock).state

section Seen

variable {descriptor : FilterDescriptor} {cluster next later : Cluster ι} {filter : FilterId}

theorem coordinatorState_eq_arrived_iff {merged : KeyFilter} :
    cluster.coordinatorState filter = some (.arrived merged) ↔ cluster.Arrived filter merged := by
  unfold coordinatorState Arrived
  rw [Option.map_eq_some_iff]
  simp only [Entry.arrived_seenAt_iff]

/-- What a call does to the coordinator's entry, whatever is merged. -/
theorem moves_of_command
    {call : Step Coordinator Mail}
    {entry : Entry}
    (ends : call.Ends cluster.coordinator
      (fun mail after => Coordinator.Announces filter (fun _ _ => True) cluster.clock
        cluster.coordinator after mail)
      fun _ after => Coordinator.Announces filter (fun _ _ => True) cluster.clock
        cluster.coordinator after [])
    (found : cluster.coordinator.entries.lookup filter = some entry) :
    ∃ changed, (cluster.command call).coordinator.entries.lookup filter = some changed ∧
      entry.Moves (fun _ _ => True) (fun _ => False) cluster.clock changed := by
  rw [command_eq]
  exact (Coordinator.answer_of_ends ends).moves entry found

theorem clock_command
    (cluster : Cluster ι)
    (call : Step Coordinator Mail) :
    (cluster.command call).clock = cluster.clock := by
  rw [command_eq]
  rfl

variable [DecidableEq ι]

/-- A call at a bank leaves the coordinator alone. -/
theorem coordinator_settle
    (cluster : Cluster ι)
    (station : ι)
    (result : Except Status (Option Message × Bank)) :
    (cluster.settle station result).coordinator = cluster.coordinator ∧
      (cluster.settle station result).clock = cluster.clock := by
  cases result <;> exact ⟨rfl, rfl⟩

/-- Whatever happens, the coordinator's clock goes on and its entry moves by a request. -/
theorem Evolves.moves
    {entry : Entry}
    (evolves : cluster.Evolves next)
    (found : cluster.coordinator.entries.lookup filter = some entry) :
    cluster.clock ≤ next.clock ∧
      ∃ changed, next.coordinator.entries.lookup filter = some changed ∧
        entry.Moves (fun _ _ => True) (fun _ => False) cluster.clock changed := by
  have untouched : ∀ {after : Cluster ι}, after.coordinator = cluster.coordinator →
      ∃ changed, after.coordinator.entries.lookup filter = some changed ∧
        entry.Moves (fun _ _ => True) (fun _ => False) cluster.clock changed :=
    fun same => ⟨entry, same ▸ found, .inl rfl⟩
  cases evolves with
  | contribute station other producer contribution =>
      obtain ⟨same, clock⟩ := coordinator_settle { cluster with
        contributed := (other, producer, contribution) :: cluster.contributed } station
        ((cluster.stations station).bank.contribute (cluster.stations station).clock other producer
          contribution)
      exact ⟨Nat.le_of_eq clock.symm, untouched same⟩
  | register station consumer other =>
      obtain ⟨same, clock⟩ := cluster.coordinator_settle station
        ((cluster.stations station).bank.register (cluster.stations station).clock consumer other)
      exact ⟨Nat.le_of_eq clock.symm, untouched same⟩
  | disable other =>
      exact ⟨Nat.le_of_eq (cluster.clock_command _).symm,
        moves_of_command Coordinator.announces_disable found⟩
  | expire event =>
      exact ⟨Nat.le_refl _,
        ((Coordinator.announces_onDeadline _).of_same rfl rfl rfl).moves entry found⟩
  | cancel => exact ⟨Nat.le_refl _, (Coordinator.announces_cancel _).moves entry found⟩
  | deliver message sent =>
      have clock := (cluster.drop (.coordinator, message)).clock_command
        (Coordinator.receive cluster.clock message)
      exact ⟨Nat.le_of_eq clock.symm, moves_of_command
        (Coordinator.announces_receive fun _ _ _ _ _ _ => trivial)
        (show (cluster.drop (.coordinator, message)).coordinator.entries.lookup _ = _ from found)⟩
  | deliverTo station message sent =>
      obtain ⟨same, clock⟩ := (cluster.drop
        (.worker (cluster.stations station).bank.worker, message)).coordinator_settle station
          (do return (none, ← (cluster.stations station).bank.receive
            (cluster.stations station).clock message))
      exact ⟨Nat.le_of_eq clock.symm, untouched same⟩
  | duplicate | lose | tickAt => exact ⟨Nat.le_refl _, untouched rfl⟩
  | tick clock forward => exact ⟨forward, untouched rfl⟩

/-- What the coordinator has resolved stays as it is. -/
theorem coordinatorState_of_run
    {state : FilterState}
    (run : Relation.ReflTransGen Evolves cluster later)
    (seen : cluster.coordinatorState filter = some state)
    (resolved : state ≠ .pending) :
    later.coordinatorState filter = some state := by
  induction run with
  | refl => exact seen
  | tail _ evolves inductionHypothesis =>
      obtain ⟨entry, found, same⟩ := Option.map_eq_some_iff.mp inductionHypothesis
      subst same
      obtain ⟨forward, changed, there, moves⟩ := evolves.moves found
      have kept := moves.seen resolved
      unfold coordinatorState
      rw [there, Option.map_some, Entry.state_seenAt_of_le (kept.symm ▸ resolved) forward, kept]

theorem Sound.of_run
    (sound : cluster.Sound descriptor)
    (elsewhere : descriptor.isLocal = false)
    (run : Relation.ReflTransGen Evolves cluster later) :
    later.Sound descriptor := by
  induction run with
  | refl => exact sound
  | tail _ evolves inductionHypothesis => exact inductionHypothesis.evolves elsewhere evolves

end Seen

/-- What has arrived at a bank has arrived at the coordinator. -/
theorem Sound.arrived
    {descriptor : FilterDescriptor}
    {cluster : Cluster ι}
    {station : ι}
    {filter : KeyFilter}
    (sound : cluster.Sound descriptor)
    (seen : cluster.bankState station descriptor.id = some (.arrived filter)) :
    cluster.coordinatorState descriptor.id = some (.arrived filter) := by
  obtain ⟨entry, found, state⟩ := Option.map_eq_some_iff.mp seen
  obtain ⟨held, looked, _, agrees⟩ := sound.banks station
  cases found.symm.trans looked
  exact coordinatorState_eq_arrived_iff.mpr (agrees filter (Entry.arrived_seenAt_iff.mp state))

/-- The parties of a query agree on a filter, now and later. -/
structure Agreement (descriptor : FilterDescriptor) (now later : Cluster ι) : Prop where
  /-- What has arrived at a bank has arrived at the coordinator. -/
  arrived : ∀ station filter, now.bankState station descriptor.id = some (.arrived filter) →
    now.coordinatorState descriptor.id = some (.arrived filter)
  /-- No two banks have different filters. -/
  equal : ∀ station other filter otherFilter,
    now.bankState station descriptor.id = some (.arrived filter) →
    now.bankState other descriptor.id = some (.arrived otherFilter) → filter = otherFilter
  /-- The filter is merged of what was contributed, one contribution of each producer. -/
  merged : ∀ filter, now.coordinatorState descriptor.id = some (.arrived filter) →
    ∃ (entry : Entry) (accepted : List (ProducerId × KeyFilter)),
      now.coordinator.entries.lookup descriptor.id = some entry ∧
      entry.producers = accepted.map Prod.fst ∧ (accepted.map Prod.fst).Nodup ∧
      accepted.length = descriptor.producers ∧
      KeyFilter.mergeAll (accepted.map Prod.snd) = .ok (some filter) ∧
      ∀ contribution ∈ accepted, (descriptor.id, contribution) ∈ now.contributed
  /-- What the coordinator has given up arrives nowhere, -/
  final : ∀ state, state = .timedOut ∨ state = .disabled →
    now.coordinatorState descriptor.id = some state →
    ∀ station filter, later.bankState station descriptor.id ≠ some (.arrived filter)
  /-- nor has it arrived anywhere before. -/
  never : ∀ state, state = .timedOut ∨ state = .disabled →
    later.coordinatorState descriptor.id = some state →
    ∀ station filter, now.bankState station descriptor.id ≠ some (.arrived filter)

/-- Parties that were opened with the same descriptors agree on every filter that concerns more than one
worker, whatever happens to their messages and however their clocks go. -/
theorem agreement_of_run
    [DecidableEq ι]
    {query : QueryId}
    {mode : FilterMode}
    {descriptors : List FilterDescriptor}
    {descriptor : FilterDescriptor}
    {opened now later : Cluster ι}
    (start : opened.Opened query mode descriptors)
    (member : descriptor ∈ descriptors)
    (elsewhere : descriptor.isLocal = false)
    (run : Relation.ReflTransGen Evolves opened now)
    (further : Relation.ReflTransGen Evolves now later) :
    Agreement descriptor now later := by
  have sound := (start.sound member elsewhere).of_run elsewhere run
  have soundLater := sound.of_run elsewhere further
  have final : ∀ {state}, state = .timedOut ∨ state = .disabled →
      now.coordinatorState descriptor.id = some state →
      later.coordinatorState descriptor.id = some state := fun ended seen =>
    coordinatorState_of_run further seen (by rintro rfl; simp at ended)
  constructor
  · exact fun station filter => sound.arrived
  · intro station other filter otherFilter one another
    have same := (sound.arrived one).symm.trans (sound.arrived another)
    exact FilterState.arrived.inj (Option.some.inj same)
  · intro filter seen
    obtain ⟨entry, found, state⟩ := coordinatorState_eq_arrived_iff.mp seen
    obtain ⟨held, accepted, looked, same, collects, known⟩ := sound.coordinator
    cases found.symm.trans looked
    obtain ⟨all, merged⟩ := (collects.arrived filter state).resolve_right List.not_mem_nil
    exact ⟨entry, accepted, found, collects.producers, collects.distinct, same ▸ all, merged, known⟩
  · intro state ended seen station filter arrived
    have same := (final ended seen).symm.trans (soundLater.arrived arrived)
    cases Option.some.inj same
    simp at ended
  · intro state ended seen station filter arrived
    have kept := coordinatorState_of_run further (sound.arrived arrived) FilterState.noConfusion
    cases Option.some.inj (seen.symm.trans kept)
    simp at ended

/-! ## A query with two workers -/

/-- A filter of two producers. -/
def sampleDescriptor : FilterDescriptor :=
  ⟨⟨7⟩, .minMax, "target", "build", 2, 100, false, 4096⟩

/-- The parties as they are opened. -/
def sampleOpened : Cluster Bool where
  coordinator := {
    query := ⟨1, 2⟩
    mode := .everywhere
    descriptors := [sampleDescriptor]
    entries := [Entry.start sampleDescriptor 0]
    timer := [(100, ⟨7⟩)] }
  clock := 0
  stations first :=
    ⟨Bank.start (if first then ⟨1⟩ else ⟨2⟩) ⟨1, 2⟩ .everywhere [sampleDescriptor] 5, 5⟩

theorem opened_sample : sampleOpened.Opened ⟨1, 2⟩ .everywhere [sampleDescriptor] where
  coordinator := by
    show Except.ok _ = _
    have timer : Coordinator.armTimer [Entry.start sampleDescriptor 0] 0 = [(100, ⟨7⟩)] :=
      List.mergeSort_singleton _
    exact congrArg (fun timer => Except.ok { sampleOpened.coordinator with timer }) timer
  banks := by
    intro station
    cases station <;> rfl
  silent := rfl
  untouched := rfl

/-- The first worker subscribes, and both contribute. -/
def sampleContributed : Cluster Bool :=
  (((sampleOpened.register true ⟨3⟩ ⟨7⟩).deliver ⟨⟨1, 2⟩, .subscribe ⟨7⟩ ⟨1⟩⟩).contribute true ⟨7⟩ ⟨1⟩
    (.range .empty)).contribute false ⟨7⟩ ⟨2⟩ (.range .empty)

/-- The contribution of the second worker overtakes that of the first. -/
def sampleArrived : Cluster Bool :=
  ((sampleContributed.deliver
    ⟨⟨1, 2⟩, .contribution ⟨7⟩ ⟨2⟩ ⟨2⟩ (Wire.encode (.range .empty))⟩).deliver
    ⟨⟨1, 2⟩, .contribution ⟨7⟩ ⟨1⟩ ⟨1⟩ (Wire.encode (.range .empty))⟩).deliverTo true
    ⟨⟨1, 2⟩, .publish ⟨7⟩ (Wire.encode (.range .empty))⟩

theorem run_sampleContributed : Relation.ReflTransGen Evolves sampleOpened sampleContributed :=
  .tail (.tail (.tail (.tail .refl (.register ..)) (.deliver _ _ (by decide))) (.contribute ..))
    (.contribute ..)

theorem run_sampleArrived : Relation.ReflTransGen Evolves sampleContributed sampleArrived :=
  .tail (.tail (.tail .refl (.deliver _ _ (by decide))) (.deliver _ _ (by decide)))
    (.deliverTo _ _ _ (by decide))

theorem agreement_of_sample :
    Agreement sampleDescriptor sampleArrived sampleArrived ∧
      sampleArrived.bankState true sampleDescriptor.id = some (.arrived (.range .empty)) :=
  ⟨agreement_of_run opened_sample List.mem_cons_self rfl (run_sampleContributed.trans run_sampleArrived)
    .refl, by decide⟩

end Cluster

end Spillway
