import Spillway.Cluster.Bank
import Spillway.Cluster.Coordinator
import Spillway.Proofs.Cluster.Assignment
import Spillway.Proofs.Filter.Wire

/-!
# What coordinators and banks do to an entry

Whatever a party is told, it puts at most one request to its entry for a filter. So all that matters
of an operation, as far as one filter is concerned, is which request that is, and what the operation
sends.
-/

namespace Spillway

namespace Entries

/-! ## Look-up -/

theorem id_of_lookup
    {entries : Entries}
    {filter : FilterId}
    {entry : Entry}
    (found : entries.lookup filter = some entry) :
    entry.id = filter := by
  simpa using List.find?_some found

/-- A change that keeps the names of all entries changes what is found. -/
theorem lookup_map
    {change : Entry → Entry}
    (same : ∀ entry, (change entry).id = entry.id)
    (entries : Entries)
    (filter : FilterId) :
    lookup (entries.map change) filter = (entries.lookup filter).map change := by
  unfold lookup
  rw [List.find?_map]
  congr 2
  funext entry
  simp only [Function.comp_apply, same]

theorem lookup_update
    (entries : Entries)
    (entry : Entry)
    (filter : FilterId) :
    (entries.update entry).lookup filter =
      (entries.lookup filter).map fun other => if filter = entry.id then entry else other := by
  unfold update
  rw [lookup_map (fun other => by split <;> simp_all)]
  cases found : entries.lookup filter with
  | none => rfl
  | some other => rw [Option.map_some, Option.map_some, id_of_lookup found]

theorem lookup_cancelAll
    (entries : Entries)
    (filter : FilterId) :
    entries.cancelAll.lookup filter = (entries.lookup filter).map Entry.cancel :=
  lookup_map (show ∀ entry : Entry, entry.cancel.id = entry.id from fun _ => rfl) entries filter

theorem lookup_insert
    (entries : Entries)
    (entry : Entry)
    (filter : FilterId) :
    (entries.insert entry).lookup filter =
      if filter = entry.id then some entry else entries.lookup filter := by
  unfold insert lookup
  rw [List.find?_append, List.find?_filter]
  by_cases same : filter = entry.id
  · subst same
    have gone : entries.find? (fun other =>
        decide (decide (other.id ≠ entry.id) = true ∧ decide (other.id = entry.id) = true)) = none := by
      simp
    rw [gone, if_pos rfl]
    simp
  · have kept : (fun other : Entry =>
        decide (decide (other.id ≠ entry.id) = true ∧ decide (other.id = filter) = true)) =
        fun other => decide (other.id = filter) := by
      funext other
      simp only [decide_eq_true_eq, decide_eq_decide, and_iff_right_iff_imp]
      rintro rfl
      exact same
    rw [kept, if_neg same]
    simp [Ne.symm same]

end Entries

namespace Entry

/-! ## Requests of parties -/

/-- What a party asks of an entry, given the contributions and the filters that it is told of. -/
inductive Asks (offered : ProducerId → KeyFilter → Prop) (told : KeyFilter → Prop) : Request → Prop
  | merge
      {producer : ProducerId}
      {contribution : KeyFilter}
      (known : offered producer contribution) :
      Asks offered told (.merge producer contribution)
  | publish
      {filter : KeyFilter}
      (known : told filter) :
      Asks offered told (.publish filter)
  | timeOut : Asks offered told .timeOut
  | disable : Asks offered told .disable
  | cancel : Asks offered told .cancel

/-- The entry is asked at most once. -/
def Moves
    (offered : ProducerId → KeyFilter → Prop)
    (told : KeyFilter → Prop)
    (now : Nat)
    (entry next : Entry) :
    Prop :=
  next = entry ∨ ∃ request, Asks offered told request ∧ next = (entry.serve now request).2

section Moves

variable {offered : ProducerId → KeyFilter → Prop} {told : KeyFilter → Prop} {now : Nat}
  {entry next : Entry}

theorem Moves.serves (moves : entry.Moves offered told now next) :
    next = entry ∨
      ∃ request reply, Asks offered told request ∧ entry.Serves now request reply next := by
  refine moves.imp_right ?_
  rintro ⟨request, asks, rfl⟩
  exact ⟨request, _, asks, entry.serves_serve now request⟩

theorem Moves.descriptor (moves : entry.Moves offered told now next) :
    next.descriptor = entry.descriptor := by
  obtain rfl | ⟨_, _, _, serves⟩ := moves.serves
  · rfl
  · exact serves.descriptor

theorem Moves.arrived
    {filter : KeyFilter}
    (moves : entry.Moves offered told now next)
    (arrived : entry.state = .arrived filter) :
    next.state = .arrived filter := by
  obtain rfl | ⟨_, _, _, serves⟩ := moves.serves
  · exact arrived
  · exact (serves.final (arrived ▸ FilterState.noConfusion)).1.trans arrived

theorem Moves.seen
    (moves : entry.Moves offered told now next)
    (resolved : (entry.seenAt now).state ≠ .pending) :
    (next.seenAt now).state = (entry.seenAt now).state := by
  obtain rfl | ⟨_, _, _, serves⟩ := moves.serves
  · rfl
  · exact serves.seen resolved

/-- An entry that is told a filter and nothing else arrives with that filter. -/
theorem Moves.arrives
    {filter : KeyFilter}
    (moves : entry.Moves (fun _ _ => False) told now next)
    (arrived : next.state = .arrived filter) :
    entry.state = .arrived filter ∨ told filter := by
  obtain rfl | ⟨request, reply, asks, serves⟩ := moves.serves
  · exact .inl arrived
  · by_cases pending : entry.state = .pending
    · obtain asked | completed := (serves.arrives pending arrived).2
      · subst asked
        cases asks with
        | publish known => exact .inr known
      · obtain ⟨contribution, accepted⟩ := serves.accepted_of_completed completed
        rw [request_of_acceptance accepted] at asks
        cases asks with
        | merge known => exact known.elim
    · exact .inl ((serves.final pending).1.symm.trans arrived)

/-- An entry that is told nothing collects what it accepts. -/
theorem Moves.collects
    {contributions : List (ProducerId × KeyFilter)}
    (moves : entry.Moves offered (fun _ => False) now next)
    (collects : entry.Collects contributions []) :
    ∃ more, next.Collects (contributions ++ more) [] ∧
      ∀ contribution ∈ more, offered contribution.1 contribution.2 := by
  obtain rfl | ⟨request, reply, asks, serves⟩ := moves.serves
  · exact ⟨[], (List.append_nil contributions).symm ▸ collects, fun _ member =>
      absurd member List.not_mem_nil⟩
  · have served := collects.serves serves
    refine ⟨(acceptance request reply).toList, ?_, fun contribution member => ?_⟩
    · cases asks with
      | publish known => exact known.elim
      | merge | timeOut | disable | cancel => exact served
    · rw [request_of_acceptance (Option.mem_toList.mp member)] at asks
      cases asks with
      | merge known => exact known

end Moves

/-- The entry is for the filter and has accepted nothing. -/
structure Fresh (descriptor : FilterDescriptor) (entry : Entry) : Prop where
  descriptor : entry.descriptor = descriptor
  collects : entry.Collects [] []

theorem fresh_start
    {descriptor : FilterDescriptor}
    (expected : 1 ≤ descriptor.producers)
    (now : Nat) :
    (Entry.start descriptor now).Fresh descriptor :=
  ⟨rfl, collects_start expected _⟩

theorem Fresh.disable
    {descriptor : FilterDescriptor}
    {entry next : Entry}
    {now : Nat}
    (fresh : entry.Fresh descriptor)
    (disables : entry.disable now = .ok next) :
    next.Fresh descriptor :=
  ⟨(serves_disable disables).descriptor.trans fresh.descriptor,
    fresh.collects.serves (serves_disable disables)⟩

/-- Of a filter that has not arrived there is nothing to tell. -/
theorem Fresh.not_arrived
    {descriptor : FilterDescriptor}
    {entry : Entry}
    (fresh : entry.Fresh descriptor)
    (expected : 1 ≤ descriptor.producers)
    (filter : KeyFilter) :
    entry.state ≠ .arrived filter := by
  intro arrived
  obtain ⟨all, _⟩ := (fresh.collects.arrived filter arrived).resolve_right List.not_mem_nil
  rw [fresh.descriptor] at all
  exact absurd (all ▸ expected) (by decide)

theorem id_serve
    (entry : Entry)
    (now : Nat)
    (request : Request) :
    (entry.serve now request).2.id = entry.id :=
  congrArg FilterDescriptor.id (entry.serves_serve now request).descriptor

end Entry

/-- An entry that was found is put back after it has moved. -/
theorem Entries.moves_of_update
    {entries : Entries}
    {filter target : FilterId}
    {offered : ProducerId → KeyFilter → Prop}
    {told : KeyFilter → Prop}
    {now : Nat}
    {entry next other : Entry}
    (found : entries.lookup target = some entry)
    (named : next.id = entry.id)
    (moves : target = filter → entry.Moves offered told now next)
    (looked : entries.lookup filter = some other) :
    ∃ changed, (entries.update next).lookup filter = some changed ∧
      other.Moves offered told now changed := by
  rw [Entries.lookup_update, looked, named, id_of_lookup found, Option.map_some]
  by_cases same : filter = target
  · rw [if_pos same]
    subst same
    cases found.symm.trans looked
    exact ⟨next, rfl, moves rfl⟩
  · rw [if_neg same]
    exact ⟨other, rfl, .inl rfl⟩

/-! ## Coordinators -/

namespace Coordinator

/-- What a coordinator may say of a filter: it publishes the one that arrived. -/
def Tells (coordinator : Coordinator) (filter : FilterId) : Notice → Prop
  | .publish other payload => other = filter → ∃ entry merged,
      coordinator.entries.lookup filter = some entry ∧ entry.state = .arrived merged ∧
        payload = Wire.encode merged
  | .contribution .. => False
  | _ => True

/-- What an operation does as far as a filter is concerned, no matter who hears of it. -/
structure Turns
    (filter : FilterId)
    (offered : ProducerId → KeyFilter → Prop)
    (now : Nat)
    (before after : Coordinator)
    (mail : Mail) :
    Prop where
  moves : ∀ entry, before.entries.lookup filter = some entry →
    ∃ next, after.entries.lookup filter = some next ∧ entry.Moves offered (fun _ => False) now next
  mail : ∀ letter ∈ mail, after.Tells filter letter.2.notice

section Lookup

variable {target : FilterId} {before : Coordinator} {entry : Entry}

theorem lookup_of_entry (known : before.entry target = .ok entry) :
    before.entries.lookup target = some entry := by
  unfold Coordinator.entry at known
  split at known
  · next found =>
    cases known
    exact found
  · cases known

theorem entry_of_lookup (found : before.entries.lookup target = some entry) :
    before.entry target = .ok entry := by
  rw [Coordinator.entry, found]

end Lookup

end Coordinator

theorem Bank.fresh_startEntry
    {descriptor : FilterDescriptor}
    (expected : 1 ≤ descriptor.producers)
    (mode : FilterMode)
    (now : Nat) :
    (startEntry mode now descriptor).Fresh descriptor := by
  have fresh := Entry.fresh_start expected now
  unfold startEntry
  dsimp only
  split
  · exact fresh
  · cases disables : (Entry.start descriptor now).disable now with
    | ok entry => exact fresh.disable disables
    | error fault => exact fresh

namespace Coordinator

/-- What was checked of the first descriptor, and what was opened for it. -/
theorem startEntries_cons
    {mode : FilterMode}
    {now : Nat}
    {descriptor : FilterDescriptor}
    {rest : List FilterDescriptor}
    {seen : List FilterId}
    {entries : Entries}
    (started : startEntries mode now (descriptor :: rest) seen = .ok entries) :
    1 ≤ descriptor.producers ∧ descriptor.id ∉ seen ∧
      ∃ others, startEntries mode now rest (descriptor.id :: seen) = .ok others ∧
        (entries = others ∧ descriptor.isLocal = true ∨
          entries = Bank.startEntry mode now descriptor :: others) := by
  rw [startEntries] at started
  split at started
  · simp at started
  · next producers =>
    have expected : 1 ≤ descriptor.producers := Nat.one_le_iff_ne_zero.mpr producers
    simp only [pure_bind] at started
    split at started
    · simp at started
    · next unseen =>
      refine ⟨expected, fun member => unseen (List.contains_iff_mem.mpr member), ?_⟩
      split at started
      · next isLocal => exact ⟨entries, started, .inl ⟨rfl, isLocal⟩⟩
      · split at started
        · next allowed =>
          simp only [bind_eq_ok_iff, pure_eq_ok_iff] at started
          obtain ⟨others, restStarted, rfl⟩ := started
          refine ⟨others, restStarted, .inr ?_⟩
          rw [Bank.startEntry, if_pos allowed]
        · next excluded =>
          simp only [bind_eq_ok_iff, pure_eq_ok_iff, mapError_eq_ok_iff] at started
          obtain ⟨entry, disables, others, restStarted, rfl⟩ := started
          refine ⟨others, restStarted, .inr ?_⟩
          rw [Bank.startEntry, if_neg excluded, disables]
          rfl

/-- Every filter that concerns more than one worker has an entry, and no two have one name. -/
theorem lookup_of_startEntries
    {mode : FilterMode}
    {now : Nat}
    {descriptors : List FilterDescriptor}
    {seen : List FilterId}
    {entries : Entries}
    (started : startEntries mode now descriptors seen = .ok entries) :
    (descriptors.map FilterDescriptor.id).Nodup ∧
      ∀ descriptor ∈ descriptors, 1 ≤ descriptor.producers ∧ descriptor.id ∉ seen ∧
        (descriptor.isLocal = false →
          entries.lookup descriptor.id = some (Bank.startEntry mode now descriptor)) := by
  induction descriptors generalizing seen entries with
  | nil => exact ⟨List.nodup_nil, fun _ member => absurd member List.not_mem_nil⟩
  | cons first rest inductionHypothesis =>
      obtain ⟨expected, unseen, others, restStarted, opened⟩ := startEntries_cons started
      obtain ⟨distinct, opensRest⟩ := inductionHypothesis restStarted
      have different : ∀ descriptor ∈ rest, descriptor.id ≠ first.id ∧ descriptor.id ∉ seen :=
        fun descriptor member => not_or.mp fun known =>
          (opensRest descriptor member).2.1 (List.mem_cons.mpr known)
      refine ⟨List.nodup_cons.mpr ⟨fun member => ?_, distinct⟩, fun descriptor member => ?_⟩
      · obtain ⟨descriptor, inside, same⟩ := List.mem_map.mp member
        exact (different descriptor inside).1 same
      · obtain rfl | member := List.mem_cons.mp member
        · refine ⟨expected, unseen, fun elsewhere => ?_⟩
          obtain ⟨rfl, isLocal⟩ | rfl := opened
          · exact Bool.noConfusion (isLocal.symm.trans elsewhere)
          · refine List.find?_cons_of_pos ?_
            simp [Entry.id, (Bank.fresh_startEntry expected mode now).descriptor]
        · refine ⟨(opensRest descriptor member).1, (different descriptor member).2, fun elsewhere => ?_⟩
          have found := (opensRest descriptor member).2.2 elsewhere
          obtain ⟨rfl, _⟩ | rfl := opened
          · exact found
          · rw [← found]
            refine List.find?_cons_of_neg ?_
            simp [Entry.id, (Bank.fresh_startEntry expected mode now).descriptor,
              Ne.symm (different descriptor member).1]

/-- The entries have accepted nothing. -/
theorem fresh_of_startEntries
    {mode : FilterMode}
    {now : Nat}
    {descriptors : List FilterDescriptor}
    {seen : List FilterId}
    {entries : Entries}
    (started : startEntries mode now descriptors seen = .ok entries) :
    (descriptors.map FilterDescriptor.id).Nodup ∧
      ∀ descriptor ∈ descriptors, 1 ≤ descriptor.producers ∧ descriptor.id ∉ seen ∧
        (descriptor.isLocal = false →
          ∃ entry : Entry, entries.lookup descriptor.id = some entry ∧ entry.Fresh descriptor) := by
  obtain ⟨distinct, opens⟩ := lookup_of_startEntries started
  refine ⟨distinct, fun descriptor member => ?_⟩
  obtain ⟨expected, unseen, found⟩ := opens descriptor member
  exact ⟨expected, unseen, fun elsewhere => ⟨_, found elsewhere, Bank.fresh_startEntry expected mode now⟩⟩

end Coordinator

/-! ## Banks -/

namespace Bank

variable {filter target : FilterId} {now : Nat} {before after : Bank} {entry : Entry}

theorem lookup_of_entry (known : before.entry target = .ok entry) :
    before.entries.lookup target = some entry := by
  unfold Bank.entry at known
  split at known
  · next found =>
    cases known
    exact found
  · cases known

theorem entry_of_lookup (found : before.entries.lookup target = some entry) :
    before.entry target = .ok entry := by
  rw [Bank.entry, found]

/-- Every filter has an entry if no two have one name. -/
theorem lookup_of_start
    {worker : WorkerId}
    {query : QueryId}
    {mode : FilterMode}
    {descriptors : List FilterDescriptor}
    (distinct : (descriptors.map FilterDescriptor.id).Nodup)
    (expected : ∀ descriptor ∈ descriptors, 1 ≤ descriptor.producers) :
    ∀ descriptor ∈ descriptors,
      (Bank.start worker query mode descriptors now).entries.lookup descriptor.id =
        some (startEntry mode now descriptor) := by
  unfold start
  dsimp only
  induction descriptors using List.reverseRecOn with
  | nil => exact fun _ member => absurd member List.not_mem_nil
  | append_singleton earlier last inductionHypothesis =>
      intro descriptor member
      have lastFresh := fresh_startEntry (expected last (List.mem_append_right _ List.mem_cons_self))
        mode now
      have name : (startEntry mode now last).id = last.id :=
        congrArg FilterDescriptor.id lastFresh.descriptor
      rw [List.foldl_append]
      show (Entries.insert _ (startEntry mode now last)).lookup _ = _
      rw [Entries.lookup_insert, name]
      rw [List.map_append, List.nodup_append] at distinct
      obtain old | new := List.mem_append.mp member
      · rw [if_neg (distinct.2.2 _ (List.mem_map_of_mem old) _ (List.mem_singleton_self _))]
        exact inductionHypothesis distinct.1
          (fun other inside => expected other (List.mem_append_left _ inside)) descriptor old
      · obtain rfl := List.mem_singleton.mp new
        rw [if_pos rfl]

/-- The entries have accepted nothing. -/
theorem fresh_of_start
    {worker : WorkerId}
    {query : QueryId}
    {mode : FilterMode}
    {descriptors : List FilterDescriptor}
    (distinct : (descriptors.map FilterDescriptor.id).Nodup)
    (expected : ∀ descriptor ∈ descriptors, 1 ≤ descriptor.producers) :
    ∀ descriptor ∈ descriptors, ∃ entry,
      (Bank.start worker query mode descriptors now).entries.lookup descriptor.id = some entry ∧
        entry.Fresh descriptor :=
  fun descriptor member => ⟨_, lookup_of_start distinct expected descriptor member,
    fresh_startEntry (expected descriptor member) mode now⟩

/-- Taking a message. A filter has to be known only if it can be read. -/
theorem moves_of_receive
    {message : Message}
    {told : KeyFilter → Prop}
    (received : before.receive now message = .ok after)
    (known : ∀ payload published, message.notice = .publish filter payload →
      decodePayload payload = .ok published → told published)
    (found : before.entries.lookup filter = some entry) :
    ∃ next, after.entries.lookup filter = some next ∧
      entry.Moves (fun _ _ => False) told now next := by
  unfold receive at received
  split at received
  · cases received
  · split at received
    · next target payload notice =>
      simp only [bind_eq_ok_iff, pure_eq_ok_iff] at received
      obtain ⟨published, decoded, other, located, rfl⟩ := received
      refine Entries.moves_of_update (lookup_of_entry located)
        (other.id_serve now (.publish published)) (fun same => ?_) found
      subst same
      exact .inr ⟨_, .publish (known payload published notice decoded), rfl⟩
    · simp only [bind_eq_ok_iff, pure_eq_ok_iff] at received
      obtain ⟨other, located, rfl⟩ := received
      exact Entries.moves_of_update (lookup_of_entry located) (other.id_serve now .timeOut)
        (fun _ => .inr ⟨_, .timeOut, rfl⟩) found
    · simp only [bind_eq_ok_iff, pure_eq_ok_iff] at received
      obtain ⟨other, located, rfl⟩ := received
      have served : ((other.disable now).toOption.getD other) = other ∨
          ((other.disable now).toOption.getD other) = (other.serve now .disable).2 := by
        cases disables : other.disable now with
        | ok next => exact .inr (by rw [other.serve_of_disable disables]; rfl)
        | error fault => exact .inl rfl
      refine Entries.moves_of_update (lookup_of_entry located) ?_
        (fun _ => served.imp_right fun same => ⟨_, .disable, same⟩) found
      obtain same | same := served
      · rw [same]
      · rw [same, other.id_serve]
    · cases received
      rw [cancel, Entries.lookup_cancelAll, found]
      exact ⟨entry.cancel, rfl, .inr ⟨.cancel, .cancel, rfl⟩⟩
    · cases received

/-- Registering a consumer changes no entry; all that is sent is a subscription. -/
theorem entries_of_register
    {consumer : ConsumerId}
    {message : Option Message}
    (registered : before.register now consumer target = .ok (message, after)) :
    after.entries = before.entries ∧
      ∀ sent ∈ message, ∃ worker, sent.notice = .subscribe target worker := by
  simp only [register, bind_eq_ok_iff] at registered
  obtain ⟨other, _, registered⟩ := registered
  split at registered
  · cases registered
    exact ⟨rfl, fun sent same => ⟨_, congrArg Message.notice (Option.some.inj same).symm⟩⟩
  · cases registered
    exact ⟨rfl, fun sent same => absurd same (Option.not_mem_none sent)⟩

/-- A contribution changes no entry of a filter that is resolved elsewhere, and is sent as it is. -/
theorem lookup_of_contribute
    {producer : ProducerId}
    {contribution : KeyFilter}
    {message : Option Message}
    (contributed : before.contribute now target producer contribution = .ok (message, after))
    (found : before.entries.lookup filter = some entry)
    (elsewhere : entry.descriptor.isLocal = false) :
    after.entries.lookup filter = some entry ∧
      ∀ sent ∈ message, ∃ worker,
        sent.notice = .contribution target worker producer (Wire.encode contribution) := by
  simp only [contribute, bind_eq_ok_iff] at contributed
  obtain ⟨other, located, contributed⟩ := contributed
  have located := lookup_of_entry located
  split at contributed
  · next here =>
    simp only [bind_eq_ok_iff, mapError_eq_ok_iff] at contributed
    obtain ⟨⟨outcome, next⟩, merges, contributed⟩ := contributed
    cases contributed
    refine ⟨?_, fun sent same => absurd same (Option.not_mem_none sent)⟩
    have different : filter ≠ next.id := by
      have named := other.id_serve now (.merge producer contribution)
      rw [other.serve_of_merge merges, Entries.id_of_lookup located] at named
      rintro rfl
      rw [named, located, Option.some.injEq] at found
      rw [found, elsewhere] at here
      cases here
    show (before.entries.update next).lookup filter = some entry
    rw [Entries.lookup_update, found, Option.map_some, if_neg different]
  · split at contributed
    · cases contributed
      exact ⟨found, fun sent same => ⟨_, congrArg Message.notice (Option.some.inj same).symm⟩⟩
    · cases contributed
      exact ⟨found, fun sent same => absurd same (Option.not_mem_none sent)⟩

end Bank

end Spillway
