import Mathlib.Data.List.Perm.Subperm
import Spillway.Filter.Wire
import Spillway.Proofs.Cluster.Assignment

/-!
# What arrives does not depend on who contributed

The columns of a build side are shared among producers, each of which computes the filter of its share
and sends it, perhaps more than once. Whatever the shares and the order of arrival, an entry that hears
of every producer in time arrives with the filter of all columns.
-/

namespace Spillway
namespace Entry

/-- Columns of keys of one class, shared among the producers of a filter. -/
structure Shared
    (descriptor : FilterDescriptor)
    (producers : List ProducerId)
    (share : ProducerId → List (List Cell))
    (columns : List (List Cell)) :
    Prop where
  some : producers ≠ []
  expected : producers.length = descriptor.producers
  distinct : producers.Nodup
  whole : (producers.flatMap share).Perm columns
  uniform : Key.Uniform (KeyFilter.keysOf columns)

/-- A contribution on its way: when it arrives, and whose it is. -/
structure Delivery where
  now : Nat
  producer : ProducerId

/-- The call that hands a contribution over. -/
def callOf (partials : ProducerId → KeyFilter) (delivery : Delivery) : Call :=
  ⟨delivery.now, .merge delivery.producer (partials delivery.producer)⟩

/-- Contributions are merged; none of them is installed as it is. -/
theorem handed_callOf
    (partials : ProducerId → KeyFilter)
    (deliveries : List Delivery) :
    handed (deliveries.map (callOf partials)) = [] := by
  rw [handed, List.flatMap_map]
  exact List.flatMap_eq_nil_iff.mpr fun _ _ => rfl

namespace Shared

variable {descriptor : FilterDescriptor} {producers : List ProducerId}
  {share : ProducerId → List (List Cell)} {columns : List (List Cell)}

theorem one_le (shared : Shared descriptor producers share columns) : 1 ≤ descriptor.producers :=
  shared.expected ▸ List.length_pos_iff.mpr shared.some

/-- The keys of the shares of some producers. -/
theorem keysOf_flatMap (names : List ProducerId) :
    KeyFilter.keysOf (names.flatMap share) =
      names.flatMap fun producer => KeyFilter.keysOf (share producer) :=
  List.flatMap_assoc

theorem uniform_of_subset
    {names : List ProducerId}
    (shared : Shared descriptor producers share columns)
    (subset : names ⊆ producers) :
    Key.Uniform (names.flatMap fun producer => KeyFilter.keysOf (share producer)) := by
  refine shared.uniform.mono fun key member => ?_
  rw [← keysOf_flatMap] at member
  obtain ⟨column, inside, found⟩ := List.mem_flatMap.mp member
  obtain ⟨producer, named, shares⟩ := List.mem_flatMap.mp inside
  exact List.mem_flatMap.mpr ⟨column,
    shared.whole.subset (List.mem_flatMap.mpr ⟨producer, subset named, shares⟩), found⟩

end Shared

section Convergence

variable {descriptor : FilterDescriptor} {bloomBytes : Nat} {producers : List ProducerId}
  {share : ProducerId → List (List Cell)} {columns : List (List Cell)}
  {partials : ProducerId → KeyFilter}

/-- The partials are the filters of the shares. -/
def Computed
    (descriptor : FilterDescriptor)
    (bloomBytes : Nat)
    (producers : List ProducerId)
    (share : ProducerId → List (List Cell))
    (partials : ProducerId → KeyFilter) :
    Prop :=
  ∀ producer ∈ producers,
    KeyFilter.ofColumns descriptor.kind bloomBytes (share producer) = .ok (partials producer)

/-- The partials of some producers, merged in any order, are the filter of their keys. -/
theorem Shared.mergeAll_partials
    {names : List ProducerId}
    (shared : Shared descriptor producers share columns)
    (computed : Computed descriptor bloomBytes producers share partials)
    (subset : names ⊆ producers)
    (several : names ≠ []) :
    ∃ union, KeyFilter.mergeAll (names.map partials) = .ok (.some union) ∧
      KeyFilter.ofKeys descriptor.kind bloomBytes (KeyFilter.keysOf (names.flatMap share)) =
        .ok union := by
  have merged := @KeyFilter.mergeAll_ofKeys descriptor.kind bloomBytes
    (names.map fun producer => (KeyFilter.keysOf (share producer), partials producer))
  rw [List.map_map, List.flatMap_map] at merged
  rw [keysOf_flatMap]
  refine merged (fun part member => ?_) (shared.uniform_of_subset subset) ?_
  · obtain ⟨producer, named, rfl⟩ := List.mem_map.mp member
    rw [← KeyFilter.ofColumns_eq_ofKeys]
    exact computed producer (subset named)
  · exact fun empty => several (List.map_eq_nil_iff.mp empty)

/-- Once all producers are among them, the filter is that of all columns. -/
theorem Shared.ofColumns_eq
    {names : List ProducerId}
    (shared : Shared descriptor producers share columns)
    (all : names.Perm producers) :
    KeyFilter.ofColumns descriptor.kind bloomBytes columns =
      KeyFilter.ofKeys descriptor.kind bloomBytes (KeyFilter.keysOf (names.flatMap share)) := by
  rw [KeyFilter.ofColumns_eq_ofKeys]
  exact KeyFilter.ofKeys_perm _ _ shared.uniform
    (((all.flatMap_right share).trans shared.whole).symm.flatMap_right _)

/-- What an entry has accepted of these contributions. -/
structure Honest
    (producers : List ProducerId)
    (partials : ProducerId → KeyFilter)
    (contributions : List (ProducerId × KeyFilter)) :
    Prop where
  known : contributions.map Prod.fst ⊆ producers
  filters : contributions.map Prod.snd = (contributions.map Prod.fst).map partials

theorem honest_accepted
    {entry : Entry}
    {deliveries : List Delivery}
    (known : ∀ delivery ∈ deliveries, delivery.producer ∈ producers) :
    Honest producers partials (entry.accepted (deliveries.map (callOf partials))) := by
  have each : ∀ contribution ∈ entry.accepted (deliveries.map (callOf partials)),
      contribution.1 ∈ producers ∧ contribution.2 = partials contribution.1 := by
    intro contribution member
    obtain ⟨call, inside, asked⟩ := mem_of_mem_accepted member
    obtain ⟨delivery, delivered, rfl⟩ := List.mem_map.mp inside
    cases contribution
    cases asked
    exact ⟨known delivery delivered, rfl⟩
  constructor
  · intro producer member
    obtain ⟨contribution, inside, rfl⟩ := List.mem_map.mp member
    exact (each contribution inside).1
  · rw [List.map_map]
    exact List.map_congr_left fun contribution inside => (each contribution inside).2

/-- The entry waits for more producers, or it has arrived. -/
def Advances (entry : Entry) : Prop :=
  entry.state = .pending ∨ ∃ filter, entry.state = .arrived filter

theorem advances_accept
    {entry : Entry}
    (pending : entry.state = .pending)
    (producer : ProducerId)
    (aggregate : KeyFilter) :
    (entry.accept producer aggregate).2.Advances ∧
      (entry.accept producer aggregate).2.producers = entry.producers ++ [producer] := by
  unfold accept
  dsimp only
  split
  · exact ⟨.inl pending, rfl⟩
  · exact ⟨.inr ⟨aggregate, rfl⟩, rfl⟩

/-- The entry after a partial was handed over. -/
theorem next_callOf
    {entry : Entry}
    {delivery : Delivery}
    {result : MergeOutcome × Entry}
    (merges : entry.merge delivery.now delivery.producer (partials delivery.producer) = .ok result) :
    entry.next (callOf partials delivery) = result.2 :=
  congrArg Prod.snd (entry.serve_of_merge merges)

/-- A partial that comes in time is taken, unless it was taken before. -/
theorem Shared.advances_next
    {entry : Entry}
    {contributions : List (ProducerId × KeyFilter)}
    {delivery : Delivery}
    (shared : Shared descriptor producers share columns)
    (computed : Computed descriptor bloomBytes producers share partials)
    (collects : entry.Collects contributions [])
    (honest : Honest producers partials contributions)
    (same : entry.descriptor = descriptor)
    (isOpen : entry.OpenAt delivery.now)
    (known : delivery.producer ∈ producers) :
    (entry.next (callOf partials delivery)).Advances ∧
      entry.producers ++ [delivery.producer] ⊆ (entry.next (callOf partials delivery)).producers := by
  have kind : (partials delivery.producer).kind = entry.descriptor.kind :=
    same ▸ KeyFilter.kind_of_ofKeys
      (KeyFilter.ofColumns_eq_ofKeys _ _ _ ▸ computed _ known)
  by_cases fresh : delivery.producer ∈ entry.producers
  · rw [next_callOf (merge_of_known isOpen kind fresh)]
    exact ⟨.inl isOpen.1, List.append_subset.mpr
      ⟨List.Subset.refl _, List.cons_subset.mpr ⟨fresh, List.nil_subset _⟩⟩⟩
  · have named : contributions.map Prod.fst ++ [delivery.producer] ⊆ producers :=
      List.append_subset.mpr ⟨honest.known, List.cons_subset.mpr ⟨known, List.nil_subset _⟩⟩
    obtain ⟨_, merges, _⟩ := shared.mergeAll_partials computed named
      (List.append_ne_nil_of_right_ne_nil _ (List.cons_ne_nil _ _))
    rw [List.map_append, ← honest.filters, List.map_singleton] at merges
    obtain ⟨aggregate, before, union, merged, _⟩ := KeyFilter.mergeAll_concat_eq_ok_iff.mp merges
    rw [collects.merged isOpen.1] at before
    cases before
    have accepts := merge_of_openAt isOpen kind fresh
    rw [merged] at accepts
    rw [next_callOf accepts]
    obtain ⟨advances, producers⟩ := advances_accept isOpen.1 delivery.producer union
    exact ⟨advances, fun _ member => producers ▸ member⟩

/-- While an entry waits for more producers it knows all that have been in touch. -/
theorem Shared.advances_after
    {openedAt : Nat}
    {deliveries : List Delivery}
    (shared : Shared descriptor producers share columns)
    (computed : Computed descriptor bloomBytes producers share partials)
    (inTime : ∀ delivery ∈ deliveries, delivery.now < (Entry.start descriptor openedAt).deadline)
    (known : ∀ delivery ∈ deliveries, delivery.producer ∈ producers) :
    let reached := (Entry.start descriptor openedAt).after (deliveries.map (callOf partials))
    reached.Advances ∧
      (reached.state = .pending → deliveries.map Delivery.producer ⊆ reached.producers) := by
  induction deliveries using List.reverseRecOn with
  | nil => exact ⟨.inl rfl, fun _ => List.nil_subset _⟩
  | append_singleton deliveries delivery inductionHypothesis =>
      have last := List.mem_append_right deliveries (List.mem_singleton_self delivery)
      have earlier := fun other member => known other (List.mem_append_left [delivery] member)
      obtain ⟨advances, heard⟩ := inductionHypothesis
        (fun other member => inTime other (List.mem_append_left _ member)) earlier
      have collects := (collects_start shared.one_le openedAt).after
        (deliveries.map (callOf partials))
      have sameDeadline := (Entry.start descriptor openedAt).deadline_after
        (deliveries.map (callOf partials))
      have sameDescriptor := (Entry.start descriptor openedAt).descriptor_after
        (deliveries.map (callOf partials))
      rw [List.nil_append, List.nil_append, handed_callOf] at collects
      rw [List.map_append, List.map_singleton, after_append]
      set reached := (Entry.start descriptor openedAt).after (deliveries.map (callOf partials))
      show (reached.next (callOf partials delivery)).Advances ∧ _
      obtain pending | ⟨filter, arrived⟩ := advances
      · obtain ⟨nextAdvances, nextProducers⟩ := shared.advances_next computed collects
          (honest_accepted earlier) sameDescriptor
          ⟨pending, sameDeadline ▸ inTime delivery last⟩ (known delivery last)
        refine ⟨nextAdvances, fun _ => ?_⟩
        rw [List.map_append]
        refine List.Subset.trans (List.append_subset.mpr ⟨?_, List.subset_append_right _ _⟩)
          nextProducers
        exact List.Subset.trans (heard pending) (List.subset_append_left _ _)
      · have final := ((reached.serves_next (callOf partials delivery)).final
          (arrived ▸ FilterState.noConfusion)).1
        refine ⟨.inr ⟨filter, final.trans arrived⟩, fun pending => ?_⟩
        exact FilterState.noConfusion (pending.symm.trans (final.trans arrived))

/-- Producers that are all known and as many as expected are all that there are. -/
theorem Shared.perm_of_length_eq
    {names : List ProducerId}
    (shared : Shared descriptor producers share columns)
    (distinct : names.Nodup)
    (subset : names ⊆ producers)
    (all : names.length = descriptor.producers) :
    names.Perm producers :=
  (List.subperm_of_subset distinct subset).perm_of_length_le
    (Nat.le_of_eq (shared.expected.trans all.symm))

/-- Once the entry has heard of every producer it has arrived. -/
theorem Shared.not_pending
    {entry : Entry}
    {contributions : List (ProducerId × KeyFilter)}
    {installed : List KeyFilter}
    (shared : Shared descriptor producers share columns)
    (collects : entry.Collects contributions installed)
    (same : entry.descriptor = descriptor)
    (heard : entry.state = .pending → producers ⊆ entry.producers) :
    entry.state ≠ .pending := by
  intro pending
  have enough := (List.subperm_of_subset shared.distinct (heard pending)).length_le
  have counted := collects.counted pending
  have missing := collects.missing pending
  rw [shared.expected, collects.producers, List.length_map] at enough
  rw [same] at counted
  omega

/-- Somebody is told that the filter is complete, nobody else is, and it is the given filter. -/
structure CompletedWith (fresh : Entry) (calls : List Call) (whole : KeyFilter) : Prop where
  state : (fresh.after calls).state = .arrived whole
  once : (fresh.replies calls).countP Reply.completes = 1
  payload : ∀ filter, .offered (.ok (.completed filter)) ∈ fresh.replies calls →
    filter = whole ∧ Wire.encode filter = Wire.encode whole

theorem completedWith_of_arrived
    {fresh : Entry}
    {calls : List Call}
    {whole : KeyFilter}
    (pending : fresh.state = .pending)
    (arrived : (fresh.after calls).state = .arrived whole)
    (merged : handed calls = []) :
    fresh.CompletedWith calls whole where
  state := arrived
  once := by
    have told := (completed_of_state_after pending arrived).resolve_left
      (merged ▸ List.not_mem_nil)
    have some := List.countP_pos_iff.mpr ⟨_, told, completes_iff.mpr ⟨whole, rfl⟩⟩
    have most := fresh.countP_completes_le_one calls
    omega
  payload := fun filter completed => by
    have same := (state_after_of_completed completed).symm.trans arrived
    cases same
    exact ⟨rfl, rfl⟩

/-- Whatever the shares of the producers and the order in which their partials arrive, and however often
they are sent, in time or later, the entry completes with the filter of all columns. -/
theorem completedWith_ofColumns
    (shared : Shared descriptor producers share columns)
    (bloomBytes openedAt : Nat)
    (deliveries later : List Delivery)
    (inTime : ∀ delivery ∈ deliveries, delivery.now < (Entry.start descriptor openedAt).deadline)
    (known : ∀ delivery ∈ deliveries, delivery.producer ∈ producers)
    (complete : producers ⊆ deliveries.map Delivery.producer) :
    (∀ producer ∈ producers, ∃ part,
      KeyFilter.ofColumns descriptor.kind bloomBytes (share producer) = .ok part) ∧
    ∃ whole, KeyFilter.ofColumns descriptor.kind bloomBytes columns = .ok whole ∧
      ∀ partials, Computed descriptor bloomBytes producers share partials →
        (Entry.start descriptor openedAt).CompletedWith
          ((deliveries ++ later).map (callOf partials)) whole := by
  constructor
  · intro producer named
    have subset := List.cons_subset.mpr ⟨named, List.nil_subset producers⟩
    have uniform := shared.uniform_of_subset subset
    rw [List.flatMap_singleton] at uniform
    rw [KeyFilter.ofColumns_eq_ofKeys]
    exact KeyFilter.exists_ofKeys _ _ uniform
  · obtain ⟨whole, made⟩ := KeyFilter.exists_ofKeys descriptor.kind bloomBytes shared.uniform
    rw [← KeyFilter.ofColumns_eq_ofKeys] at made
    refine ⟨whole, made, fun partials computed => ?_⟩
    obtain ⟨advances, heard⟩ := shared.advances_after computed inTime known
    have collects := (collects_start shared.one_le openedAt).after
      (deliveries.map (callOf partials))
    rw [List.nil_append, List.nil_append, handed_callOf] at collects
    have sameDescriptor := (Entry.start descriptor openedAt).descriptor_after
      (deliveries.map (callOf partials))
    have resolved := shared.not_pending collects sameDescriptor fun pending =>
      List.Subset.trans complete (heard pending)
    obtain ⟨filter, arrived⟩ := advances.resolve_left resolved
    obtain ⟨all, merged⟩ := (collects.arrived filter arrived).resolve_right List.not_mem_nil
    have honest : Honest producers partials
        ((Entry.start descriptor openedAt).accepted (deliveries.map (callOf partials))) :=
      honest_accepted known
    have permuted := shared.perm_of_length_eq collects.distinct honest.known
      (by rw [List.length_map, all, sameDescriptor]; rfl)
    obtain ⟨union, unionMerged, unionMade⟩ := shared.mergeAll_partials computed honest.known
      fun empty => shared.some (List.nil_perm.mp (empty ▸ permuted))
    rw [← honest.filters, merged] at unionMerged
    rw [shared.ofColumns_eq permuted, unionMade] at made
    cases unionMerged
    cases made
    refine completedWith_of_arrived rfl ?_ (handed_callOf partials (deliveries ++ later))
    rw [List.map_append, after_append,
      state_after_of_resolved (arrived ▸ FilterState.noConfusion), arrived]

end Convergence

/-- Two producers share three columns. -/
def sampleShare (producer : ProducerId) : List (List Cell) :=
  if producer.value = 1 then [[.int 3, .null]] else [[.int 9], []]

/-- The second producer is heard of first, and again after the deadline. -/
def sampleDeliveries : List Delivery :=
  [⟨10, ⟨2⟩⟩, ⟨20, ⟨2⟩⟩, ⟨30, ⟨1⟩⟩]

theorem completedWith_of_sampleShare :
    (∀ producer ∈ [(⟨1⟩ : ProducerId), ⟨2⟩], ∃ part,
      KeyFilter.ofColumns .minMax 4096 (sampleShare producer) = .ok part) ∧
    ∃ whole,
      KeyFilter.ofColumns .minMax 4096 [[.int 9], [.int 3, .null], []] = .ok whole ∧
        ∀ partials, Computed sampleEntry.descriptor 4096 [⟨1⟩, ⟨2⟩] sampleShare partials →
          sampleEntry.CompletedWith
            ((sampleDeliveries ++ [Delivery.mk 400 ⟨2⟩]).map (callOf partials)) whole := by
  have shared : Shared sampleEntry.descriptor [⟨1⟩, ⟨2⟩] sampleShare
      [[.int 9], [.int 3, .null], []] :=
    { some := by decide
      expected := rfl
      distinct := by decide
      whole := by decide
      uniform := by unfold Key.Uniform; decide }
  exact completedWith_ofColumns shared 4096 0 _ _ (by decide) (by decide) (by decide)

end Entry
end Spillway
