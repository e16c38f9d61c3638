import Spillway.Cluster.Scan
import Spillway.Proofs.Filter.KeyFilter
import Spillway.Proofs.Outcome

/-!
# What a scan returns

A scan returns the rows that every filter lets through which arrived in time. Whether a range is skipped
makes no difference to that: filters exclude the bounds of a column only if they let none of its keys
through. The rows that were read and not filtered away are the ones that were returned.
-/

namespace Spillway

open Step

/-- Whether a row has a key in the column of the filter, and the key passes. -/
def AppliedFilter.passes
    (applied : AppliedFilter)
    (schema : Schema)
    (row : Row) : Bool :=
  (schema.keyOf applied.column row).any applied.filter.test

namespace Scan

/-- The rows of a chunk that every filter lets through. -/
def kept
    (applied : List AppliedFilter)
    (chunk : Chunk) : Chunk :=
  chunk.filterRows fun row => applied.all fun filter => filter.passes chunk.schema row

/-- The rows of chunks that every filter lets through, without the chunks that have none. -/
def keptChunks
    (applied : List AppliedFilter)
    (chunks : List Chunk) : List Chunk :=
  (chunks.map (kept applied)).filter (!·.isEmpty)

/-- Rows can be keyed by the columns of the filters, unless there are none. -/
def Keyed
    (applied : List AppliedFilter)
    (chunk : Chunk) : Prop :=
  chunk.isEmpty = false →
    ∀ filter ∈ applied, ∃ position, chunk.keyPosition filter.column = .ok position

/-- The bounds of a range hold of the columns of the filters. -/
def Bounded
    (applied : List AppliedFilter)
    (range : ScanRange) : Prop :=
  ∀ filter ∈ applied, ∀ low high, range.boundsOf filter.column = some (low, high) →
    ∀ chunk ∈ range.chunks, ∀ row ∈ chunk.rows, ∀ key,
      chunk.schema.keyOf filter.column row = some key → low ≤ key ∧ key ≤ high

/-- The range can be read with the filters: their columns are there, and the bounds are right. -/
structure Suits
    (applied : List AppliedFilter)
    (range : ScanRange) : Prop where
  keyed : ∀ chunk ∈ range.chunks, Keyed applied chunk
  bounded : Bounded applied range

variable {applied : List AppliedFilter} {chunk : Chunk} {chunks : List Chunk} {range : ScanRange}

/-! ## Rows -/

/-- A filter by itself keeps the rows that it lets through. -/
theorem filterChunk_eq
    (filter : AppliedFilter)
    (keyed : chunk.isEmpty = false → ∃ position, chunk.keyPosition filter.column = .ok position) :
    filter.filter.filterChunk chunk filter.column =
      .ok (chunk.filterRows (filter.passes chunk.schema)) := by
  have exists_kept : ∃ kept, filter.filter.filterChunk chunk filter.column = .ok kept := by
    cases empty : chunk.isEmpty with
    | true => exact ⟨chunk, if_pos empty⟩
    | false =>
        obtain ⟨position, located⟩ := keyed empty
        exact KeyFilter.exists_filterChunk _ located
  obtain ⟨kept, filtered⟩ := exists_kept
  obtain ⟨schema, rows⟩ := KeyFilter.rows_of_filterChunk filtered
  rw [filtered, Except.ok.injEq]
  exact Chunk.ext schema rows

/-- A chunk of the same schema that has no more rows can be filtered as well. -/
theorem Keyed.filterRows
    (keyed : Keyed applied chunk)
    (keep : Row → Bool) :
    Keyed applied (chunk.filterRows keep) := by
  intro some filter member
  refine keyed ?_ filter member
  rw [Chunk.isEmpty, Chunk.rows_filterRows] at some
  cases empty : chunk.isEmpty with
  | false => rfl
  | true => rw [List.isEmpty_iff.mp empty] at some; cases some

/-- One filter after the other, the rows are kept that every one of them lets through. -/
theorem filterAll_eq (keyed : Keyed applied chunk) : filterAll applied chunk = .ok (kept applied chunk) := by
  unfold filterAll
  induction applied generalizing chunk with
  | nil =>
      have same : chunk = kept [] chunk := Chunk.ext rfl (List.filter_eq_self.mpr fun _ _ => rfl).symm
      rw [List.foldlM_nil, ← same]
      rfl
  | cons filter others inductionHypothesis =>
      have first := filterChunk_eq filter fun some => keyed some filter List.mem_cons_self
      have rest : Keyed others chunk :=
        fun some other member => keyed some other (List.mem_cons_of_mem _ member)
      rw [List.foldlM_cons, first]
      refine (inductionHypothesis (rest.filterRows _)).trans (congrArg Except.ok ?_)
      refine Chunk.ext rfl ?_
      unfold kept
      rw [Chunk.rows_filterRows, Chunk.rows_filterRows, Chunk.rows_filterRows, List.filter_filter]
      refine List.filter_congr fun row _ => ?_
      rw [List.all_cons, Bool.and_comm]
      rfl

/-- Filters that exclude a range let none of its rows through. -/
theorem keptChunks_of_excludes
    (bounded : Bounded applied range)
    (excluded : excludes applied range = true) :
    keptChunks applied range.chunks = [] := by
  obtain ⟨filter, member, rules⟩ := List.any_eq_true.mp excluded
  split at rules
  case h_2 => cases rules
  case h_1 low high found =>
    rw [Bool.not_eq_true'] at rules
    refine List.filter_eq_nil_iff.mpr fun result there => ?_
    obtain ⟨chunk, inside, rfl⟩ := List.mem_map.mp there
    have none : (kept applied chunk).rows = [] := by
      refine List.filter_eq_nil_iff.mpr fun row rowMember passes => ?_
      have through := List.all_eq_true.mp passes filter member
      obtain ⟨key, keyed, passing⟩ := (Option.any_eq_true _ _).mp through
      obtain ⟨above, below⟩ := bounded filter member low high found chunk inside row rowMember key keyed
      rw [KeyFilter.test_of_not_overlaps rules above below] at passing
      cases passing
    rw [Chunk.isEmpty, none]
    decide

/-! ## Counts -/

/-- The scan after some more calls: of all rows that were read meanwhile, so many were not filtered
away. -/
structure Counts
    (returned : Nat)
    (before after : Scan) : Prop where
  balance : after.stats.rowsRead + before.stats.rowsFiltered =
    before.stats.rowsRead + after.stats.rowsFiltered + returned
  filters : after.filters = before.filters
  post : after.post = before.post

theorem Counts.refl (scan : Scan) : Counts 0 scan scan :=
  ⟨rfl, rfl, rfl⟩

theorem Counts.trans
    {returned more : Nat}
    {first second third : Scan}
    (one : Counts returned first second)
    (another : Counts more second third) :
    Counts (returned + more) first third where
  balance := by
    have balance := one.balance
    have later := another.balance
    omega
  filters := another.filters.trans one.filters
  post := another.post.trans one.post

theorem ends_count
    {scan : Scan}
    {ok : PUnit → Scan → Prop}
    {failed : Status → Scan → Prop}
    (change : ScanStats → ScanStats) :
    (count change).Ends scan ok failed ↔ ok ⟨⟩ { scan with stats := change scan.stats } :=
  Iff.rfl

theorem keptChunks_cons
    (applied : List AppliedFilter)
    (chunk : Chunk)
    (chunks : List Chunk) :
    keptChunks applied (chunk :: chunks) =
      if (kept applied chunk).isEmpty then keptChunks applied chunks
      else kept applied chunk :: keptChunks applied chunks := by
  unfold keptChunks
  rw [List.map_cons, List.filter_cons]
  cases (kept applied chunk).isEmpty <;> rfl

theorem total_length_keptChunks
    (applied : List AppliedFilter)
    (chunks : List Chunk) :
    total Chunk.length (keptChunks applied chunks) =
      total (fun chunk => (kept applied chunk).length) chunks := by
  induction chunks with
  | nil => rfl
  | cons chunk chunks inductionHypothesis =>
      rw [keptChunks_cons, total_cons, ← inductionHypothesis]
      split
      · next none =>
        have zero : (kept applied chunk).length = 0 := List.isEmpty_iff_length_eq_zero.mp none
        rw [zero, Nat.zero_add]
      · rw [total_cons]

/-- Every row that is read is filtered away or returned. -/
theorem ends_readChunks
    (keyed : ∀ chunk ∈ chunks, Keyed applied chunk)
    (scan : Scan) :
    (readChunks applied chunks).Ends scan
      (fun returned after => returned = keptChunks applied chunks ∧ after.applied = scan.applied ∧
        Counts (total Chunk.length returned) scan after)
      fun _ _ => False := by
  induction chunks generalizing scan with
  | nil => exact ⟨rfl, rfl, .refl scan⟩
  | cons chunk chunks inductionHypothesis =>
      have here := filterAll_eq (keyed chunk List.mem_cons_self)
      have there : ∀ chunk ∈ chunks, Keyed applied chunk :=
        fun other member => keyed other (List.mem_cons_of_mem _ member)
      rw [readChunks, ends_bind, ends_count, here, ends_bind, ends_ofExcept]
      refine ⟨fun result same => ?_, fun _ failed => (by cases failed)⟩
      cases same
      rw [ends_bind, ends_count, ends_bind]
      refine (inductionHypothesis there _).mono (fun others after rest => ?_) fun _ _ => id
      obtain ⟨rfl, applied_eq, counts⟩ := rest
      have returned : (if (kept applied chunk).isEmpty then keptChunks applied chunks
          else kept applied chunk :: keptChunks applied chunks) = keptChunks applied (chunk :: chunks) :=
        (keptChunks_cons ..).symm
      rw [ends_pure, returned]
      refine ⟨rfl, applied_eq, ?_⟩
      have fewer : (kept applied chunk).length ≤ chunk.length := List.length_filter_le _ _
      rw [total_length_keptChunks] at counts ⊢
      rw [total_cons]
      refine Counts.trans ?_ counts
      exact ⟨by dsimp only; omega, rfl, rfl⟩

/-- A range is read as if it were not skipped, whether it is or not. -/
theorem ends_readRange
    {scan : Scan}
    (suits : Suits (scan.applied.getD []) range) :
    (readRange range).Ends scan
      (fun returned after => returned = keptChunks (scan.applied.getD []) range.chunks ∧
        after.applied = scan.applied ∧ Counts (total Chunk.length returned) scan after)
      fun _ _ => False := by
  rw [readRange, ends_bind, ends_get, ends_bind, ends_count, ends_ite]
  refine ⟨fun excluded => ?_, fun _ => ?_⟩
  · rw [ends_bind, ends_count, ends_pure, keptChunks_of_excludes suits.bounded excluded]
    exact ⟨rfl, rfl, rfl, rfl, rfl⟩
  · refine (ends_readChunks suits.keyed _).mono (fun _ after read => ?_) fun _ _ => id
    obtain ⟨returned, applied_eq, counts⟩ := read
    exact ⟨returned, applied_eq, counts.balance, counts.filters, counts.post⟩

/-! ## Waiting -/

/-- How waiting for a filter ended, with the column that the filter applies to. -/
structure Answer where
  filter : FilterId
  column : String
  outcome : WaitOutcome

/-- The filter to apply, if it arrived. -/
def Answer.applied? (answer : Answer) : Option AppliedFilter :=
  answer.outcome.filter?.map fun filter => ⟨answer.filter, answer.column, filter⟩

/-- What a waiter who is not sent away gets of a filter that is in a state when the waiting ends. -/
def answerTo : FilterState → WaitOutcome
  | .arrived filter => .arrived filter
  | .disabled => .disabled
  | .timedOut | .pending => .timedOut

/-- At most time has passed. -/
def Passes (before after : Network) : Prop :=
  after = before ∨ ∃ moment, after = before.advance moment

/-- A scan waited at a post for one filter after the other, and time passed meanwhile. The answer for each
is how far it had come in the bank at that post when the waiting for it ended. -/
inductive Waited (post : Nat) : Network → List Answer → Network → Prop
  | done
      (network : Network) :
      Waited post network [] network
  | next
      {network after last : Network}
      {filter : FilterId}
      {entry later : Entry}
      {answers : List Answer}
      (found : network.bankEntry post filter = .ok entry)
      (passes : Passes network after)
      (there : after.bankEntry post filter = .ok later)
      (stays : later.cancelled = false)
      (rest : Waited post after answers last) :
      Waited post network
        (⟨filter, entry.descriptor.target, answerTo (later.seenAt after.clock).state⟩ :: answers) last

/-- The filters are those that had arrived in the scan's own bank, of all that it asked for, when it waited
for them from a state of the network on. -/
def Arrived
    (scan : Scan)
    (network : Network)
    (applied : List AppliedFilter) : Prop :=
  ∃ answers last, Waited scan.post network answers last ∧ answers.map Answer.filter = scan.filters ∧
    answers.filterMap Answer.applied? = applied

theorem stays_of_answer?
    {entry : Entry}
    {now limit : Nat}
    {outcome : WaitOutcome}
    (answered : entry.answer? now limit = some outcome)
    (kept : outcome ≠ .cancelled) :
    entry.cancelled = false ∧ outcome = answerTo (entry.seenAt now).state := by
  unfold Entry.answer? at answered
  split at answered
  case isTrue => exact absurd (Option.some.inj answered).symm kept
  case isFalse running =>
    refine ⟨Bool.eq_false_iff.mpr running, ?_⟩
    split at answered
    case h_4 pending =>
      split at answered
      · rw [pending, ← Option.some.inj answered]
        rfl
      · cases answered
    all_goals
      next state =>
        rw [state, ← Option.some.inj answered]
        rfl

/-- A waiter that nothing is said to when its time is over gets what is said of a pending filter. -/
theorem stays_of_getD
    {entry : Entry}
    {now limit : Nat}
    (kept : (entry.answer? now limit).getD .timedOut ≠ .cancelled) :
    entry.cancelled = false ∧
      (entry.answer? now limit).getD .timedOut = answerTo (entry.seenAt now).state := by
  cases answered : entry.answer? now limit with
  | some outcome =>
      rw [answered] at kept
      exact stays_of_answer? answered kept
  | none =>
      unfold Entry.answer? at answered
      split at answered
      case isTrue => cases answered
      case isFalse running =>
        refine ⟨Bool.eq_false_iff.mpr running, ?_⟩
        split at answered
        case h_4 pending =>
          rw [pending]
          rfl
        all_goals cases answered

/-- Waiting for one filter lets time pass, and its outcome is how far the filter has come by then. -/
theorem ends_await
    {post since span : Nat}
    {filter : FilterId}
    (network : Network) :
    (Network.await (Network.bankEntry post filter) since span).Ends network
      (fun outcome after => outcome ≠ .cancelled → ∃ later, Passes network after ∧
        after.bankEntry post filter = .ok later ∧ later.cancelled = false ∧
        outcome = answerTo (later.seenAt after.clock).state)
      fun _ _ => True := by
  rw [Network.await, ends_bind, ends_get, ends_bind, ends_ofExcept]
  refine ⟨fun entry found => ?_, fun _ _ => trivial⟩
  dsimp only
  split
  case h_1 outcome answered =>
    rw [ends_pure]
    intro kept
    obtain ⟨stays, same⟩ := stays_of_answer? answered kept
    exact ⟨entry, .inl rfl, found, stays, same⟩
  case h_2 =>
    rw [ends_bind, ends_set, ends_bind, ends_ofExcept]
    refine ⟨fun later there => ?_, fun _ _ => trivial⟩
    rw [ends_pure]
    intro kept
    obtain ⟨stays, same⟩ := stays_of_getD kept
    exact ⟨later, .inr ⟨_, rfl⟩, there, stays, same⟩

/-- Waiting at a post for some filters, one after the other, ends with those that arrived. -/
def WaitedFor
    (post : Nat)
    (network : Network)
    (filters : List FilterId)
    (applied : List AppliedFilter)
    (last : Network) : Prop :=
  ∃ answers, Waited post network answers last ∧ answers.map Answer.filter = filters ∧
    answers.filterMap Answer.applied? = applied

/-- The first answer is in front of those to the filters that are left. -/
theorem WaitedFor.next
    {post : Nat}
    {network after last : Network}
    {filter : FilterId}
    {entry later : Entry}
    {filters : List FilterId}
    {applied : List AppliedFilter}
    (waited : WaitedFor post after filters applied last)
    (found : network.bankEntry post filter = .ok entry)
    (passes : Passes network after)
    (there : after.bankEntry post filter = .ok later)
    (stays : later.cancelled = false) :
    WaitedFor post network (filter :: filters)
      ((Answer.applied? ⟨filter, entry.descriptor.target,
        answerTo (later.seenAt after.clock).state⟩).toList ++ applied) last := by
  obtain ⟨answers, more, names, arrived⟩ := waited
  refine ⟨_, .next found passes there stays more, by rw [List.map_cons, names], ?_⟩
  rw [List.filterMap_cons, arrived]
  cases Answer.applied? ⟨filter, entry.descriptor.target,
    answerTo (later.seenAt after.clock).state⟩ <;> rfl

/-- A scan has read no row, and knows of its filters what it knew before. -/
structure Idles
    (before after : Scan) : Prop extends Counts 0 before after where
  applied : after.applied = before.applied

theorem Idles.refl (scan : Scan) : Idles scan scan where
  toCounts := .refl scan
  applied := rfl

theorem Idles.trans
    {first second third : Scan}
    (one : Idles first second)
    (another : Idles second third) :
    Idles first third where
  toCounts := one.toCounts.trans another.toCounts
  applied := another.applied.trans one.applied

/-- Waiting reads no row. -/
theorem ends_awaitEach
    (cancelled : Bool)
    (limit : Option Nat)
    (filters : List FilterId)
    (network : Network)
    (scan : Scan) :
    (awaitEach cancelled limit filters).Ends (network, scan)
      (fun applied after => WaitedFor scan.post network filters applied after.1 ∧ Idles scan after.2)
      fun _ after => Idles scan after.2 := by
  induction filters generalizing network scan with
  | nil => exact ⟨⟨[], .done network, rfl, rfl⟩, .refl scan⟩
  | cons filter filters inductionHypothesis =>
      rw [awaitEach, ends_ite]
      refine ⟨fun _ => .refl scan, fun _ => ?_⟩
      rw [ends_bind, ends_get]
      dsimp only
      rw [ends_bind, ends_ofExcept]
      refine ⟨fun entry found => ?_, fun _ _ => .refl scan⟩
      rw [ends_bind, onNetwork, ends_focus]
      refine (ends_await network).mono (fun outcome after waited => ?_) fun _ _ _ => .refl scan
      -- Whatever the answer, it is counted, and the waiting goes on with the filters that are left.
      have next : ∀ change : ScanStats → ScanStats, outcome ≠ .cancelled →
          (change scan.stats).rowsRead = scan.stats.rowsRead →
          (change scan.stats).rowsFiltered = scan.stats.rowsFiltered →
          (awaitEach cancelled limit filters).Ends (after, { scan with stats := change scan.stats })
            (fun applied last => WaitedFor scan.post network (filter :: filters)
                ((Answer.applied? ⟨filter, entry.descriptor.target, outcome⟩).toList ++ applied) last.1 ∧
              Idles scan last.2)
            fun _ last => Idles scan last.2 := by
        intro change kept read filtered
        have idles : Idles scan { scan with stats := change scan.stats } :=
          ⟨⟨by dsimp only; omega, rfl, rfl⟩, rfl⟩
        obtain ⟨later, passes, there, stays, same⟩ := waited kept
        refine (inductionHypothesis after _).mono (fun applied last rest => ?_) fun _ _ => idles.trans
        rw [same]
        exact ⟨rest.1.next found passes there stays, idles.trans rest.2⟩
      cases outcome with
      | arrived found =>
          exact (ends_bind _ _).mpr ((ends_bind _ _).mpr (next
            (fun stats => { stats with arrived := stats.arrived + 1 }) (by simp) rfl rfl))
      | timedOut =>
          exact (ends_bind _ _).mpr (next
            (fun stats => { stats with timedOut := stats.timedOut + 1 }) (by simp) rfl rfl)
      | disabled =>
          exact (ends_bind _ _).mpr (next
            (fun stats => { stats with disabled := stats.disabled + 1 }) (by simp) rfl rfl)
      | cancelled => exact .refl scan

/-- What a scan knows of its filters after a call at a state of the network: what it knew before, or else
those that arrived when it waited in this call. -/
structure Learns
    (network : Network)
    (before after : Scan) : Prop where
  still : ∀ applied, before.applied = some applied → after.applied = some applied
  waited : before.applied = none → ∀ applied, after.applied = some applied →
    Arrived before network applied

theorem Learns.of_eq
    {network : Network}
    {before after : Scan}
    (same : after.applied = before.applied) :
    Learns network before after where
  still _ known := same.trans known
  waited unknown applied known := by
    rw [same, unknown] at known
    cases known

/-- Once a scan has waited its filters are known: those that arrived. -/
theorem ends_awaitFilters
    (cancelled : Bool)
    (network : Network)
    (scan : Scan) :
    (awaitFilters cancelled).Ends (network, scan)
      (fun _ after => (∃ applied, after.2.applied = some applied) ∧ Learns network scan after.2 ∧
        Counts 0 scan after.2)
      fun _ after => Idles scan after.2 := by
  rw [awaitFilters, ends_bind, ends_get]
  dsimp only
  rw [ends_ite]
  refine ⟨fun known => ?_, fun unknown => ?_⟩
  · exact ⟨Option.isSome_iff_exists.mp known, .of_eq rfl, .refl scan⟩
  · rw [ends_bind]
    refine (ends_awaitEach cancelled _ scan.filters network scan).mono (fun applied after waited => ?_)
      fun _ _ failed => failed
    obtain ⟨⟨answers, all, names, arrived⟩, idles⟩ := waited
    refine ⟨⟨applied, rfl⟩, ⟨fun _ known => ?_, fun _ other known => ?_⟩, idles.balance, idles.filters,
      idles.post⟩
    · rw [known] at unknown
      exact absurd rfl unknown
    · exact ⟨answers, after.1, all, names, arrived.trans (Option.some.inj known)⟩

/-! ## Any calls in a row -/

section

variable {network : Network} {scan : Scan}

/-- A call waits for the filters if they are not known yet, and then returns the rows that all of them let
through. -/
theorem ends_read
    {cancelled : Bool}
    (suits : ∀ applied, ((awaitFilters cancelled).outcome (network, scan)).2.2.applied = some applied →
      Suits applied range) :
    (Scan.read cancelled range).Ends (network, scan)
      (fun chunks after => (∃ applied, after.2.applied = some applied ∧
          chunks = keptChunks applied range.chunks) ∧
        Learns network scan after.2 ∧ Counts (total Chunk.length chunks) scan after.2)
      fun _ after => Learns network scan after.2 ∧ Counts 0 scan after.2 := by
  rw [Scan.read, ends_bind]
  refine (ends_awaitFilters cancelled network scan).and_succeeds.mono
    (fun _ between waited => ?_) fun _ _ idles => ⟨.of_eq idles.applied, idles.toCounts⟩
  obtain ⟨succeeds, ⟨applied, known⟩, learns, counts⟩ := waited
  rw [succeeds] at suits
  rw [ends_ite]
  refine ⟨fun _ => ⟨learns, counts⟩, fun _ => ?_⟩
  have suited : Suits (between.2.applied.getD []) range := by
    rw [known]
    exact suits applied known
  rw [onScan, ends_focus]
  refine (ends_readRange suited).mono (fun chunks after read => ?_) fun _ _ => False.elim
  obtain ⟨same, still, more⟩ := read
  have sum := counts.trans more
  rw [Nat.zero_add] at sum
  rw [known] at same
  refine ⟨⟨applied, still.trans known, same⟩, ⟨fun other was => ?_, fun unknown other is => ?_⟩, sum⟩
  · exact still.trans (learns.still other was)
  · exact learns.waited unknown other (still.symm.trans is)

/-- Once its filters are known, a scan that is not cancelled reads every range that suits them. -/
theorem exists_succeeds_read
    (known : scan.applied = some applied)
    (suits : Suits applied range) :
    ∃ after, (Scan.read false range).Succeeds (network, scan) (keptChunks applied range.chunks) after := by
  have suited : Suits (scan.applied.getD []) range := by
    rw [known]
    exact suits
  have serves : (Scan.read false range).Ends (network, scan)
      (fun chunks _ => chunks = keptChunks applied range.chunks) fun _ _ => False := by
    rw [Scan.read, ends_bind, awaitFilters, ends_bind, ends_get]
    dsimp only
    rw [ends_ite]
    refine ⟨fun _ => ?_, fun unknown => absurd (by rw [known]; rfl) unknown⟩
    rw [ends_pure, ends_ite]
    refine ⟨fun contrary => absurd contrary (by decide), fun _ => ?_⟩
    rw [onScan, ends_focus]
    refine (ends_readRange suited).mono (fun chunks after read => ?_) fun _ _ => id
    rw [read.1, known]
    rfl
  obtain ⟨chunks, after, succeeds⟩ := serves.serves.exists_succeeds
  exact ⟨after, serves.of_succeeds succeeds ▸ succeeds⟩

end

/-- What a call returns; a call that fails returns nothing. -/
def returned (result : Except Status (List Chunk)) : List Chunk :=
  result.toOption.getD []

/-- A scan that was called any number of times, perhaps in vain, with the state of the network at the call
that made its filters known, and the chunks that it has returned. Every range suits the filters that are
known when it is read. Between two calls the network can change in any way. -/
inductive Scanned (start : Scan) : Option Network → List Chunk → Scan → Prop
  | start : Scanned start none [] start
  | read
    {resolution : Option Network}
    {chunks : List Chunk}
    {scan after : Scan}
    {result : Except Status (List Chunk)}
    {next : Network}
    (scanned : Scanned start resolution chunks scan)
    (network : Network)
    (cancelled : Bool)
    (range : ScanRange)
    (suits : ∀ applied, ((awaitFilters cancelled).outcome (network, scan)).2.2.applied = some applied →
      Suits applied range)
    (reads : (Scan.read cancelled range).outcome (network, scan) = (result, next, after)) :
    Scanned start (if after.applied.isSome = scan.applied.isSome then resolution else some network)
      (chunks ++ returned result) after

/-- The filters of the scan are those that had arrived when it waited for them. -/
def Resolved
    (start : Scan)
    (resolution : Option Network)
    (scan : Scan) : Prop :=
  ∀ applied, scan.applied = some applied →
    ∃ network, resolution = some network ∧ Arrived start network applied

theorem Resolved.learns
    {start before after : Scan}
    {resolution : Option Network}
    {network : Network}
    (resolved : Resolved start resolution before)
    (learns : Learns network before after)
    (filters : before.filters = start.filters)
    (post : before.post = start.post) :
    Resolved start (if after.applied.isSome = before.applied.isSome then resolution else some network)
      after := by
  intro applied known
  cases was : before.applied with
  | some other =>
      have same := learns.still other was
      rw [known, Option.some.injEq] at same
      subst same
      rw [known, if_pos rfl]
      exact resolved applied was
  | none =>
      rw [known, if_neg (by simp)]
      obtain ⟨answers, last, waited, names, arrived⟩ := learns.waited was applied known
      exact ⟨network, rfl, answers, last, post ▸ waited, names.trans filters, arrived⟩

theorem Scanned.stands
    {start scan : Scan}
    {resolution : Option Network}
    (made : start.applied = none)
    (scanned : Scanned start resolution chunks scan) :
    Resolved start resolution scan ∧ Counts (total Chunk.length chunks) start scan := by
  induction scanned with
  | start =>
      refine ⟨fun applied known => ?_, .refl start⟩
      rw [made] at known
      cases known
  | @read resolution chunks scan after result next _ network cancelled range suits reads
      inductionHypothesis =>
      obtain ⟨resolved, counts⟩ := inductionHypothesis
      have ends := ends_read suits
      unfold Ends at ends
      rw [reads] at ends
      rw [total_append]
      cases result with
      | ok more =>
          obtain ⟨-, learns, later⟩ := ends
          exact ⟨resolved.learns learns counts.filters counts.post, counts.trans later⟩
      | error status =>
          exact ⟨resolved.learns ends.1 counts.filters counts.post, counts.trans ends.2⟩

/-- What a scan does from now on, and what it has done so far. -/
structure Filtered
    (start : Scan)
    (resolution : Option Network)
    (chunks : List Chunk)
    (scan : Scan) : Prop where
  resolved : Resolved start resolution scan
  reads : ∀ applied, scan.applied = some applied → ∀ network range, Suits applied range →
    ∃ after, (Scan.read false range).Succeeds (network, scan) (keptChunks applied range.chunks) after
  skips : ∀ applied, scan.applied = some applied → ∀ range, Bounded applied range →
    excludes applied range = true → keptChunks applied range.chunks = []
  balanced : scan.stats.rowsRead = scan.stats.rowsFiltered + total Chunk.length chunks

/-- Whatever became of its filters, a scan applies those that had arrived in its bank when it waited for
them. It returns of every range, chunk by chunk, the rows that have a key in the column of each of them and
pass it, and counts them right. It skips ranges only where there are none. -/
theorem filtered_of_scanned
    {start scan : Scan}
    {resolution : Option Network}
    (made : start.applied = none)
    (fresh : start.stats = {})
    (scanned : Scanned start resolution chunks scan) :
    Filtered start resolution chunks scan := by
  obtain ⟨resolved, counts⟩ := scanned.stands made
  refine ⟨resolved, fun _ known _ _ suits => exists_succeeds_read known suits,
    fun _ _ _ bounded => keptChunks_of_excludes bounded, ?_⟩
  have balance := counts.balance
  rw [fresh] at balance
  dsimp only at balance
  omega

namespace Sample

def schema : Schema := [{ name := "k", type := .int64 }]

def interval : KeyFilter := .range (.between (.int 3) (.int 5) rfl (by decide))

def describe (id : FilterId) : FilterDescriptor where
  id
  kind := .minMax
  target := "k"
  build := "k"
  producers := 1
  deadline := 1000
  bloomBytes := 0

/-- A network with a bank that has one filter and gave another one up. -/
def network : Network where
  posts := #[{ bank := {
    worker := ⟨1⟩
    query := ⟨6, 7⟩
    mode := .everywhere
    entries := [
      { descriptor := describe ⟨1⟩, deadline := 1000, state := .arrived interval, outstanding := 0 },
      { descriptor := describe ⟨2⟩, deadline := 1000, state := .timedOut, outstanding := 1 }] } }]

def scan : Scan where
  consumer := ⟨0⟩
  post := 0
  filters := [⟨1⟩, ⟨2⟩]
  maxWait := 10

def near : ScanRange where
  chunks := [⟨schema, [[.int 1], [.null], [.int 4]], by decide⟩]

def far : ScanRange where
  chunks := [⟨schema, [[.int 8], [.null]], by decide⟩]
  bounds := [("k", .int 8, .int 9)]

def between : Scan := ((Scan.read false near).outcome (network, scan)).2.2

def last : Scan := ((Scan.read false far).outcome (network, between)).2.2

/-- The filter that arrives. -/
def inTime : List AppliedFilter := [⟨⟨1⟩, "k", interval⟩]

/-- Chunks of the schema have a column of keys. -/
theorem keyed_of_schema
    {chunk : Chunk}
    (fits : chunk.schema = schema) :
    Keyed inTime chunk := by
  intro _ filter member
  cases List.mem_singleton.mp member
  refine ⟨0, Chunk.keyPosition_eq_ok_iff.mpr ?_⟩
  rw [fits]
  exact ⟨rfl, _, rfl, rfl⟩

theorem suits_near : Suits inTime near where
  keyed chunk member := keyed_of_schema (by rw [List.mem_singleton.mp member])
  bounded filter member low high found := by
    cases List.mem_singleton.mp member
    cases found

theorem suits_far : Suits inTime far where
  keyed chunk member := keyed_of_schema (by rw [List.mem_singleton.mp member])
  bounded filter member low high found chunk inside row rowMember key keyed := by
    cases List.mem_singleton.mp member
    cases found
    cases List.mem_singleton.mp inside
    obtain rfl | rfl : row = [.int 8] ∨ row = [.null] := by simpa using rowMember
    · cases keyed
      decide
    · cases keyed

/-- Of two ranges one is skipped, and of the other one a row is returned. -/
theorem filtered_of_scans :
    scan.applied = none ∧ scan.stats = {} ∧ last.applied = some inTime ∧
      last.stats =
        { ranges := 2, prunedRanges := 1, rowsRead := 3, rowsFiltered := 2, arrived := 1, timedOut := 1 } ∧
      ∃ chunks, chunks.flatMap Chunk.rows = [[.int 4]] ∧ Scanned scan (some network) chunks last ∧
        Filtered scan (some network) chunks last := by
  have known : ((awaitFilters false).outcome (network, scan)).2.2.applied = some inTime := rfl
  have still : ((awaitFilters false).outcome (network, between)).2.2.applied = some inTime := rfl
  have first := Scanned.start.read network false near (fun filters same =>
    Option.some.inj (known.symm.trans same) ▸ suits_near) rfl
  have second := first.read network false far (fun filters same =>
    Option.some.inj (still.symm.trans same) ▸ suits_far) rfl
  exact ⟨rfl, rfl, rfl, rfl, _, rfl, second, filtered_of_scanned rfl rfl second⟩

end Sample

end Scan
end Spillway
