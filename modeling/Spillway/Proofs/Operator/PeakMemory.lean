import Spillway.Proofs.Operator.Asked
import Spillway.Proofs.Operator.Watermarks

/-!
# Peak memory

Until the end of its probe side is asked for, a join never holds more than its memory limit, whatever fails,
and an aggregation never does. At the end of a join spilled partitions are loaded whether they fit or not.
But whenever one is visited nothing is held, so what is charged for it is within the limit, unless it has
one build row only, which cannot be split.
-/

namespace Spillway

open Step

namespace Join

variable {others : Nat → Nat} {met : Bool} {join before after : Join}

/-! ## The peak at the end -/

/-- At the end of the probe side the partition is visited and loaded from the store. -/
structure LoadsAtEnd
    (join : Join)
    (partition : Nat)
    (before : Join)
    (record : PartitionRecord) : Prop where
  meets : join.Meets partition before record
  loadable : record.Loadable (before.input.ledger.available before.input.account)
  loaded : ∃ chunks loaded, (Partitioned.loadBuild partition).Succeeds before.input chunks loaded

theorem Loads.peak_le
    {partition : Nat}
    {record : PartitionRecord}
    {before after : Partitioned}
    (loads : Loads partition record before after)
    (known : before.account < before.ledger.accounts.size)
    (place : Nat) :
    after.ledger.peak place ≤ max (max (before.ledger.peak place)
      (before.ledger.used place + record.build.estimatedSize)) (before.ledger.account place).limit := by
  have charged := Ledger.peak_reserve_le known record.build.estimatedSize place
  have keeps := loads.grants.keeps (by rwa [Ledger.size_reserve])
  have peak := keeps.peak place
  rw [Ledger.limit_reserve] at peak
  omega

/-- The account has the memory limit, and never held more than a bound that is not lower. -/
structure PeaksAt (bound : Nat) (input : Partitioned) : Prop where
  known : input.account < input.ledger.accounts.size
  limit : (input.ledger.account input.account).limit = input.params.memLimit
  within : input.params.memLimit ≤ bound
  peak : input.ledger.peak input.account ≤ bound

section PeaksAt

variable {bound : Nat} {first last : Partitioned}

theorem PeaksAt.affords
    (peaks : PeaksAt bound first)
    (affords : Partitioned.Affords met first last) :
    PeaksAt bound last := by
  obtain ⟨params, account, grants⟩ := affords
  have keeps := grants.keeps peaks.known
  have peak := keeps.peak first.account
  rw [peaks.limit] at peak
  refine ⟨?_, ?_, ?_, ?_⟩
  · rw [account, keeps.size]
    exact peaks.known
  · rw [account, keeps.limit, params]
    exact peaks.limit
  · rw [params]
    exact peaks.within
  · rw [account]
    exact Nat.le_trans peak (Nat.max_le.mpr ⟨peaks.peak, peaks.within⟩)

/-- Where nothing is held, loading a partition takes the account to its size. -/
theorem PeaksAt.loads
    {partition : Nat}
    {record : PartitionRecord}
    (peaks : PeaksAt bound first)
    (unused : first.ledger.used first.account = 0)
    (loads : Loads partition record first last)
    (single : record.build.rowCount = 1 → record.build.estimatedSize ≤ bound) :
    PeaksAt bound last := by
  have size : record.build.estimatedSize ≤ bound := by
    by_cases divisible : 1 < record.build.rowCount
    · refine Nat.le_trans (loads.loadable.fits divisible) (Nat.le_trans ?_ peaks.within)
      rw [Ledger.available, Account.available, peaks.limit]
      exact Nat.sub_le _ _
    · have some := loads.loadable.built
      rw [Partition.isEmpty, decide_eq_false_iff_not] at some
      exact single (by omega)
  have peak := loads.peak_le peaks.known first.account
  rw [unused, Nat.zero_add, peaks.limit] at peak
  have keeps := loads.grants.keeps (by rw [Ledger.size_reserve]; exact peaks.known)
  refine ⟨?_, ?_, ?_, ?_⟩
  · rw [loads.account, keeps.size, Ledger.size_reserve]
    exact peaks.known
  · rw [loads.account, keeps.limit, Ledger.limit_reserve, loads.params]
    exact peaks.limit
  · rw [loads.params]
    exact peaks.within
  · rw [loads.account]
    exact Nat.le_trans peak (Nat.max_le.mpr ⟨Nat.max_le.mpr ⟨peaks.peak, size⟩, peaks.within⟩)

/-- A visit takes the account to the bound at most, if one-row partitions do when they are loaded. -/
theorem Poised.ends_visit_peaksAt
    {partition : Nat}
    {rest : List Nat}
    (poised : Poised others (partition :: rest) before)
    (reached : ∀ record, before.input.arena.records[partition]? = some record →
      join.Meets partition before record)
    (peaks : PeaksAt bound before.input)
    (single : ∀ partition before record, join.LoadsAtEnd partition before record →
      record.build.rowCount = 1 → record.build.estimatedSize ≤ bound) :
    (visit partition).Ends before (fun _ after => PeaksAt bound after.input)
      fun _ after => PeaksAt bound after.input := by
  obtain ⟨record, found⟩ := Arena.exists_record_of_lt (poised.known partition List.mem_cons_self)
  have goesOn : ∀ {met : Bool} {after : Partitioned}, Partitioned.Affords met before.input after ∨
      Loads partition record before.input after → PeaksAt bound after := by
    rintro met after (affords | loads)
    · exact peaks.affords affords
    · exact peaks.loads (poised.used_eq found loads.loadable.spilled) loads
        (single partition before record ⟨reached record found, loads.loadable, loads.loaded⟩)
  exact (ends_visit_loads found).mono (fun _ _ visited => goesOn (visited.imp_left And.right))
    fun _ _ => goesOn

end PeaksAt

/-- However the end of the probe side goes, the account never holds more than a bound, if the memory limit
and the one-row partitions that are loaded are within it. -/
theorem Asked.peaksAt
    {bound : Nat}
    (asked : Asked others true join)
    (within : join.input.params.memLimit ≤ bound)
    (single : ∀ partition before record, join.LoadsAtEnd partition before record →
      record.build.rowCount = 1 → record.build.estimatedSize ≤ bound) :
    PeaksAt bound (finishProbe.outcome join).2.input := by
  have frugal := asked.frugal
  have peaks : PeaksAt bound join.input :=
    ⟨frugal.known, frugal.limit, within, Nat.le_trans frugal.peak within⟩
  suffices ends : finishProbe.Ends join (fun _ after => PeaksAt bound after.input)
      fun _ after => PeaksAt bound after.input from ends.state
  by_cases probing : join.phase = .probe
  case neg =>
    unfold finishProbe
    rw [ends_bind, ends_get]
    dsimp only
    rw [if_pos probing]
    exact peaks
  have completes := affords_completeTables (join.tables.map Prod.fst) join
  have poised : ∀ {start}, (completeTables (join.tables.map Prod.fst)).Succeeds join () start →
      Poised others join.input.roots start :=
    (asked.open rfl).poised asked.reached.accounted probing
  have turns : ∀ {start config}, (completeTables (join.tables.map Prod.fst)).Succeeds join () start →
      Turns visit ⟨join.input.roots, start⟩ config → PeaksAt bound config.state.input := by
    intro start config started turns
    induction turns with
    | refl => exact peaks.affords (completes.of_succeeds started)
    | tail turns turn inductionHypothesis =>
        cases turn with
        | visit succeeds =>
            exact (((poised started).turns turns).ends_visit_peaksAt
              (fun _ found => ⟨_, _, started, turns, found⟩) inductionHypothesis single).of_succeeds
                succeeds
  refine (ends_finishProbe_halts probing).mono (fun _ after ended => ?_) fun _ after failed => ?_
  · obtain ⟨start, last, started, reached, same⟩ := ended
    rw [same]
    exact turns started reached
  · obtain ⟨status, failed⟩ | ⟨start, started, halts⟩ := failed
    · exact peaks.affords (completes.of_fails failed)
    obtain ⟨config, reached, rfl⟩ | ⟨status, partition, rest, before, reached, failed⟩ := halts
    · exact turns started reached
    · exact (((poised started).turns reached).ends_visit_peaksAt
        (fun _ found => ⟨_, _, started, reached, found⟩) (turns started reached) single).of_fails failed

/-! ## All requests -/

/-- Before the end of the probe side is asked for, the account is within the memory limit at any time, and
that is the limit. Whether a build chunk is accepted or not, had all peaks been forgotten before, the same
would have been done, and no account would be left with a peak beyond its limit. If no request failed, the
end of the probe side takes the account to the memory limit at most, or to the size of a one-row partition
that is loaded from the store. -/
structure Capped (met : Bool) (join : Join) : Prop where
  used : join.input.ledger.used join.input.account ≤ join.input.params.memLimit
  peak : join.input.ledger.peak join.input.account ≤ join.input.params.memLimit
  builds : ∀ chunk,
    (addBuildChunk chunk).outcome join = (((addBuildChunk chunk).outcome join.forget).1,
      ((addBuildChunk chunk).outcome join.forget).2.raise join.input.ledger.peak) ∧
    ∀ place, join.highest (addBuildChunk chunk) place ≤ (join.input.ledger.account place).limit
  ends : met = true → ∀ after, after = (finishProbe.outcome join).2 →
    after.input.ledger.peak after.input.account ≤ join.input.params.memLimit ∨
      ∃ partition before record, join.LoadsAtEnd partition before record ∧ record.build.rowCount = 1 ∧
        after.input.ledger.peak after.input.account ≤ record.build.estimatedSize

end Join

/-- The account is within the memory limit at any time. Whether a chunk is accepted or not, had all peaks
been forgotten before, the same would have been done, and no account would be left with a peak beyond its
limit. -/
structure Aggregation.Capped (aggregation : Aggregation) : Prop where
  used : aggregation.input.ledger.used aggregation.input.account ≤ aggregation.input.params.memLimit
  peak : aggregation.input.ledger.peak aggregation.input.account ≤ aggregation.input.params.memLimit
  builds : ∀ chunk,
    (addChunk chunk).outcome aggregation = (((addChunk chunk).outcome aggregation.forget).1,
      ((addChunk chunk).outcome aggregation.forget).2.raise aggregation.input.ledger.peak) ∧
    ∀ place, aggregation.highest (addChunk chunk) place ≤ (aggregation.input.ledger.account place).limit

namespace Partitioned

/-- What was charged after the peaks were forgotten took no account beyond its limit. -/
theorem Affords.peak_le_of_forget
    {met : Bool}
    {input after : Partitioned}
    (affords : Affords met input.forget after)
    (known : input.account < input.ledger.accounts.size)
    (place : Nat) :
    after.ledger.peak place ≤ (input.ledger.account place).limit := by
  have peak := (affords.2.2.keeps (by rwa [forget, Ledger.size_forget])).peak place
  rw [forget, Ledger.peak_forget, Ledger.limit_forget, Nat.zero_max] at peak
  exact peak

end Partitioned

/-- Whatever is asked of an aggregation, it stays within its memory limit. -/
theorem Operator.Reached.frugal
    {others : Nat → Nat}
    {operator : Operator}
    (reached : Operator.Reached others operator) :
    match operator with
    | .join _ => True
    | .aggregation state => state.input.Frugal := by
  induction reached with
  | newJoin | askJoin => trivial
  | newAggregation made =>
      obtain ⟨input, makes, rfl⟩ := Aggregation.exists_input_of_make made
      exact Partitioned.frugal_of_make makes
  | @askAggregation _ before _ request frugal =>
      cases request with
      | chargeTo parent =>
          exact (Aggregation.keeps_onInput (Partitioned.frugal_chargeTo parent)).outcome frugal
      | addChunk chunk =>
          exact ((Aggregation.affords_addChunk chunk).keeps fun _ _ _ =>
            Partitioned.Affords.frugal).outcome frugal
      | finish =>
          exact ((Aggregation.affords_finish.keeps fun _ _ _ => Partitioned.Affords.frugal).bind
            fun _ => keeps_pure _).outcome frugal
  | @surroundings _ operator _ area cancelledAt frugal =>
      cases operator with
      | join state => trivial
      | aggregation state => exact ⟨frugal.known, frugal.limit, frugal.used, frugal.peak⟩
  | @elsewhere _ _ operator ledger reached elsewhere frugal =>
      cases operator with
      | join state => trivial
      | aggregation state =>
          exact frugal.elsewhere elsewhere (reached.elsewhere elsewhere).accounted.books.known

/-- Joins and aggregations are within their memory limits, but for one-row partitions that joins load at
their end. What they charge for build rows takes no account beyond its limit, above theirs or not. -/
theorem capped_of_runs :
    (∀ others met join, Join.Asked others met join → join.Capped met) ∧
      ∀ others aggregation, Operator.Reached others (.aggregation aggregation) →
        aggregation.Capped := by
  refine ⟨fun others met join asked => ?_, fun others aggregation reached => ?_⟩
  · have frugal := asked.frugal
    refine ⟨frugal.used, frugal.peak, fun chunk => ⟨?_, fun place => ?_⟩, fun all after same => ?_⟩
    · exact Join.outcome_of_blind fun _ => Join.blind_addBuildChunk chunk
    · have affords : (Join.addBuildChunk chunk).Ends join.forget
          (fun _ after => ∀ place, after.input.ledger.peak place ≤
            (join.input.ledger.account place).limit)
          fun _ after => ∀ place, after.input.ledger.peak place ≤
            (join.input.ledger.account place).limit :=
        (Join.affords_addBuildChunk chunk join.forget).mono
          (fun _ _ affords => Partitioned.Affords.peak_le_of_forget affords frugal.known)
          fun _ _ affords => Partitioned.Affords.peak_le_of_forget affords frugal.known
      exact affords.state place
    · subst all same
      by_contra exceeds
      rw [not_or, Nat.not_le] at exceeds
      obtain ⟨beyond, single⟩ := exceeds
      have peaks := asked.peaksAt (Nat.le_sub_one_of_lt beyond) fun partition before record loads one => by
        by_contra larger
        exact single ⟨partition, before, record, loads, one, by omega⟩
      have least := peaks.peak
      omega
  · have frugal : aggregation.input.Frugal := reached.frugal
    refine ⟨frugal.used, frugal.peak, fun chunk => ⟨?_, fun place => ?_⟩⟩
    · exact Aggregation.outcome_of_blind fun _ => Aggregation.blind_addChunk chunk
    · have affords : (Aggregation.addChunk chunk).Ends aggregation.forget
          (fun _ after => ∀ place, after.input.ledger.peak place ≤
            (aggregation.input.ledger.account place).limit)
          fun _ after => ∀ place, after.input.ledger.peak place ≤
            (aggregation.input.ledger.account place).limit :=
        (Aggregation.affords_addChunk chunk aggregation.forget).mono
          (fun _ _ affords => Partitioned.Affords.peak_le_of_forget affords frugal.known)
          fun _ _ affords => Partitioned.Affords.peak_le_of_forget affords frugal.known
      exact affords.state place

namespace Join.Sample

/-- A join whose limit no row fits. -/
def lean : Join :=
  valueOf (make ⟨2, 4, 3⟩ Operator.Sample.probe.schema Operator.Sample.probe.key Operator.Sample.probe []
    {} {}) (by decide +kernel)

/-- The join after a row was accepted on either side, both of which are in the store. -/
def waiting : Join :=
  ((Request.probeChunk Operator.Sample.chunk).step.outcome (Request.finishBuild.step.outcome
    ((Request.addBuildChunk Operator.Sample.chunk).step.outcome lean).2).2).2

end Join.Sample

/-- A join that can hold four bytes loads a row of eight, and an aggregation writes what it cannot hold. -/
theorem capped_of_waiting :
    Join.Sample.waiting.Capped true ∧
      (Join.finishProbe.outcome Join.Sample.waiting).2.input.ledger.peak
        (Join.finishProbe.outcome Join.Sample.waiting).2.input.account = 8 ∧
      (∃ partition before record, Join.Sample.waiting.LoadsAtEnd partition before record ∧
        record.build.rowCount = 1 ∧ 8 ≤ record.build.estimatedSize) ∧
      Operator.Sample.counted.Capped := by
  have made : Join.make ⟨2, 4, 3⟩ Operator.Sample.probe.schema Operator.Sample.probe.key
      Operator.Sample.probe [] {} {} = .ok Join.Sample.lean :=
    eq_ok_valueOf _ _
  have added := (Join.Asked.new made).ask
    (show Join.Request.addBuildChunk Operator.Sample.chunk ≠ .finishProbe from nofun)
  have probed := (added.ask (show Join.Request.finishBuild ≠ .finishProbe from nofun)).ask
    (show Join.Request.probeChunk Operator.Sample.chunk ≠ .finishProbe from nofun)
  have waiting : Join.Asked ({} : Ledger).used true Join.Sample.waiting := by
    convert probed using 1
    · decide +kernel
    · rfl
  have counting : Aggregation.make ⟨2, 8, 3⟩ Operator.Sample.probe.schema Operator.Sample.probe.key
      [.countStar] Operator.Sample.fine Operator.Sample.ledger = .ok Operator.Sample.counting :=
    eq_ok_valueOf _ _
  have counted := (Operator.Reached.newAggregation counting).askAggregation
    (.addChunk Operator.Sample.pair)
  have capped := capped_of_runs.1 _ _ _ waiting
  have peak : (Join.finishProbe.outcome Join.Sample.waiting).2.input.ledger.peak
      (Join.finishProbe.outcome Join.Sample.waiting).2.input.account = 8 ∧
        Join.Sample.waiting.input.params.memLimit = 4 := by
    decide +kernel
  refine ⟨capped, peak.1, ?_, capped_of_runs.2 _ _ counted⟩
  obtain within | ⟨partition, before, record, loads, one, size⟩ := capped.ends rfl _ rfl
  · rw [peak.1, peak.2] at within
    exact absurd within (by decide)
  · exact ⟨partition, before, record, loads, one, peak.1 ▸ size⟩

end Spillway
