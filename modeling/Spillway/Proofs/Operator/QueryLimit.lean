import Spillway.Proofs.Operator.PeakMemory

/-!
# What loading costs the accounts above

Whenever a spilled partition is loaded at the end of a join, nothing else is held for the join, so every
account above its own is charged for that partition beside what it holds for others. Whether a partition
of several rows is loaded or split depends on what is left of the account of the join. Nobody asks what is
left of the accounts above. So one of them stays within its limit exactly if everything that is loaded
fits beside what it holds for others, which it does where that leaves room for the whole memory limit.
-/

namespace Spillway

open Step Relation

/-! ## Turns that do not see a change of the state -/

section Blind

variable {σ α : Type} {view : σ → σ} {visit : Nat → Step σ (Visit α)}
  (blind : ∀ partition, (visit partition).Blind view)
include blind

/-- Visits that do not see a change of the state take the same turns after it. -/
theorem turns_of_blind
    {first last : WorkStack σ}
    (turns : Turns visit first last) :
    Turns visit ⟨first.stack, view first.state⟩ ⟨last.stack, view last.state⟩ := by
  induction turns with
  | refl => exact .refl
  | tail _ turn inductionHypothesis =>
      cases turn with
      | @visit partition _ _ _ _ succeeds =>
          exact inductionHypothesis.tail (.visit ((blind partition).succeeds succeeds))

/-- They take no other turns after it. -/
theorem exists_turns_of_blind
    {stack : List Nat}
    {before : σ}
    {last : WorkStack σ}
    (turns : Turns visit ⟨stack, view before⟩ last) :
    ∃ after, Turns visit ⟨stack, before⟩ ⟨last.stack, after⟩ ∧ last.state = view after := by
  induction turns with
  | refl => exact ⟨before, .refl, rfl⟩
  | tail _ turn inductionHypothesis =>
      obtain ⟨between, turns, same⟩ := inductionHypothesis
      cases turn with
      | @visit partition _ _ _ _ succeeds =>
          dsimp only at same
          subst same
          obtain ⟨after, visited, rfl⟩ := (blind partition).exists_succeeds succeeds
          exact ⟨after, turns.tail (.visit visited), rfl⟩

end Blind

namespace Join

variable {others : Nat → Nat} {join before after : Join} {partition place : Nat}
  {record : PartitionRecord} {α : Type}

/-! ## Accounts during a visit -/

theorem Loads.recalls
    {before after : Partitioned}
    (loads : Loads partition record before after)
    (known : before.account < before.ledger.accounts.size) :
    before.ledger.Recalls after.ledger :=
  (Ledger.recalls_reserve known _).trans
    (loads.grants.keeps (by rwa [Ledger.size_reserve])).toRecalls

/-- Loading a partition takes every account above to what it held and the size of the partition, unless
that cannot be counted. -/
theorem Loads.le_peak
    {before after : Partitioned}
    (loads : Loads partition record before after)
    (known : before.account < before.ledger.accounts.size)
    (member : place ∈ before.ledger.chain before.account)
    (below : after.ledger.peak place < Account.capacity) :
    before.ledger.used place + record.build.estimatedSize ≤ after.ledger.peak place := by
  have rises := (loads.grants.keeps (by rwa [Ledger.size_reserve])).rises place
  have noted := Ledger.used_le_peak_reserve known member record.build.estimatedSize
  have charged : (before.ledger.reserve before.account record.build.estimatedSize).used place =
      min (before.ledger.used place + record.build.estimatedSize) Account.capacity := by
    rw [Ledger.used, Ledger.account_reserve known, if_pos member]
    rfl
  omega

/-- The account stays the same, with its limit and those above it, and no peak falls. -/
structure Recalls (before after : Join) : Prop where
  account : after.input.account = before.input.account
  ledger : before.input.ledger.Recalls after.input.ledger

theorem Recalls.trans
    {last : Join}
    (first : before.Recalls after)
    (second : after.Recalls last) :
    before.Recalls last :=
  ⟨second.account.trans first.account, first.ledger.trans second.ledger⟩

theorem Recalls.known
    (recalls : before.Recalls after)
    (known : before.input.account < before.input.ledger.accounts.size) :
    after.input.account < after.input.ledger.accounts.size := by
  rw [recalls.account, recalls.ledger.size]
  exact known

theorem recalls_of_affords
    {met : Bool}
    (affords : Partitioned.Affords met before.input after.input)
    (known : before.input.account < before.input.ledger.accounts.size) :
    before.Recalls after :=
  ⟨affords.2.1, (affords.2.2.keeps known).toRecalls⟩

theorem ends_visit_recalls (known : join.input.account < join.input.ledger.accounts.size) :
    (visit partition).Ends join (fun _ after => join.Recalls after) fun _ after => join.Recalls after := by
  cases found : join.input.arena.records[partition]? with
  | some record =>
      have goesOn : ∀ {met : Bool} {after : Join}, Partitioned.Affords met join.input after.input ∨
          Loads partition record join.input after.input → join.Recalls after := by
        rintro met after (affords | loads)
        · exact recalls_of_affords affords known
        · exact ⟨loads.account, loads.recalls known⟩
      exact (ends_visit_loads found).mono (fun _ _ visited => goesOn (visited.imp_left And.right))
        fun _ _ => goesOn
  | none => exact ends_visit_of_missing found fun _ => ⟨rfl, .refl _⟩

theorem recalls_of_turns
    {config next : WorkStack Join}
    (known : config.state.input.account < config.state.input.ledger.accounts.size)
    (turns : Turns visit config next) :
    config.state.Recalls next.state := by
  induction turns with
  | refl => exact ⟨rfl, .refl _⟩
  | tail _ turn inductionHypothesis =>
      cases turn with
      | visit succeeds =>
          exact inductionHypothesis.trans
            ((ends_visit_recalls (inductionHypothesis.known known)).of_succeeds succeeds)

/-! ## The end from forgotten peaks -/

/-- The join after turns at its end, all peaks having been forgotten before. -/
def Revisits
    (join : Join)
    (stack : List Nat)
    (before : Join) : Prop :=
  ∃ start, (completeTables (join.tables.map Prod.fst)).Succeeds join.forget () start ∧
    Turns visit ⟨join.input.roots, start⟩ ⟨stack, before⟩

section Revisits

variable {stack rest : List Nat}

/-- The same turns are taken from the peaks as they were. -/
theorem Revisits.exists_turns (revisits : join.Revisits stack before) :
    ∃ start, (completeTables (join.tables.map Prod.fst)).Succeeds join () start ∧
      Turns visit ⟨join.input.roots, start⟩ ⟨stack, before.raise join.input.ledger.peak⟩ := by
  obtain ⟨start, started, turns⟩ := revisits
  have blind : (completeTables (join.tables.map Prod.fst)).Blind (raise join.input.ledger.peak) :=
    blind_completeTables _
  have recalled := blind.succeeds started
  rw [raise_forget] at recalled
  exact ⟨_, recalled, turns_of_blind blind_visit turns⟩

theorem exists_revisits
    {start last : Join}
    (started : (completeTables (join.tables.map Prod.fst)).Succeeds join () start)
    (turns : Turns visit ⟨join.input.roots, start⟩ ⟨stack, last⟩) :
    ∃ before, join.Revisits stack before ∧ last = before.raise join.input.ledger.peak := by
  have recalled : (completeTables (join.tables.map Prod.fst)).Succeeds
      (join.forget.raise join.input.ledger.peak) () start := by
    rwa [raise_forget]
  obtain ⟨past, begun, rfl⟩ := (blind_completeTables _).exists_succeeds recalled
  obtain ⟨before, turns, same⟩ := exists_turns_of_blind blind_visit turns
  exact ⟨before, ⟨past, begun, turns⟩, same⟩

/-- What is charged in the end is counted in full if no account was filled by then. -/
theorem Recalls.unfilled
    {marks : Nat → Nat}
    (recalls : before.Recalls after)
    (unfilled : (after.raise marks).input.ledger.Unfilled) :
    (before.raise marks).input.ledger.Unfilled := by
  intro place
  by_cases known : place < before.input.ledger.accounts.size
  · have last := unfilled place
    have rises := recalls.ledger.rises place
    rw [raise, Partitioned.raise, Ledger.peak_raise _ _ (recalls.ledger.size ▸ known)] at last
    rw [raise, Partitioned.raise, Ledger.peak_raise _ _ known]
    omega
  · rw [raise, Partitioned.raise, Ledger.peak_eq_zero_of_size_le]
    · decide
    · rw [Ledger.size_raise]
      exact Nat.le_of_not_lt known

/-- An account above the join's has the limit that it had before the end, and no peak beyond it. -/
structure Bounded
    (join : Join)
    (place : Nat)
    (before : Join) : Prop where
  limit : (before.input.ledger.account place).limit = (join.input.ledger.account place).limit
  peak : before.input.ledger.peak place ≤ (join.input.ledger.account place).limit

theorem known_forget (known : join.input.account < join.input.ledger.accounts.size) :
    join.forget.input.account < join.forget.input.ledger.accounts.size := by
  rw [forget, Partitioned.forget, Ledger.size_forget]
  exact known

theorem bounded_forget
    (join : Join)
    (place : Nat) :
    join.Bounded place join.forget := by
  refine ⟨Ledger.limit_forget _ _, ?_⟩
  rw [forget, Partitioned.forget, Ledger.peak_forget]
  exact Nat.zero_le _

theorem Bounded.affords
    {met : Bool}
    (bounded : join.Bounded place before)
    (known : before.input.account < before.input.ledger.accounts.size)
    (affords : Partitioned.Affords met before.input after.input) :
    join.Bounded place after := by
  have keeps := affords.2.2.keeps known
  have peak := keeps.peak place
  rw [bounded.limit] at peak
  exact ⟨(keeps.limit place).trans bounded.limit,
    Nat.le_trans peak (Nat.max_le.mpr ⟨bounded.peak, Nat.le_refl _⟩)⟩

/-- Everything that is loaded at the end of the join fits beside what an account holds for others. -/
def LoadsFit
    (join : Join)
    (others : Nat → Nat)
    (place : Nat) : Prop :=
  ∀ partition before record, join.LoadsAtEnd partition before record →
    others place + record.build.estimatedSize ≤ (join.input.ledger.account place).limit

/-- What is loaded from forgotten peaks is loaded from the peaks as they were. -/
theorem Revisits.loadsAtEnd
    {last : Partitioned}
    (revisits : join.Revisits (partition :: rest) before)
    (found : before.input.arena.records[partition]? = some record)
    (loads : Loads partition record before.input last) :
    join.LoadsAtEnd partition (before.raise join.input.ledger.peak) record := by
  obtain ⟨start, started, turns⟩ := revisits.exists_turns
  refine ⟨⟨start, rest, started, turns, found⟩, ?_, ?_⟩
  · rw [raise, Partitioned.raise, Ledger.available_raise]
    exact loads.loadable
  · obtain ⟨chunks, loaded, succeeds⟩ := loads.loaded
    exact ⟨chunks, _, Partitioned.blind_loadBuild.succeeds succeeds⟩

theorem Revisits.recalls
    (revisits : join.Revisits stack before)
    (asked : Asked others true join) :
    join.forget.Recalls before := by
  obtain ⟨start, started, turns⟩ := revisits
  have known := known_forget asked.reached.accounted.books.known
  have begins := recalls_of_affords ((affords_completeTables _ join.forget).of_succeeds started) known
  exact begins.trans (recalls_of_turns (begins.known known) turns)

variable (asked : Asked others true join) (probing : join.phase = .probe)
include asked probing

theorem Revisits.poised (revisits : join.Revisits stack before) :
    Poised others stack (before.raise join.input.ledger.peak) := by
  obtain ⟨start, started, turns⟩ := revisits.exists_turns
  exact ((asked.open rfl).poised asked.reached.accounted probing started).turns turns

theorem Revisits.known (revisits : join.Revisits stack before) :
    before.input.account < before.input.ledger.accounts.size := by
  have known := (revisits.poised asked probing).accounted.books.known
  rwa [raise, Partitioned.raise, Ledger.size_raise] at known

/-- If everything that is loaded fits, a visit takes no account beyond its limit. -/
theorem Revisits.ends_visit_bounded
    (revisits : join.Revisits (partition :: rest) before)
    (bounded : join.Bounded place before)
    (unfilled : (before.raise join.input.ledger.peak).input.ledger.Unfilled)
    (fits : join.LoadsFit others place) :
    (visit partition).Ends before (fun _ after => join.Bounded place after)
      fun _ after => join.Bounded place after := by
  have poised := revisits.poised asked probing
  have known := revisits.known asked probing
  obtain ⟨record, found⟩ : ∃ record, before.input.arena.records[partition]? = some record :=
    Arena.exists_record_of_lt (poised.known partition List.mem_cons_self)
  have goesOn : ∀ {met : Bool} {after : Join}, Partitioned.Affords met before.input after.input ∨
      Loads partition record before.input after.input → join.Bounded place after := by
    rintro met after (affords | loads)
    · exact bounded.affords known affords
    · have used := poised.used_eq_others found loads.loadable.spilled unfilled place
      rw [raise, Partitioned.raise, Ledger.used_raise] at used
      have peak := loads.peak_le known place
      rw [bounded.limit, used] at peak
      have fitting := fits _ _ _ (revisits.loadsAtEnd found loads)
      exact ⟨((loads.recalls known).limit place).trans bounded.limit, Nat.le_trans peak
        (Nat.max_le.mpr ⟨Nat.max_le.mpr ⟨bounded.peak, fitting⟩, Nat.le_refl _⟩)⟩
  exact (ends_visit_loads found).mono (fun _ _ visited => goesOn (visited.imp_left And.right))
    fun _ _ => goesOn

/-- If everything that is loaded fits, the visits take no account beyond its limit. -/
theorem Revisits.bounded
    (revisits : join.Revisits stack before)
    (unfilled : (before.raise join.input.ledger.peak).input.ledger.Unfilled)
    (fits : join.LoadsFit others place) :
    join.Bounded place before := by
  obtain ⟨start, started, turns⟩ := revisits
  suffices follows : ∀ config, Turns visit ⟨join.input.roots, start⟩ config →
      (config.state.raise join.input.ledger.peak).input.ledger.Unfilled →
        join.Bounded place config.state from follows _ turns unfilled
  intro config turns unfilled
  induction turns with
  | refl =>
      exact (bounded_forget join place).affords (known_forget asked.reached.accounted.books.known)
        ((affords_completeTables _ join.forget).of_succeeds started)
  | tail turns turn inductionHypothesis =>
      cases turn with
      | visit succeeds =>
          have here : join.Revisits _ _ := ⟨start, started, turns⟩
          have before := ((ends_visit_recalls (here.known asked probing)).of_succeeds succeeds).unfilled
            unfilled
          exact (here.ends_visit_bounded asked probing (inductionHypothesis before) before
            fits).of_succeeds succeeds

end Revisits

/-! ## The most that is held at the end -/

/-- The most that an account holds from the beginning of a step to its end. -/
def most
    (join : Join)
    (step : Step Join α)
    (place : Nat) : Nat :=
  max (join.input.ledger.used place) (join.highest step place)

section Most

variable (asked : Asked others true join) (probing : join.phase = .probe)
  (unfilled : (finishProbe.outcome join).2.input.ledger.Unfilled)
include asked probing unfilled

/-- If everything that is loaded fits, the end of the join takes no account beyond its limit. -/
theorem Asked.highest_le (fits : join.LoadsFit others place) :
    join.highest finishProbe place ≤ (join.input.ledger.account place).limit := by
  rw [outcome_of_blind fun _ => blind_finishProbe] at unfilled
  suffices ends : finishProbe.Ends join.forget
      (fun _ after => (after.raise join.input.ledger.peak).input.ledger.Unfilled →
        join.Bounded place after)
      fun _ after => (after.raise join.input.ledger.peak).input.ledger.Unfilled →
        join.Bounded place after from (ends.state unfilled).peak
  have known := known_forget asked.reached.accounted.books.known
  have forgotten : join.forget.phase = .probe := probing
  refine (ends_finishProbe_halts forgotten).mono (fun _ after ended unfilled => ?_)
    fun _ after failed unfilled => ?_
  · obtain ⟨start, last, started, turns, same⟩ := ended
    have here : join.Revisits [] last := ⟨start, started, turns⟩
    rw [raise, same] at unfilled
    have bounded := here.bounded asked probing unfilled fits
    exact ⟨same ▸ bounded.limit, same ▸ bounded.peak⟩
  · obtain ⟨status, failed⟩ | ⟨start, started, halts⟩ := failed
    · exact (bounded_forget join place).affords known
        ((affords_completeTables _ join.forget).of_fails failed)
    obtain ⟨config, turns, rfl⟩ | ⟨status, partition, rest, before, turns, failed⟩ := halts
    · have here : join.Revisits config.stack config.state := ⟨start, started, turns⟩
      exact here.bounded asked probing unfilled fits
    · have here : join.Revisits (partition :: rest) before := ⟨start, started, turns⟩
      have before := ((ends_visit_recalls (here.known asked probing)).of_fails failed).unfilled unfilled
      exact (here.ends_visit_bounded asked probing (here.bounded asked probing before fits) before
        fits).of_fails failed

/-- Whatever is loaded at the end of the join takes the accounts above to its size and what they hold for
others. -/
theorem Asked.le_highest
    (ended : (finishProbe.outcome join).1.isOk = true)
    (member : place ∈ join.input.ledger.chain join.input.account)
    (loads : join.LoadsAtEnd partition before record) :
    others place + record.build.estimatedSize ≤ join.highest finishProbe place := by
  obtain ⟨⟨began, rest, begins, turns, found⟩, loadable, chunks, loaded, succeeds⟩ := loads
  obtain ⟨past, here, rfl⟩ := exists_revisits begins turns
  have poised := here.poised asked probing
  have known := here.known asked probing
  have recalls := here.recalls asked
  obtain ⟨start, started, reached⟩ := here
  have seen : past.input.arena.records[partition]? = some record := found
  rw [raise, Partitioned.raise, Ledger.available_raise] at loadable
  rw [outcome_of_blind fun _ => blind_finishProbe] at unfilled ended
  have ended : (finishProbe.outcome join.forget).1.isOk = true := ended
  have forgotten : join.forget.phase = .probe := probing
  obtain ⟨again, last, startedAgain, toEnd, same⟩ :=
    (ends_finishProbe_halts forgotten).of_succeeds (succeeds_of_isOk _ _ ended)
  obtain rfl : start = again := congrArg Prod.snd (started.symm.trans startedAgain)
  -- The visit of the partition is followed by others until nothing is left on the stack.
  have onwards : Turns visit ⟨partition :: rest, past⟩ ⟨[], last⟩ :=
    reached.to_end toEnd (ended_nil last)
  obtain done | ⟨next, turn, later⟩ := ReflTransGen.cases_head onwards
  · cases done
  cases turn with
  | @visit _ _ _ after _ visited =>
      have visits := (ends_visit_recalls known).of_succeeds visited
      have lasts : after.Recalls last := recalls_of_turns (visits.known known) later
      obtain ⟨unable, -⟩ | loads := (ends_visit_loads seen).of_succeeds visited
      · exact absurd loadable unable
      have full : (last.raise join.input.ledger.peak).input.ledger.Unfilled := by
        rw [raise, ← same]
        exact unfilled
      have before := (visits.trans lasts).unfilled full
      have used := poised.used_eq_others found loadable.spilled before place
      rw [raise, Partitioned.raise, Ledger.used_raise] at used
      have above : place ∈ past.input.ledger.chain past.input.account := by
        rw [recalls.account, recalls.ledger.chain, forget, Partitioned.forget, Ledger.chain_forget]
        exact member
      have rises := lasts.ledger.rises place
      have below := Nat.lt_of_le_of_lt
        (Ledger.peak_le_raise join.input.ledger.peak last.input.ledger place) (full place)
      have peak := loads.le_peak known above (Nat.lt_of_le_of_lt rises below)
      rw [used] at peak
      rw [highest, same]
      exact Nat.le_trans peak rises

end Most

/-- A partition of several rows that is loaded is within the memory limit. -/
theorem Asked.size_le
    (asked : Asked others true join)
    (loads : join.LoadsAtEnd partition before record)
    (divisible : 1 < record.build.rowCount) :
    record.build.estimatedSize ≤ join.input.params.memLimit := by
  obtain ⟨⟨start, rest, started, turns, found⟩, loadable, -⟩ := loads
  have known := asked.reached.accounted.books.known
  have begins := recalls_of_affords ((affords_completeTables _ join).of_succeeds started) known
  have recalls : join.Recalls before := begins.trans (recalls_of_turns (begins.known known) turns)
  refine Nat.le_trans (loadable.fits divisible) ?_
  rw [Ledger.available, Account.available, recalls.account, recalls.ledger.limit, asked.frugal.limit]
  exact Nat.sub_le _ _

/-- What the end of a join costs the accounts above its own. -/
structure ChargesAbove
    (others : Nat → Nat)
    (join : Join) : Prop where
  /-- Whenever a partition is loaded, the account of the join holds nothing, and all accounts hold what they
  hold for others. -/
  alone : ∀ partition before record, join.LoadsAtEnd partition before record →
    before.input.ledger.used before.input.account = 0 ∧
      (before.input.ledger.Unfilled → ∀ place, before.input.ledger.used place = others place)
  /-- If it has several rows it is within the memory limit of the join. -/
  own : ∀ partition before record, join.LoadsAtEnd partition before record →
    1 < record.build.rowCount → record.build.estimatedSize ≤ join.input.params.memLimit
  /-- An account that is within its limit stays so if all that is loaded fits beside what it holds for
  others. -/
  within : ∀ place, join.input.ledger.used place ≤ (join.input.ledger.account place).limit →
    join.LoadsFit others place →
      join.most finishProbe place ≤ (join.input.ledger.account place).limit
  /-- It does stay so if it has room for the memory limit of the join and for every row that is loaded
  alone. -/
  ample : ∀ place, join.input.ledger.used place ≤ (join.input.ledger.account place).limit →
    others place + join.input.params.memLimit ≤ (join.input.ledger.account place).limit →
    (∀ partition before record, join.LoadsAtEnd partition before record → record.build.rowCount = 1 →
      others place + record.build.estimatedSize ≤ (join.input.ledger.account place).limit) →
      join.most finishProbe place ≤ (join.input.ledger.account place).limit
  /-- Nothing else keeps it within its limit: all that is loaded is charged to it. -/
  beyond : (finishProbe.outcome join).1.isOk = true →
    ∀ place ∈ join.input.ledger.chain join.input.account,
      join.most finishProbe place ≤ (join.input.ledger.account place).limit → join.LoadsFit others place

/-- The accounts above a join stay within their limits at its end exactly if each partition that is loaded
fits beside what they hold for others. The join decides to load by its own limit, so that is certain only
where there is room for the whole of it. -/
theorem chargesAbove_of_asked
    (asked : Asked others true join)
    (probing : join.phase = .probe)
    (unfilled : (finishProbe.outcome join).2.input.ledger.Unfilled) :
    join.ChargesAbove others := by
  have within : ∀ place, join.input.ledger.used place ≤ (join.input.ledger.account place).limit →
      join.LoadsFit others place →
        join.most finishProbe place ≤ (join.input.ledger.account place).limit :=
    fun place fitting fits => Nat.max_le.mpr ⟨fitting, asked.highest_le probing unfilled fits⟩
  refine
    { alone := fun partition before record loads => ?_
      own := fun _ _ _ => asked.size_le
      within
      ample := fun place fitting room single => within place fitting fun partition before record loads => ?_
      beyond := fun ended place member within partition before record loads => ?_ }
  · obtain ⟨⟨start, rest, started, turns, found⟩, loadable, -⟩ := loads
    have poised := ((asked.open rfl).poised asked.reached.accounted probing started).turns turns
    exact ⟨poised.used_eq found loadable.spilled, poised.used_eq_others found loadable.spilled⟩
  · by_cases divisible : 1 < record.build.rowCount
    · exact Nat.le_trans (Nat.add_le_add_left (asked.size_le loads divisible) _) room
    · have some := loads.loadable.built
      rw [Partition.isEmpty, decide_eq_false_iff_not] at some
      exact single partition before record loads (by omega)
  · have highest := asked.le_highest probing unfilled ended member loads
    exact Nat.le_trans highest (Nat.le_trans (Nat.le_max_right _ _) within)

namespace Sample

open Operator.Sample (fine)

/-- Two build rows of different keys. -/
def rows : Chunk :=
  ⟨Operator.Sample.probe.schema, [[.int 1], [.int 7]], by decide⟩

/-- A ledger with the account of a query that one of the rows fits, but not both. -/
def query : Ledger :=
  (({} : Ledger).openAccount "query" 12).2

/-- A join that may hold both rows. -/
def roomy : Join :=
  valueOf (make ⟨2, 16, 8⟩ Operator.Sample.probe.schema Operator.Sample.probe.key Operator.Sample.probe []
    fine query) (by decide +kernel)

/-- The join after it was charged to the query, and both rows and a probe row were accepted. -/
def crowded : Join :=
  ((Request.probeChunk (rows.slice 0 1)).step.outcome (Request.finishBuild.step.outcome
    ((Request.addBuildChunk rows).step.outcome
      ((Request.chargeTo 0).step.outcome roomy).2).2).2).2

theorem asked_crowded : Asked query.used true crowded := by
  have made : make ⟨2, 16, 8⟩ Operator.Sample.probe.schema Operator.Sample.probe.key Operator.Sample.probe
      [] fine query = .ok roomy :=
    eq_ok_valueOf _ _
  have charged := (Asked.new made).ask (show Request.chargeTo 0 ≠ .finishProbe from nofun)
  have added := charged.ask (show Request.addBuildChunk rows ≠ .finishProbe from nofun)
  have probed := (added.ask (show Request.finishBuild ≠ .finishProbe from nofun)).ask
    (show Request.probeChunk (rows.slice 0 1) ≠ .finishProbe from nofun)
  convert probed using 1
  · decide +kernel
  · rfl

end Sample

/-- Two rows that the query could hold one after the other are loaded together. -/
theorem chargesAbove_of_crowded :
    Sample.crowded.ChargesAbove Sample.query.used ∧
      ∃ partition before record, Sample.crowded.LoadsAtEnd partition before record ∧
        12 < record.build.estimatedSize := by
  have facts : Sample.crowded.phase = .probe ∧
      (finishProbe.outcome Sample.crowded).2.input.ledger.Unfilled ∧
      (Sample.crowded.input.ledger.account 0).limit = 12 ∧ Sample.query.used 0 = 0 ∧
      Sample.crowded.input.ledger.used 0 = 0 ∧ Sample.crowded.most finishProbe 0 = 16 := by
    decide +kernel
  obtain ⟨probing, unfilled, limit, others, unused, most⟩ := facts
  have charges := chargesAbove_of_asked Sample.asked_crowded probing unfilled
  refine ⟨charges, ?_⟩
  by_contra none
  have fits : Sample.crowded.LoadsFit Sample.query.used 0 := by
    intro partition before record loads
    rw [limit, others, Nat.zero_add]
    by_contra larger
    exact none ⟨partition, before, record, loads, Nat.lt_of_not_le larger⟩
  have within := charges.within 0 (by rw [unused]; exact Nat.zero_le _) fits
  rw [most, limit] at within
  exact absurd within (by decide)

/-- A query that any of the rows fits, and that no other operator uses, is taken beyond its limit at the end
of a join, although no request fails. -/
theorem not_within_crowded :
    Asked Sample.query.used true Sample.crowded ∧
      (finishProbe.outcome Sample.crowded).1.isOk = true ∧
      0 ∈ Sample.crowded.input.ledger.chain Sample.crowded.input.account ∧
      (∀ place, Sample.query.used place = 0) ∧
      (∀ position < 2, (Sample.rows.slice position 1).logicalBytes ≤
        (Sample.crowded.input.ledger.account 0).limit) ∧
      Sample.crowded.input.ledger.used 0 ≤ (Sample.crowded.input.ledger.account 0).limit ∧
      ¬ Sample.crowded.most finishProbe 0 ≤ (Sample.crowded.input.ledger.account 0).limit := by
  have facts : (finishProbe.outcome Sample.crowded).1.isOk = true ∧
      0 ∈ Sample.crowded.input.ledger.chain Sample.crowded.input.account ∧
      (∀ position < 2, (Sample.rows.slice position 1).logicalBytes ≤
        (Sample.crowded.input.ledger.account 0).limit) ∧
      Sample.crowded.input.ledger.used 0 ≤ (Sample.crowded.input.ledger.account 0).limit ∧
      ¬ Sample.crowded.most finishProbe 0 ≤ (Sample.crowded.input.ledger.account 0).limit := by
    decide +kernel
  obtain ⟨ended, member, single, fitting, exceeds⟩ := facts
  refine ⟨Sample.asked_crowded, ended, member, fun place => ?_, single, fitting, exceeds⟩
  rw [Sample.query, Ledger.used_openAccount, Ledger.used_eq_zero_of_size_le (Nat.zero_le _)]

end Join
end Spillway
