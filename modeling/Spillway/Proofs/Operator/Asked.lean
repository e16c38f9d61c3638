import Spillway.Proofs.Operator.DepthLimit
import Spillway.Proofs.Operator.Reservations

/-!
# Joins up to their end

Until the end of its probe side is asked for, a join is within its memory limit, whatever fails. If nothing
failed, it starts its end with nothing in memory that has not been joined, and whenever a spilled partition
is visited after that nothing is held, whether the store goes on to serve the join or not.
-/

namespace Spillway

open Step

/-! ## Memory limits -/

namespace Partitioned

/-- The account has the memory limit, does not hold more now and never did. -/
structure Frugal (input : Partitioned) : Prop where
  known : input.account < input.ledger.accounts.size
  limit : (input.ledger.account input.account).limit = input.params.memLimit
  used : input.ledger.used input.account ≤ input.params.memLimit
  peak : input.ledger.peak input.account ≤ input.params.memLimit

variable {input before after : Partitioned} {met : Bool}

theorem Affords.frugal
    (affords : Affords met before after)
    (frugal : before.Frugal) :
    after.Frugal := by
  obtain ⟨params, account, grants⟩ := affords
  have keeps := grants.keeps frugal.known
  have used := keeps.used before.account
  have peak := keeps.peak before.account
  rw [frugal.limit] at used peak
  refine ⟨?_, ?_, ?_, ?_⟩ <;> rw [account]
  · rw [keeps.size]
    exact frugal.known
  · rw [keeps.limit, params]
    exact frugal.limit
  · rw [params]
    exact Nat.le_trans used (Nat.max_le.mpr ⟨frugal.used, Nat.le_refl _⟩)
  · rw [params]
    exact Nat.le_trans peak (Nat.max_le.mpr ⟨frugal.peak, Nat.le_refl _⟩)

/-- A new account holds nothing. -/
theorem frugal_openAccount
    (ledger : Ledger)
    (label : String)
    (parent : Option Nat)
    (opened : (input.account, input.ledger) =
      ledger.openAccount label input.params.memLimit parent) :
    input.Frugal := by
  have account : input.account = ledger.accounts.size := congrArg Prod.fst opened
  have after : input.ledger = (ledger.openAccount label input.params.memLimit parent).2 :=
    congrArg Prod.snd opened
  have new : input.ledger.account input.account =
      { label, limit := input.params.memLimit, parent } := by
    rw [after, Ledger.account_openAccount, if_pos account]
  refine ⟨?_, ?_, ?_, ?_⟩
  · rw [account, after]
    simp [Ledger.openAccount]
  · rw [new]
  · rw [Ledger.used, new]
    exact Nat.zero_le _
  · rw [Ledger.peak, new]
    exact Nat.zero_le _

theorem frugal_of_make
    {operator : String}
    {params : Params}
    {buildSchema : Schema}
    {buildKey : String}
    {probeSide : Option ProbeSide}
    {area : SpillArea}
    {ledger : Ledger}
    (made : make operator params buildSchema buildKey probeSide area ledger = .ok input) :
    input.Frugal := by
  obtain ⟨valid, start, rfl, rfl⟩ := exists_bare_of_make made
  exact frugal_openAccount ledger operator none rfl

theorem frugal_chargeTo (parent : Nat) : (chargeTo parent).Keeps Frugal := by
  intro input frugal
  refine (ends_bind _ _).mpr (ends_get.mpr ?_)
  dsimp only
  split
  · exact keeps_fail_bind _ _ input frugal
  · exact frugal_openAccount input.ledger input.operator (some parent) rfl

theorem Frugal.elsewhere
    {others nextOthers : Nat → Nat}
    {ledger : Ledger}
    (frugal : input.Frugal)
    (elsewhere : Ledger.Elsewhere input.account input.ledger others ledger nextOthers)
    (known : input.account < ledger.accounts.size) :
    { input with ledger }.Frugal := by
  have same := elsewhere.account_eq frugal.known
  refine ⟨known, ?_, ?_, ?_⟩
  · exact (congrArg Account.limit same).trans frugal.limit
  · exact Nat.le_trans (Nat.le_of_eq (congrArg Account.used same)) frugal.used
  · exact Nat.le_trans (Nat.le_of_eq (congrArg Account.peak same)) frugal.peak

end Partitioned

/-! ## Runs -/

/-- A join after requests other than for the end of its probe side, with what the accounts of its ledger
hold for others by then, and whether all requests were met. Between requests the store may change in any
way, somebody may cancel the query, and others may use their accounts. -/
inductive Join.Asked : (Nat → Nat) → Bool → Join → Prop where
  | new
      {params : Params}
      {buildSchema : Schema}
      {buildKey : String}
      {probe : ProbeSide}
      {specs : List FilterSpec}
      {area : SpillArea}
      {ledger : Ledger}
      {new : Join}
      (made : Join.make params buildSchema buildKey probe specs area ledger = .ok new) :
      Asked ledger.used true new
  | ask
      {others : Nat → Nat}
      {met : Bool}
      {before : Join}
      (asked : Asked others met before)
      {request : Join.Request}
      (continues : request ≠ .finishProbe) :
      Asked others (met && (request.step.outcome before).1.isOk) (request.step.outcome before).2
  | surroundings
      {others : Nat → Nat}
      {met : Bool}
      {before : Join}
      (asked : Asked others met before)
      (area : SpillArea)
      (cancelledAt : Arena → SpillArea → Bool) :
      Asked others met { before with input := { before.input with area, cancelledAt } }
  | elsewhere
      {others nextOthers : Nat → Nat}
      {met : Bool}
      {before : Join}
      {ledger : Ledger}
      (asked : Asked others met before)
      (elsewhere : Ledger.Elsewhere before.input.account before.input.ledger others ledger nextOthers) :
      Asked nextOthers met { before with input := { before.input with ledger } }

namespace Join

variable {others : Nat → Nat} {met : Bool} {join before after : Join}

theorem Asked.reached (asked : Asked others met join) : Operator.Reached others (.join join) := by
  induction asked with
  | new made => exact .newJoin made
  | ask _ _ reached => exact reached.askJoin _
  | surroundings _ area cancelledAt reached => exact reached.surroundings area cancelledAt
  | elsewhere _ elsewhere reached => exact reached.elsewhere elsewhere

/-- Whatever fails, a join that was not asked for its end is within its memory limit. -/
theorem Asked.frugal (asked : Asked others met join) : join.input.Frugal := by
  induction asked with
  | new made =>
      obtain ⟨input, makes, yields⟩ := bind_eq_ok_iff.mp made
      cases yields
      exact Partitioned.frugal_of_make makes
  | @ask _ _ before _ request continues frugal =>
      by_cases charged : ∃ parent, request = .chargeTo parent
      · obtain ⟨parent, rfl⟩ := charged
        exact (keeps_onInput (Partitioned.frugal_chargeTo parent)).outcome frugal
      · have affords := Request.affords continues fun parent same => charged ⟨parent, same⟩
        exact (affords.keeps fun _ _ _ => Partitioned.Affords.frugal).outcome frugal
  | surroundings _ _ _ frugal => exact ⟨frugal.known, frugal.limit, frugal.used, frugal.peak⟩
  | elsewhere asked elsewhere frugal =>
      have next := asked.reached.elsewhere elsewhere
      exact frugal.elsewhere elsewhere next.accounted.books.known

/-! ### Runs without failures -/

/-- Until its end, a join that no request failed of has roots only, and they accept rows. It has no tables
until the end of its build side, and then one for every partition that has rows in memory. -/
structure Open (join : Join) : Prop where
  size : join.input.arena.size = join.input.params.partitionCount
  collecting : join.input.Collecting
  unmade : join.phase = .build → join.tables = []
  covered : join.phase = .probe → join.Covered

theorem Open.known
    (isOpen : join.Open)
    {root : Nat}
    (member : root ∈ join.input.roots) :
    root < join.input.arena.size :=
  isOpen.size ▸ List.mem_range.mp member

theorem Open.surround
    {area : SpillArea}
    {cancelledAt : Arena → SpillArea → Bool}
    {ledger : Ledger}
    {account : Nat}
    (isOpen : join.Open) :
    { join with input := { join.input with area, cancelledAt, ledger, account } }.Open :=
  ⟨isOpen.size, isOpen.collecting.surround, isOpen.unmade, fun probing =>
    ⟨(isOpen.covered probing).known, (isOpen.covered probing).has⟩⟩

theorem open_of_make
    {params : Params}
    {buildSchema : Schema}
    {buildKey : String}
    {probe : ProbeSide}
    {specs : List FilterSpec}
    {area : SpillArea}
    {ledger : Ledger}
    (made : make params buildSchema buildKey probe specs area ledger = .ok join) :
    join.Open := by
  obtain ⟨input, makes, yields⟩ := bind_eq_ok_iff.mp made
  cases yields
  refine ⟨?_, Partitioned.collecting_of_make makes, fun _ => rfl, nofun⟩
  obtain ⟨valid, start, rfl, rfl⟩ := Partitioned.exists_bare_of_make makes
  simp [Arena.size, Partitioned.roots]

/-- Feeding partitions adds none. -/
theorem size_of_feeds
    {targets : Nat → Prop}
    {first last : Partitioned}
    (feeds : first.Feeds targets met last)
    (size : first.arena.size = first.params.partitionCount) :
    last.arena.size = last.params.partitionCount := by
  rw [feeds.size_eq, size, feeds.evolves.params_eq]

theorem Open.finishBuild
    {filters : List (FilterId × KeyFilter)}
    (isOpen : before.Open)
    (succeeds : (finishBuild).Succeeds before filters after) :
    after.Open := by
  obtain ⟨feeds, building, probing⟩ := (ends_finishBuild before).of_succeeds succeeds
  refine ⟨size_of_feeds feeds isOpen.size, feeds.collecting isOpen.collecting,
    fun again => absurd (probing.symm.trans again) (by decide), fun _ => ?_⟩
  simp only [Join.finishBuild, succeeds_bind, succeeds_get] at succeeds
  obtain ⟨_, _, ⟨rfl, rfl⟩, succeeds⟩ := succeeds
  rw [if_neg (not_not.mpr building)] at succeeds
  simp only [succeeds_bind, succeeds_onInput_iff, Partitioned.succeeds_checkCancelled,
    succeeds_modify, succeeds_pure] at succeeds
  obtain ⟨_, _, ⟨_, ⟨_, rfl⟩, rfl⟩, _, made, making, _, _, rfl, -, rfl⟩ := succeeds
  have covers := covers_makeTables making (by simp [isOpen.unmade building])
    fun root part found _ _ => .inr ?_
  · exact ⟨covers.known, covers.has⟩
  · obtain ⟨record, there, -⟩ := Option.bind_eq_some_iff.mp found
    exact (isOpen.collecting.roots root record there).1

theorem Open.probeChunk
    {output : List Chunk}
    {chunk : Chunk}
    (isOpen : before.Open)
    (succeeds : (probeChunk chunk).Succeeds before output after) :
    after.Open := by
  obtain ⟨feeds, phase⟩ := (takes_probeChunk chunk before).of_succeeds succeeds
  obtain ⟨spares, tables, -, -⟩ :=
    (within_probeChunk Partitioned.sparesBuilds_appendProbe chunk before).of_succeeds succeeds
  have builds : ∀ partition, after.input.arena.part? (.build, partition) =
      before.input.arena.part? (.build, partition) := spares
  refine ⟨size_of_feeds feeds isOpen.size, feeds.collecting isOpen.collecting,
    fun building => tables.trans (isOpen.unmade (phase ▸ building)), fun probing => ?_⟩
  have covered := isOpen.covered (phase ▸ probing)
  refine ⟨?_, ?_⟩ <;> rw [tables]
  · exact fun partition member => builds partition ▸ covered.known partition member
  · exact fun partition part found => covered.has partition part ((builds partition).symm.trans found)

theorem Open.addBuildChunk
    {value : Unit}
    {chunk : Chunk}
    (isOpen : before.Open)
    (succeeds : (addBuildChunk chunk).Succeeds before value after) :
    after.Open := by
  obtain ⟨feeds, phase⟩ := (takes_addBuildChunk chunk before).of_succeeds succeeds
  have building := phase_of_addBuildChunk succeeds
  refine ⟨size_of_feeds feeds isOpen.size, feeds.collecting isOpen.collecting, fun _ => ?_,
    fun probing => absurd ((phase.trans building).symm.trans probing) (by decide)⟩
  obtain ⟨_, _, ⟨_, rfl⟩ | ⟨_, _, _, _, same⟩⟩ := addBuildChunk_cases succeeds
  · exact isOpen.unmade building
  · rw [← same]
    exact isOpen.unmade building

/-- A request that is met, and is not for the end, leaves the join open. -/
theorem Request.open
    {request : Request}
    (isOpen : before.Open)
    (continues : request ≠ .finishProbe)
    (succeeds : request.step.Succeeds before () after) :
    after.Open := by
  cases request with
  | chargeTo parent =>
      obtain ⟨input, charged, rfl⟩ := succeeds_onInput_iff.mp succeeds
      obtain ⟨ledger, account, rfl⟩ :=
        (Partitioned.ends_chargeTo parent before.input).of_succeeds charged
      exact isOpen.surround
  | addBuildChunk chunk => exact isOpen.addBuildChunk succeeds
  | finishBuild =>
      obtain ⟨filters, between, ended, -, rfl⟩ := (succeeds_bind _ _ _ _ _).mp succeeds
      exact isOpen.finishBuild ended
  | probeChunk chunk =>
      obtain ⟨output, between, probed, -, rfl⟩ := (succeeds_bind _ _ _ _ _).mp succeeds
      exact isOpen.probeChunk probed
  | finishProbe => exact absurd rfl continues

theorem Asked.open
    (asked : Asked others met join)
    (all : met = true) :
    join.Open := by
  induction asked with
  | new made => exact open_of_make made
  | ask _ continues isOpen =>
      rw [Bool.and_eq_true] at all
      exact Request.open (isOpen all.1) continues (succeeds_of_isOk _ _ all.2)
  | surroundings _ _ _ isOpen => exact (isOpen all).surround
  | elsewhere _ _ isOpen => exact (isOpen all).surround

/-! ### The end -/

/-- An open join starts its visits with nothing in memory. -/
theorem Open.poised
    {start : Join}
    (isOpen : join.Open)
    (accounted : join.input.Accounted others [] 0)
    (probing : join.phase = .probe)
    (completes : (completeTables (join.tables.map Prod.fst)).Succeeds join () start) :
    Poised others join.input.roots start := by
  have covered := isOpen.covered probing
  obtain ⟨_, started⟩ := covered.exists_started
  obtain rfl := congrArg Prod.snd (started.succeeds.symm.trans completes)
  obtain ⟨evolves, -, remains⟩ := (ends_completeTables _ join).of_succeeds completes
  exact
    { accounted := (keeps_completeTables _ join accounted).of_succeeds completes
      remaining := remains _ isOpen.collecting.remaining
      layered := Partitioned.layered_of_unloaded
        (fun _ _ => started.unloaded covered isOpen.collecting.counts accounted) _
      distinct := List.nodup_range
      known := fun _ member => Nat.lt_of_lt_of_le (isOpen.known member) evolves.size_le }

/-- The end of the probe side completes the partitions that have tables, and goes where visits lead. -/
theorem ends_finishProbe_halts (probing : join.phase = .probe) :
    finishProbe.Ends join
      (fun _ after => ∃ start last, (completeTables (join.tables.map Prod.fst)).Succeeds join () start ∧
        Turns visit ⟨join.input.roots, start⟩ ⟨[], last⟩ ∧ after.input = last.input)
      fun _ after =>
        (∃ status, (completeTables (join.tables.map Prod.fst)).outcome join = (.error status, after)) ∨
          ∃ start, (completeTables (join.tables.map Prod.fst)).Succeeds join () start ∧
            Halts visit ⟨join.input.roots, start⟩ after := by
  unfold finishProbe
  rw [ends_bind, ends_get]
  dsimp only
  rw [if_neg (not_not.mpr probing), ends_bind]
  refine (ends_outcome _ join).mono (fun _ start completes => ?_) fun status _ failed =>
    .inl ⟨status, failed⟩
  rw [ends_bind]
  refine (follows_drain_turns visit _ _ start).mono (fun output last turns => ?_)
    fun _ after halts => .inr ⟨start, completes, ?_⟩
  · have turns := turns []
    rw [List.append_nil] at turns
    exact ⟨start, last, completes, turns, rfl⟩
  · have halts := halts []
    rwa [List.append_nil] at halts

end Join
end Spillway
