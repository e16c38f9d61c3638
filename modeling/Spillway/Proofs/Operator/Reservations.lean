import Mathlib.Logic.Relation
import Spillway.Proofs.Operator.Requests
import Spillway.Proofs.Operator.Serving

/-!
# What is charged only where it fits

Partitioned input charges its account for the bytes of rows only where they fit it and every account above
it, and gives bytes back. There is one exception: a spilled partition that is loaded is charged whether it
fits or not. Aggregations load none, and joins only at their end, one in a visit.
-/

namespace Spillway

open Step Relation

/-! ## Ledgers -/

namespace Ledger

/-- Bytes are reserved on an account where they fit, or given back. -/
inductive Grant (account : Nat) : Ledger → Ledger → Prop where
  | reserves
      {ledger : Ledger}
      {bytes : Nat}
      (fits : ledger.fits account bytes = true) :
      Grant account ledger (ledger.reserve account bytes)
  | releases
      {ledger : Ledger}
      (bytes : Nat) :
      Grant account ledger (ledger.release account bytes)

/-- Bytes are reserved on an account where they fit, and given back, any number of times. -/
def Grants (account : Nat) : Ledger → Ledger → Prop :=
  ReflTransGen (Grant account)

variable {ledger before after : Ledger} {account place : Nat}

theorem used_refundAlong_le
    (ledger : Ledger)
    (bytes : Nat)
    (places : List Nat)
    (place : Nat) :
    (ledger.refundAlong bytes places).used place ≤ ledger.used place := by
  induction places generalizing ledger bytes with
  | nil => exact Nat.le_refl _
  | cons first places inductionHypothesis =>
      refine Nat.le_trans (inductionHypothesis _ _) ?_
      unfold used Ledger.account modify
      rw [Array.getElem?_modify]
      split
      · cases ledger.accounts[place]? <;> simp
      · exact Nat.le_refl _

theorem used_release_le (ledger : Ledger) (account bytes place : Nat) :
    (ledger.release account bytes).used place ≤ ledger.used place :=
  used_refundAlong_le ledger bytes _ place

/-- What is reserved where it fits leaves every account within its limit, or as it was. -/
theorem account_reserve_of_fits
    {bytes : Nat}
    (known : account < ledger.accounts.size)
    (fits : ledger.fits account bytes = true)
    (place : Nat) :
    (ledger.reserve account bytes).account place = ledger.account place ∨
      (ledger.reserve account bytes).used place ≤ (ledger.account place).limit ∧
        (ledger.reserve account bytes).peak place ≤
          max (ledger.peak place) (ledger.account place).limit := by
  unfold used peak
  rw [account_reserve known]
  split
  case isTrue member =>
      have fitting := List.all_eq_true.mp fits place member
      rw [Account.fits, Bool.and_eq_true, decide_eq_true_eq, decide_eq_true_eq] at fitting
      rw [Account.used_charge, Account.peak_charge]
      refine .inr ⟨?_, ?_⟩ <;> omega
  case isFalse => exact .inl rfl

/-- What is held after a charge is noted by the peaks. -/
theorem used_le_peak_reserve
    (known : account < ledger.accounts.size)
    (member : place ∈ ledger.chain account)
    (bytes : Nat) :
    (ledger.reserve account bytes).used place ≤ (ledger.reserve account bytes).peak place := by
  unfold used peak
  rw [account_reserve known, if_pos member, Account.used_charge, Account.peak_charge]
  exact Nat.le_max_right _ _

theorem peak_le_reserve
    (known : account < ledger.accounts.size)
    (bytes place : Nat) :
    ledger.peak place ≤ (ledger.reserve account bytes).peak place := by
  unfold peak
  rw [account_reserve known]
  split
  · rw [Account.peak_charge]
    exact Nat.le_max_left _ _
  · exact Nat.le_refl _

theorem grant_of_reserve?
    {bytes : Nat}
    (reserved : before.reserve? account bytes = some after) :
    Grant account before after := by
  rw [reserve?_eq] at reserved
  split at reserved
  case isTrue fits => exact Option.some.inj reserved ▸ .reserves fits
  case isFalse => cases reserved

/-- Granted bytes take no account beyond its limit, now or ever. -/
theorem Grant.le_max
    (grant : Grant account before after)
    (known : account < before.accounts.size)
    (place : Nat) :
    after.used place ≤ max (before.used place) (before.account place).limit ∧
      after.peak place ≤ max (before.peak place) (before.account place).limit := by
  cases grant with
  | reserves fits =>
      obtain same | ⟨used, peak⟩ := account_reserve_of_fits known fits place
      · unfold used peak
        rw [same]
        exact ⟨Nat.le_max_left _ _, Nat.le_max_left _ _⟩
      · exact ⟨Nat.le_trans used (Nat.le_max_right _ _), peak⟩
  | releases bytes =>
      rw [peak_release]
      exact ⟨Nat.le_trans (used_release_le _ _ _ _) (Nat.le_max_left _ _), Nat.le_max_left _ _⟩

/-- A charge leaves no account with a higher peak than what it holds then. -/
theorem peak_reserve_le
    (known : account < ledger.accounts.size)
    (bytes place : Nat) :
    (ledger.reserve account bytes).peak place ≤ max (ledger.peak place) (ledger.used place + bytes) := by
  unfold peak used
  rw [account_reserve known]
  split
  · rw [Account.peak_charge]
    omega
  · exact Nat.le_max_left _ _

/-- A ledger keeps its accounts with their limits and those above them, and recalls their peaks. -/
structure Recalls (before after : Ledger) : Prop where
  size : after.accounts.size = before.accounts.size
  limit : ∀ place, (after.account place).limit = (before.account place).limit
  chain : ∀ place, after.chain place = before.chain place
  rises : ∀ place, before.peak place ≤ after.peak place

theorem Recalls.refl (ledger : Ledger) : ledger.Recalls ledger :=
  ⟨rfl, fun _ => rfl, fun _ => rfl, fun _ => Nat.le_refl _⟩

theorem Recalls.trans
    {last : Ledger}
    (first : before.Recalls after)
    (second : after.Recalls last) :
    before.Recalls last :=
  ⟨second.size.trans first.size, fun place => (second.limit place).trans (first.limit place),
    fun place => (second.chain place).trans (first.chain place),
    fun place => Nat.le_trans (first.rises place) (second.rises place)⟩

theorem recalls_reserve
    (known : account < ledger.accounts.size)
    (bytes : Nat) :
    ledger.Recalls (ledger.reserve account bytes) :=
  ⟨size_reserve _ _ _, limit_reserve _ _ _, chain_reserve known _, peak_le_reserve known bytes⟩

theorem Grant.recalls
    (grant : Grant account before after)
    (known : account < before.accounts.size) :
    before.Recalls after := by
  cases grant with
  | reserves fits => exact recalls_reserve known _
  | releases bytes =>
      exact ⟨size_release _ _ _, limit_release _ _ _, chain_release _ _ _,
        fun place => Nat.le_of_eq (peak_release _ _ _ place).symm⟩

/-- A ledger recalls its peaks, and no account passes its limit that did not before. -/
structure Keeps (before after : Ledger) : Prop extends Recalls before after where
  used : ∀ place, after.used place ≤ max (before.used place) (before.account place).limit
  peak : ∀ place, after.peak place ≤ max (before.peak place) (before.account place).limit

theorem Grants.keeps
    (grants : Grants account before after)
    (known : account < before.accounts.size) :
    before.Keeps after := by
  induction grants with
  | refl =>
      exact ⟨.refl before, fun _ => Nat.le_max_left _ _, fun _ => Nat.le_max_left _ _⟩
  | @tail between last _ grant inductionHypothesis =>
      have here : account < between.accounts.size := inductionHypothesis.size ▸ known
      have more := grant.le_max here
      refine ⟨inductionHypothesis.toRecalls.trans (grant.recalls here), fun place => ?_, fun place => ?_⟩
      · have used := (more place).1
        have first := inductionHypothesis.used place
        rw [inductionHypothesis.limit place] at used
        omega
      · have peak := (more place).2
        have first := inductionHypothesis.peak place
        rw [inductionHypothesis.limit place] at peak
        omega

end Ledger

/-! ## Partitioned input -/

namespace Partitioned

/-- The account stays the same one, its bytes are charged only where they fit, and given back. -/
def Affords (_ : Bool) (before after : Partitioned) : Prop :=
  after.params = before.params ∧ after.account = before.account ∧
    Ledger.Grants before.account before.ledger after.ledger

instance : Composes Affords where
  refl _ _ := ⟨rfl, rfl, .refl⟩
  trans := by
    rintro _ first second third ⟨params, account, grants⟩ ⟨moreParams, moreAccount, moreGrants⟩
    exact ⟨moreParams.trans params, moreAccount.trans account, grants.trans (account ▸ moreGrants)⟩

variable {input : Partitioned} {partition : Nat} {record : PartitionRecord} {α : Type}

/-- What is done with partitions and counters costs nothing. -/
theorem affords_free
    {met : Bool}
    {after : Partitioned}
    (params : after.params = input.params)
    (account : after.account = input.account)
    (ledger : after.ledger = input.ledger) :
    Affords met input after :=
  ⟨params, account, ledger ▸ .refl⟩

theorem affords_onArena (step : Arena → Except ArenaFault (α × Arena)) :
    (onArena step).Follows Affords :=
  fun input => ends_onArena (fun _ _ _ => affords_free rfl rfl rfl) fun _ => Composes.refl false input

theorem affords_onBuild (step : Step Holding α) : (onBuild partition step).Follows Affords := by
  refine fun input => ends_onBuild_of (fun _ _ => ?_) fun _ => Composes.refl false input
  exact .of_forall (fun _ _ => affords_free rfl rfl rfl) fun _ _ => affords_free rfl rfl rfl

theorem affords_onProbe
    {absent : Step Partitioned α}
    (otherwise : absent.Follows Affords)
    (step : Step Holding α) :
    (onProbe partition absent step).Follows Affords := by
  refine fun input => ends_onProbe_of (otherwise input) (fun _ _ _ _ => ?_) fun _ => Composes.refl false input
  exact .of_forall (fun _ _ => affords_free rfl rfl rfl) fun _ _ => affords_free rfl rfl rfl

theorem affords_setState (state : PartitionState) : (setState partition state).Follows Affords :=
  follows_modify fun _ => affords_free rfl rfl rfl

theorem affords_releaseBytes (bytes : Nat) : (releaseBytes bytes).Follows Affords :=
  follows_modify fun _ => ⟨rfl, rfl, .single (.releases bytes)⟩

theorem affords_tryCharge (bytes : Nat) : (tryCharge bytes).Follows Affords :=
  fun _ => ends_tryCharge_of
    (fun _ granted => ⟨rfl, rfl, .single (Ledger.grant_of_reserve? granted)⟩)
    fun _ => affords_free rfl rfl rfl

theorem affords_spillPartition : (spillPartition partition).Follows Affords := by
  refine follows_record.bind fun before => ?_
  split
  · exact follows_pure _
  refine (affords_onBuild _).bind fun freed => (affords_releaseBytes freed).bind fun _ => ?_
  refine (follows_modify fun _ => ?_).bind fun _ => follows_pure _
  exact affords_free rfl rfl rfl

theorem affords_spillLargest : spillLargest.Follows Affords := by
  refine follows_get.bind fun input => ?_
  split
  · exact affords_spillPartition.bind fun _ => follows_pure _
  · exact follows_pure _

theorem affords_appendCharged (bytes : Nat) (chunk : Chunk) :
    (appendCharged partition bytes chunk).Follows Affords := by
  intro input
  unfold appendCharged
  rw [ends_bind, ends_attempt]
  refine (affords_onBuild (Partition.append chunk) input).mono (fun _ _ affords => affords)
    fun status between affords => ?_
  exact ((affords_releaseBytes bytes).bind (fun _ => follows_fail status) between).mono
    (fun _ _ => Composes.trans affords) fun _ _ => Composes.trans affords

theorem affords_appendBuild (chunk : Chunk) : (appendBuild partition chunk).Follows Affords := by
  refine follows_record.bind fun target => ?_
  split
  · exact affords_onBuild _
  refine (affords_tryCharge _).bind fun fits => ?_
  split
  · exact affords_appendCharged _ _
  refine affords_spillLargest.bind fun _ => follows_record.bind fun target => ?_
  split
  · exact affords_onBuild _
  refine (affords_tryCharge _).bind fun fits => ?_
  split
  · exact affords_appendCharged _ _
  · exact affords_spillPartition.bind fun _ => affords_onBuild _

theorem affords_appendProbe (chunk : Chunk) : (appendProbe partition chunk).Follows Affords :=
  follows_get.bind fun _ => affords_onProbe (follows_fail _) _

theorem affords_addBuildChunk (chunk : Chunk) : (addBuildChunk chunk).Follows Affords :=
  follows_checkCancelled.bind fun _ => follows_get.bind fun _ =>
    follows_route (fun _ _ => affords_appendBuild) _ _ _

theorem affords_addChildren (parent level : Nat) (buckets : List Nat) :
    (addChildren parent level buckets).Follows Affords := by
  induction buckets with
  | nil => exact follows_pure _
  | cons bucket rest inductionHypothesis =>
      exact follows_get.bind fun _ => (affords_onArena _).bind fun _ =>
        inductionHypothesis.bind fun _ => follows_pure _

theorem affords_releaseProbe : (releaseProbe partition).Follows Affords :=
  affords_onProbe (follows_pure _) _

theorem affords_keepNonEmpty (children : List Nat) : (keepNonEmpty children).Follows Affords := by
  induction children with
  | nil => exact follows_pure _
  | cons child rest inductionHypothesis =>
      refine follows_record.bind fun record => ?_
      split
      · exact (affords_setState _).bind fun _ => affords_releaseProbe.bind fun _ => inductionHypothesis
      · exact inductionHypothesis.bind fun _ => follows_pure _

/-- The children of a partition are charged for what they keep in memory, where that fits. -/
theorem affords_repartition : (repartition partition).Follows Affords := by
  refine follows_record.bind fun before => follows_get.bind fun input => ?_
  dsimp only
  split
  · exact follows_fail_bind _ _
  refine (affords_setState _).bind fun _ => (affords_addChildren _ _ _).bind fun children => ?_
  refine follows_record.bind fun record => (follows_streamBlocks (fun _ => affords_onBuild _)
    (follows_route (fun _ _ => affords_appendBuild) _ _) _).bind fun _ => ?_
  have giveUp : (do
      onBuild partition Partition.release
      releaseProbe partition
      setState partition .repartitioned
      modify fun input => { input with repartitions := input.repartitions + 1 }
      keepNonEmpty children : Step Partitioned (List Nat)).Follows Affords := by
    refine (affords_onBuild _).bind fun _ => affords_releaseProbe.bind fun _ => ?_
    refine (affords_setState _).bind fun _ => (follows_modify fun _ => ?_).bind fun _ =>
      affords_keepNonEmpty children
    exact affords_free rfl rfl rfl
  split
  · exact giveUp
  · refine follows_probeBlocks.bind fun _ => ?_
    exact (follows_streamBlocks (fun _ => affords_onProbe (follows_pure _) _)
      (follows_route (fun _ _ => affords_appendProbe) _ _) _).bind fun _ => giveUp

theorem affords_complete : (complete partition).Follows Affords := by
  refine follows_record.bind fun record => (affords_onBuild _).bind fun _ =>
    affords_releaseProbe.bind fun _ => (affords_setState _).bind fun _ =>
    (affords_releaseBytes _).bind fun _ => follows_get.bind fun input => ?_
  split
  · exact follows_pure _
  · refine (follows_modify fun _ => ?_).bind fun _ => affords_releaseBytes _
    exact affords_free rfl rfl rfl

/-- A partition in memory is loaded free of charge. A spilled one is charged, if it can be read. -/
theorem ends_loadBuild_affords (found : input.arena.records[partition]? = some record) :
    (loadBuild partition).Ends input
      (fun _ after => after.params = input.params ∧ after.account = input.account ∧
        after.ledger = if record.build.spilled then
          input.ledger.reserve input.account record.build.estimatedSize else input.ledger)
      fun _ => Affords false input := by
  have marked := getElem?_modify_state found .pinned
  unfold loadBuild
  rw [ends_bind, setState, changeRecord, ends_modify, ends_bind, ends_record_of marked, ends_ite]
  refine ⟨fun inMemory => ⟨rfl, rfl, ?_⟩, fun spilled => ?_⟩
  · rw [if_neg (by exact inMemory)]
  rw [not_not] at spilled
  rw [ends_bind, ends_onBuild marked]
  refine .of_forall (fun chunks holding => ⟨rfl, rfl, ?_⟩) fun _ _ => affords_free rfl rfl rfl
  rw [if_pos (by exact spilled)]
  rfl

end Partitioned

/-! ## Joins -/

/-- A visit that finds the partition so joins it after loading it from the store: it accepts rows and has
some on either side, and the build rows fit so many bytes unless there is one only. -/
structure PartitionRecord.Loadable
    (available : Nat)
    (record : PartitionRecord) : Prop where
  opened : record.state = .opened
  spilled : record.build.spilled = true
  built : record.build.isEmpty = false
  probed : record.probe.all Partition.isEmpty = false
  fits : 1 < record.build.rowCount → record.build.estimatedSize ≤ available

namespace Join

variable {partition : Nat} {join : Join} {record : PartitionRecord} {α : Type}

theorem affords_of_within
    {step : Step Join α}
    (within : step.Follows (Within Partitioned.Affords)) :
    step.Follows (along Join.input Partitioned.Affords) :=
  within.mono fun _ _ _ within => within.1

theorem affords_onInput
    {step : Step Partitioned α}
    (affords : step.Follows Partitioned.Affords) :
    (onInput step).Follows (along Join.input Partitioned.Affords) :=
  affords_of_within (within_onInput affords)

theorem affords_insertKeys
    (cells : List Cell)
    (done filters : List KeyFilter) :
    (insertKeys cells done filters).Follows (along Join.input Partitioned.Affords) := by
  have free : ∀ filters : List KeyFilter, (modify fun join => { join with filters } :
      Step Join PUnit).Follows (along Join.input Partitioned.Affords) :=
    fun _ => follows_modify fun _ => Partitioned.affords_free rfl rfl rfl
  induction filters generalizing done with
  | nil => exact free _
  | cons filter rest inductionHypothesis =>
      rw [insertKeys]
      split
      · exact inductionHypothesis _
      · exact (free _).bind fun _ => follows_fail _

/-- Build rows are charged where they fit, whether the request is met or not. -/
theorem affords_addBuildChunk (chunk : Chunk) :
    (addBuildChunk chunk).Follows (along Join.input Partitioned.Affords) := by
  refine follows_get.bind fun join => ?_
  dsimp only
  split
  · exact follows_fail_bind _ _
  refine (follows_ofExcept _).bind fun chunk => ?_
  have accepts := affords_onInput (Partitioned.affords_addBuildChunk chunk)
  split
  · exact follows_pure _
  split
  · exact accepts
  · exact (follows_ofExcept _).bind fun cells => (affords_insertKeys cells [] _).bind fun _ => accepts

theorem affords_finishBuild : finishBuild.Follows (along Join.input Partitioned.Affords) := by
  intro join
  have same : ∀ {met : Bool} {after : Join}, after.input = join.input →
      along Join.input Partitioned.Affords met join after := by
    intro met after same
    rw [along, same]
    exact Composes.refl met join.input
  exact (@keeps_finishBuild (· = join.input) join rfl).mono (fun _ _ => same) fun _ _ => same

theorem affords_probeChunk (chunk : Chunk) :
    (probeChunk chunk).Follows (along Join.input Partitioned.Affords) :=
  affords_of_within (within_probeChunk (fun _ part => Partitioned.affords_appendProbe part) chunk)

/-- All that a join charges for before its end fits. -/
theorem Request.affords
    {request : Request}
    (continues : request ≠ .finishProbe)
    (charged : ∀ parent, request ≠ .chargeTo parent) :
    request.step.Follows (along Join.input Partitioned.Affords) := by
  cases request with
  | chargeTo parent => exact absurd rfl (charged parent)
  | addBuildChunk chunk => exact affords_addBuildChunk chunk
  | finishBuild => exact affords_finishBuild.bind fun _ => follows_pure _
  | probeChunk chunk => exact (affords_probeChunk chunk).bind fun _ => follows_pure _
  | finishProbe => exact absurd rfl continues

/-- What completing partitions does to the input is all that completing those with tables does to it. -/
theorem follows_completeTables
    {relation : Bool → Partitioned → Partitioned → Prop}
    [Composes relation]
    (completes : ∀ partition, (Partitioned.complete partition).Follows relation)
    (partitions : List Nat) :
    (completeTables partitions).Follows (along Join.input relation) := by
  induction partitions with
  | nil => exact follows_pure _
  | cons partition rest inductionHypothesis =>
      have completed : (onInput (Partitioned.complete partition)).Follows (along Join.input relation) :=
        (within_onInput (completes partition)).mono fun _ _ _ within => within.1
      refine (follows_modify fun join => ?_).bind fun _ => completed.bind fun _ => inductionHypothesis
      exact Composes.refl true join.input

theorem affords_completeTables (partitions : List Nat) :
    (completeTables partitions).Follows (along Join.input Partitioned.Affords) :=
  follows_completeTables (fun _ => Partitioned.affords_complete) partitions

/-- The partition is loaded from the store, which is charged whether it fits or not. What is charged
after that fits. -/
structure Loads
    (partition : Nat)
    (record : PartitionRecord)
    (before after : Partitioned) : Prop where
  loadable : record.Loadable (before.ledger.available before.account)
  loaded : ∃ chunks loaded, (Partitioned.loadBuild partition).Succeeds before chunks loaded
  params : after.params = before.params
  account : after.account = before.account
  grants : Ledger.Grants before.account
    (before.ledger.reserve before.account record.build.estimatedSize) after.ledger

/-- What is charged when a partition is joined fits, but for what loading it costs. -/
theorem ends_joinPartition_loads
    (found : join.input.arena.records[partition]? = some record)
    (loadable : record.build.spilled = true →
      record.Loadable (join.input.ledger.available join.input.account)) :
    (joinPartition partition).Ends join
      (fun _ after => record.build.spilled = false ∧ Partitioned.Affords true join.input after.input ∨
        Loads partition record join.input after.input)
      fun _ after => Partitioned.Affords false join.input after.input ∨
        Loads partition record join.input after.input := by
  unfold joinPartition
  rw [ends_bind, ends_onInput]
  refine ((Partitioned.ends_loadBuild_affords found).and_succeeds).mono
    (fun chunks loaded loads => ?_) fun _ _ => .inl
  obtain ⟨succeeds, params, account, ledger⟩ := loads
  have joins : (do
      let input := (← get).input
      let table ← Step.ofExcept (JoinTable.ofChunks input.buildSchema chunks input.buildKey)
      let blocks ← onInput (Partitioned.probeBlocks partition)
      let output ← joinBlocks partition table (List.range blocks)
      onInput (Partitioned.complete partition)
      return output : Step Join (List Chunk)).Follows (Within Partitioned.Affords) := by
    refine follows_get.bind fun join => (follows_ofExcept _).bind fun table => ?_
    refine (within_onInput Partitioned.follows_probeBlocks).bind fun blocks => ?_
    refine (within_joinBlocks (fun _ => Partitioned.affords_onProbe (follows_pure _) _) table _).bind
      fun output => ?_
    exact (within_onInput Partitioned.affords_complete).bind fun _ => follows_pure _
  have goesOn : ∀ {met : Bool} {after : Partitioned}, Partitioned.Affords met loaded after →
      record.build.spilled = false ∧ Partitioned.Affords met join.input after ∨
        Loads partition record join.input after := by
    intro met after affords
    obtain ⟨moreParams, moreAccount, grants⟩ := affords
    rw [account, ledger] at grants
    by_cases spilled : record.build.spilled = true
    · rw [if_pos spilled] at grants
      exact .inr ⟨loadable spilled, ⟨chunks, loaded, succeeds⟩, moreParams.trans params,
        moreAccount.trans account, grants⟩
    · rw [if_neg spilled] at grants
      exact .inl ⟨Bool.eq_false_iff.mpr spilled, moreParams.trans params, moreAccount.trans account,
        grants⟩
  exact (joins _).mono (fun _ _ within => goesOn within.1) fun _ _ within =>
    (goesOn within.1).imp_left And.right

/-- What is charged in a visit fits, but for what loading its partition costs. A visit that is met loads
the partitions that it can load. -/
theorem ends_visit_loads (found : join.input.arena.records[partition]? = some record) :
    (visit partition).Ends join
      (fun _ after => ¬ record.Loadable (join.input.ledger.available join.input.account) ∧
        Partitioned.Affords true join.input after.input ∨
          Loads partition record join.input after.input)
      fun _ after => Partitioned.Affords false join.input after.input ∨
        Loads partition record join.input after.input := by
  have nothing : ∀ met, Partitioned.Affords met join.input join.input :=
    fun met => Composes.refl met join.input
  refine VisitEnds.ends
    { cancelled := .of_forall (fun _ _ => trivial) fun _ _ => .inl (nothing false)
      closed := fun closed => .inl ⟨fun loadable => closed loadable.opened, nothing true⟩
      completed := fun _ none => ?completed
      split := fun _ _ spilled divisible large => ?divided
      joined := fun opened some small => ?joined } found
  case completed =>
    refine (Partitioned.affords_complete join.input).mono (fun _ _ affords => .inl ⟨fun loadable => ?_,
      affords⟩) fun _ _ => .inl
    rw [loadable.built, loadable.probed] at none
    cases none
  case divided =>
    exact (Partitioned.affords_repartition join.input).mono (fun _ _ affords _ _ =>
      .inl ⟨fun loadable => Nat.not_lt_of_le (loadable.fits divisible) large, affords⟩) fun _ _ => .inl
  case joined =>
    rw [Bool.not_eq_true, Bool.or_eq_false_iff] at some
    refine (ends_joinPartition_loads found fun spilled => ?_).mono (fun _ _ joined =>
      joined.imp_left (And.imp_left fun inMemory loadable => ?_)) fun _ _ => id
    case refine_2 =>
      rw [loadable.spilled] at inMemory
      cases inMemory
    exact ⟨opened, spilled, some.1, some.2, fun divisible =>
      Nat.not_lt.mp fun large => small ⟨spilled, divisible, large⟩⟩

end Join

/-! ## Aggregations -/

namespace Aggregation

variable {partition : Nat} {aggregation : Aggregation} {record : PartitionRecord}

theorem affords_addChunk (chunk : Chunk) :
    (addChunk chunk).Follows (along Aggregation.input Partitioned.Affords) :=
  follows_onInput (Partitioned.affords_addBuildChunk chunk)

/-- A partition in memory is aggregated free of charge. -/
theorem ends_aggregateInMemory_affords
    (found : aggregation.input.arena.records[partition]? = some record)
    (inMemory : ¬ record.build.spilled) :
    (aggregateInMemory partition).Ends aggregation
      (fun _ => along Aggregation.input Partitioned.Affords true aggregation)
      fun _ => along Aggregation.input Partitioned.Affords false aggregation := by
  have aggregates : ∀ chunks, (do
      let table ← addChunks {} chunks
      let output ← emit table
      onInput (Partitioned.complete partition)
      return output : Step Aggregation (List Chunk)).Follows
        (along Aggregation.input Partitioned.Affords) := by
    refine fun chunks => (follows_addChunks _ chunks).bind fun table => (follows_emit table).bind
      fun output => ?_
    exact (follows_onInput Partitioned.affords_complete).bind fun _ => follows_pure _
  have loads : (onInput (Partitioned.loadBuild partition)).Ends aggregation
      (fun _ => along Aggregation.input Partitioned.Affords true aggregation)
      fun _ => along Aggregation.input Partitioned.Affords false aggregation := by
    rw [ends_onInput]
    refine (Partitioned.ends_loadBuild_affords found).mono (fun _ loaded loads => ?_)
      fun _ _ affords => affords
    obtain ⟨params, account, ledger⟩ := loads
    rw [if_neg inMemory] at ledger
    exact Partitioned.affords_free params account ledger
  exact (loads.mono (fun chunks loaded affords => ⟨aggregates chunks loaded, affords⟩)
    fun _ _ affords => affords).follow

theorem affords_addBlocks
    (table : GroupTable)
    (blocks : List Nat) :
    (addBlocks partition table blocks).Follows (along Aggregation.input Partitioned.Affords) := by
  induction blocks generalizing table with
  | nil => exact follows_pure _
  | cons block rest inductionHypothesis =>
      refine (follows_onInput Partitioned.follows_checkCancelled).bind fun _ => ?_
      refine (follows_onInput (Partitioned.affords_onBuild _)).bind fun chunks => ?_
      refine (follows_addChunks table chunks).bind fun table => follows_get.bind fun aggregation => ?_
      dsimp only
      split
      · exact follows_pure _
      · exact inductionHypothesis table

/-- Spilled partitions are aggregated block by block and not loaded. -/
theorem affords_visit (partition : Nat) :
    (visit partition).Follows (along Aggregation.input Partitioned.Affords) := by
  refine (follows_onInput Partitioned.follows_checkCancelled).bind fun _ aggregation => ?_
  have nothing : ∀ met, along Aggregation.input Partitioned.Affords met aggregation aggregation :=
    fun met => Composes.refl met aggregation
  rw [ends_bind, ends_onInput]
  refine Partitioned.ends_record (fun record found => ?_) fun _ => nothing false
  rw [ends_ite]
  refine ⟨fun _ => nothing true, fun _ => ?_⟩
  rw [ends_ite]
  refine ⟨fun inMemory => ?_, fun _ => ?_⟩
  · refine ((ends_aggregateInMemory_affords found inMemory).mono
      (fun output between affords => ?_) fun _ _ affords => affords).follow
    exact ⟨follows_pure _ between, affords⟩
  · refine Follows.bind (affords_addBlocks {} _) (fun result => ?_) aggregation
    split
    · exact (follows_emit _).bind fun output =>
        (follows_onInput Partitioned.affords_complete).bind fun _ => follows_pure _
    · exact (follows_onInput Partitioned.affords_repartition).bind fun children =>
        (follows_onInput (Partitioned.follows_processingOrder children)).bind fun _ => follows_pure _

theorem affords_finishInMemory (spilled partitions : List Nat) :
    (finishInMemory spilled partitions).Follows (along Aggregation.input Partitioned.Affords) := by
  induction partitions generalizing spilled with
  | nil => exact follows_pure _
  | cons partition rest inductionHypothesis =>
      intro aggregation
      refine (ends_bind _ _).mpr ((ends_onInput _).mpr ?_)
      refine Partitioned.ends_record (fun record found => ?_) fun _ => Composes.refl false aggregation
      rw [ends_ite]
      refine ⟨fun _ => ?_, fun _ => ?_⟩
      · exact ((follows_onInput Partitioned.affords_complete).bind fun _ =>
          inductionHypothesis spilled) aggregation
      rw [ends_ite]
      refine ⟨fun _ => inductionHypothesis _ aggregation, fun inMemory => ?_⟩
      refine ((ends_aggregateInMemory_affords found inMemory).mono
        (fun output between affords => ?_) fun _ _ affords => affords).follow
      exact ⟨(inductionHypothesis spilled).bind (fun _ => follows_pure _) between, affords⟩

/-- All that an aggregation charges for fits, to its end. -/
theorem affords_finish : finish.Follows (along Aggregation.input Partitioned.Affords) :=
  follows_get.bind fun _ => (affords_finishInMemory _ _).bind fun _ =>
    (follows_drain affords_visit _ _).bind fun _ => follows_pure _

end Aggregation
end Spillway
