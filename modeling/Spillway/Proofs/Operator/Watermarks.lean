import Spillway.Proofs.Operator.Budget

/-!
# The most that is held while a request is carried out

The peak of an account is only ever noted, and no step looks at it. So a request does the same whatever the
peaks were before, and if they are all forgotten, the peaks that it leaves behind tell what every account
held at most while the request was carried out.
-/

namespace Spillway

open Step

variable {σ τ α β : Type}

/-! ## Steps that do not see a change of the state -/

namespace Step

/-- The step does the same after a change of the state, which is there after the step as well. -/
def Blind (view : σ → σ) (step : Step σ α) : Prop :=
  ∀ state, step.outcome (view state) = ((step.outcome state).1, view (step.outcome state).2)

variable {view : σ → σ}

theorem blind_pure (value : α) : (pure value : Step σ α).Blind view :=
  fun _ => rfl

theorem blind_fail (status : Status) : (fail status : Step σ α).Blind view :=
  fun _ => rfl

theorem blind_fail_bind (status : Status) (next : β → Step σ α) :
    ((fail status : Step σ β) >>= next).Blind view :=
  fun _ => rfl

theorem blind_ofExcept (result : Except Status α) : (ofExcept result : Step σ α).Blind view :=
  fun _ => by rw [outcome_ofExcept, outcome_ofExcept]

theorem blind_modify
    {change : σ → σ}
    (commutes : ∀ state, change (view state) = view (change state)) :
    (modify change : Step σ PUnit).Blind view :=
  fun state => congrArg (Prod.mk (Except.ok PUnit.unit)) (commutes state)

theorem Blind.bind
    {first : Step σ β}
    {second : β → Step σ α}
    (blind : first.Blind view)
    (next : ∀ value, (second value).Blind view) :
    (first >>= second).Blind view := by
  intro state
  rw [outcome_bind, outcome_bind, blind state]
  cases first.outcome state with
  | mk result between =>
      cases result with
      | ok value => exact next value between
      | error status => rfl

/-- What is done with the state that is read must not depend on the change. -/
theorem Blind.get_bind
    {next : σ → Step σ α}
    (same : ∀ state, next (view state) = next state)
    (blind : ∀ state, (next state).Blind view) :
    ((get : Step σ σ) >>= next).Blind view := by
  intro state
  have reads : ∀ state, ((get : Step σ σ) >>= next).outcome state = (next state).outcome state :=
    fun _ => rfl
  rw [reads, reads, same]
  exact blind state state

theorem Blind.attempt
    {step : Step σ α}
    (blind : step.Blind view) :
    step.attempt.Blind view := by
  intro state
  rw [outcome_attempt, outcome_attempt, blind state]

theorem Blind.focus
    {part : Step τ α}
    {whole : σ → τ}
    {update : σ → τ → σ}
    {inner : τ → τ}
    (blind : part.Blind inner)
    (viewed : ∀ state, whole (view state) = inner (whole state))
    (updated : ∀ state after, update (view state) (inner after) = view (update state after)) :
    (Step.focus whole update part).Blind view := by
  intro state
  rw [outcome_focus, outcome_focus, viewed, blind, updated]

theorem Blind.forM
    {step : β → Step σ Unit}
    (blind : ∀ item, (step item).Blind view)
    (items : List β) :
    (items.forM step).Blind view := by
  induction items with
  | nil => exact blind_pure _
  | cons item items inductionHypothesis => exact (blind item).bind fun _ => inductionHypothesis

theorem Blind.mapM
    {step : β → Step σ α}
    (blind : ∀ item, (step item).Blind view)
    (items : List β) :
    (items.mapM step).Blind view := by
  induction items with
  | nil => exact blind_pure _
  | cons item items inductionHypothesis =>
      rw [List.mapM_cons]
      exact (blind item).bind fun _ => inductionHypothesis.bind fun _ => blind_pure _

/-- A step that succeeds does so after the change. -/
theorem Blind.succeeds
    {step : Step σ α}
    {before after : σ}
    {value : α}
    (blind : step.Blind view)
    (succeeds : step.Succeeds before value after) :
    step.Succeeds (view before) value (view after) := by
  have same := blind before
  rw [succeeds] at same
  exact same

/-- A step that succeeds after the change does so without it. -/
theorem Blind.exists_succeeds
    {step : Step σ α}
    {before last : σ}
    {value : α}
    (blind : step.Blind view)
    (succeeds : step.Succeeds (view before) value last) :
    ∃ after, step.Succeeds before value after ∧ last = view after := by
  have same := (blind before).symm.trans succeeds
  obtain ⟨result, rfl⟩ := Prod.mk.inj same
  exact ⟨_, Prod.ext result rfl, rfl⟩

theorem blind_drainWith
    {visit : Nat → Step σ (Visit α)}
    {deeper : List Nat → Step σ (List α)}
    (visits : ∀ partition, (visit partition).Blind view)
    (goesDeeper : ∀ partitions, (deeper partitions).Blind view)
    (work : List Nat) :
    (drainWith visit deeper work).Blind view := by
  induction work with
  | nil => exact blind_pure _
  | cons partition rest inductionHypothesis =>
      refine (visits partition).bind fun result => ?_
      have follows : (result.follow deeper).Blind view := by
        cases result with
        | done output => exact blind_pure output
        | split partitions => exact goesDeeper partitions
      exact follows.bind fun _ => inductionHypothesis.bind fun _ => blind_pure _

theorem blind_drain
    {visit : Nat → Step σ (Visit α)}
    (visits : ∀ partition, (visit partition).Blind view)
    (depth : Nat)
    (work : List Nat) :
    (drain visit depth work).Blind view := by
  induction depth generalizing work with
  | zero => exact blind_drainWith visits (fun _ => blind_fail _) work
  | succ depth inductionHypothesis => exact blind_drainWith visits inductionHypothesis work

end Step

/-! ## Ledgers -/

namespace Ledger

/-- The ledger with all peaks forgotten. -/
def forget (ledger : Ledger) : Ledger where
  accounts := ledger.accounts.map fun account => { account with peak := 0 }

/-- The ledger with every peak raised to a mark, if it is lower. -/
def raise (marks : Nat → Nat) (ledger : Ledger) : Ledger where
  accounts := ledger.accounts.mapIdx fun place account =>
    { account with peak := max account.peak (marks place) }

variable (marks : Nat → Nat) (ledger : Ledger)

@[simp] theorem size_forget : ledger.forget.accounts.size = ledger.accounts.size :=
  Array.size_map

theorem account_forget (place : Nat) :
    ledger.forget.account place = { ledger.account place with peak := 0 } := by
  unfold account forget
  rw [Array.getElem?_map]
  cases ledger.accounts[place]? <;> rfl

@[simp] theorem peak_forget (place : Nat) : ledger.forget.peak place = 0 := by
  rw [peak, account_forget]

@[simp] theorem used_forget (place : Nat) : ledger.forget.used place = ledger.used place := by
  rw [used, account_forget]
  rfl

theorem limit_forget (place : Nat) :
    (ledger.forget.account place).limit = (ledger.account place).limit := by
  rw [account_forget]

@[simp] theorem chain_forget (position : Nat) : ledger.forget.chain position = ledger.chain position :=
  chain_congr fun place _ => by rw [account_forget]

/-- Raising the forgotten peaks to what they were recalls them. -/
theorem raise_forget : ledger.forget.raise ledger.peak = ledger := by
  have same : (ledger.forget.raise ledger.peak).accounts = ledger.accounts := by
    refine Array.ext (by simp [raise, forget]) fun place _ known => ?_
    simp [raise, forget, peak, account, Array.getElem?_eq_getElem known]
  cases ledger
  exact congrArg Ledger.mk same

@[simp] theorem size_raise : (ledger.raise marks).accounts.size = ledger.accounts.size :=
  Array.size_mapIdx

theorem account_raise (place : Nat) :
    (ledger.raise marks).account place = { ledger.account place with
      peak := if place < ledger.accounts.size then max (ledger.peak place) (marks place) else 0 } := by
  unfold peak account raise
  rw [Array.getElem?_mapIdx]
  by_cases known : place < ledger.accounts.size
  · simp [known]
  · simp [known]

@[simp] theorem used_raise (place : Nat) : (ledger.raise marks).used place = ledger.used place := by
  rw [used, account_raise]
  rfl

theorem peak_raise
    {place : Nat}
    (known : place < ledger.accounts.size) :
    (ledger.raise marks).peak place = max (ledger.peak place) (marks place) := by
  rw [peak, account_raise]
  exact if_pos known

theorem peak_le_raise (place : Nat) : ledger.peak place ≤ (ledger.raise marks).peak place := by
  by_cases known : place < ledger.accounts.size
  · rw [peak_raise marks ledger known]
    exact Nat.le_max_left _ _
  · rw [peak_eq_zero_of_size_le (Nat.le_of_not_lt known)]
    exact Nat.zero_le _

@[simp] theorem available_raise (place : Nat) :
    (ledger.raise marks).available place = ledger.available place := by
  rw [available, account_raise]
  rfl

@[simp] theorem chain_raise (position : Nat) :
    (ledger.raise marks).chain position = ledger.chain position :=
  chain_congr fun place _ => by rw [account_raise]

theorem fits_raise (position bytes : Nat) :
    (ledger.raise marks).fits position bytes = ledger.fits position bytes := by
  unfold fits
  rw [chain_raise]
  refine congrArg _ (funext fun place => ?_)
  rw [account_raise]
  rfl

/-- A change of one account that leaves higher peaks higher is not affected by raising them before. -/
theorem raise_modify
    {change : Account → Account}
    (commutes : ∀ account mark, change { account with peak := max account.peak mark } =
      { change account with peak := max (change account).peak mark })
    (position : Nat) :
    (ledger.raise marks).modify position change = (ledger.modify position change).raise marks := by
  unfold modify raise
  refine congrArg Ledger.mk (Array.ext (by simp) fun place _ _ => ?_)
  simp only [Array.getElem_modify, Array.getElem_mapIdx]
  split
  · exact commutes _ _
  · rfl

theorem raise_reserve (position bytes : Nat) :
    (ledger.raise marks).reserve position bytes = (ledger.reserve position bytes).raise marks := by
  unfold reserve
  rw [chain_raise]
  generalize ledger.chain position = places
  induction places generalizing ledger with
  | nil => rfl
  | cons place places inductionHypothesis =>
      rw [List.foldl_cons, List.foldl_cons, raise_modify marks ledger fun account mark => ?_,
        inductionHypothesis]
      simp [Account.charge, Account.hold, Nat.max_assoc, Nat.max_comm]

theorem raise_refundAlong (bytes : Nat) (places : List Nat) :
    (ledger.raise marks).refundAlong bytes places = (ledger.refundAlong bytes places).raise marks := by
  induction places generalizing ledger bytes with
  | nil => rfl
  | cons place places inductionHypothesis =>
      have same : ((ledger.raise marks).account place).used = (ledger.account place).used :=
        used_raise marks ledger place
      rw [refundAlong, refundAlong, same, raise_modify marks ledger fun _ _ => rfl, inductionHypothesis]

theorem raise_release (position bytes : Nat) :
    (ledger.raise marks).release position bytes = (ledger.release position bytes).raise marks := by
  unfold release
  rw [chain_raise, raise_refundAlong]

theorem raise_tryReserve (position bytes : Nat) :
    (ledger.raise marks).tryReserve position bytes =
      (ledger.tryReserve position bytes).map id (raise marks) := by
  rw [tryReserve_eq, tryReserve_eq, fits_raise]
  split
  · exact congrArg _ (raise_reserve _ _ _ _)
  · rfl

end Ledger

/-! ## Partitioned input -/

namespace Partitioned

/-- The input with every peak raised to a mark, if it is lower. -/
def raise (marks : Nat → Nat) (input : Partitioned) : Partitioned :=
  { input with ledger := input.ledger.raise marks }

/-- The input with all peaks forgotten. -/
def forget (input : Partitioned) : Partitioned :=
  { input with ledger := input.ledger.forget }

variable {marks : Nat → Nat} {partition : Nat}

theorem blind_onArena (step : Arena → Except ArenaFault (α × Arena)) :
    (onArena step).Blind (raise marks) := by
  intro input
  have same : (input.raise marks).arena = input.arena := rfl
  unfold onArena outcome ExceptT.run StateT.run
  beta_reduce
  rw [same]
  cases step input.arena <;> rfl

theorem blind_record : (Partitioned.record partition).Blind (raise marks) :=
  blind_onArena _

theorem blind_checkCancelled : checkCancelled.Blind (raise marks) := by
  refine .get_bind (fun _ => rfl) fun input => ?_
  split
  · exact blind_fail _
  · exact blind_pure _

theorem blind_setState (state : PartitionState) : (setState partition state).Blind (raise marks) :=
  blind_modify fun _ => rfl

theorem blind_onBuild (step : Step Holding α) : (onBuild partition step).Blind (raise marks) :=
  blind_record.bind fun _ _ => rfl

theorem blind_onProbe
    {absent : Step Partitioned α}
    (blind : absent.Blind (raise marks))
    (step : Step Holding α) :
    (onProbe partition absent step).Blind (raise marks) := by
  refine blind_record.bind fun record => ?_
  cases record.probe with
  | none => exact blind
  | some probe => exact fun _ => rfl

theorem blind_releaseBytes (bytes : Nat) : (releaseBytes bytes).Blind (raise marks) :=
  blind_modify fun input => congrArg (fun ledger => { input with ledger })
    (Ledger.raise_release marks input.ledger input.account bytes)

theorem blind_chargeBytes (bytes : Nat) : (chargeBytes bytes).Blind (raise marks) :=
  blind_modify fun input => congrArg (fun ledger => { input with ledger })
    (Ledger.raise_reserve marks input.ledger input.account bytes)

theorem blind_tryCharge (bytes : Nat) : (tryCharge bytes).Blind (raise marks) := by
  intro input
  have reserves : (input.raise marks).ledger.tryReserve (input.raise marks).account bytes =
      (input.ledger.tryReserve input.account bytes).map id (Ledger.raise marks) :=
    Ledger.raise_tryReserve marks input.ledger input.account bytes
  unfold tryCharge outcome ExceptT.run StateT.run
  beta_reduce
  rw [reserves]
  rfl

theorem blind_spillPartition : (spillPartition partition).Blind (raise marks) := by
  refine blind_record.bind fun before => ?_
  split
  · exact blind_pure _
  · refine (blind_onBuild _).bind fun freed => (blind_releaseBytes freed).bind fun _ =>
      (blind_modify fun _ => ?_).bind fun _ => blind_pure _
    rfl

theorem blind_spillLargest : spillLargest.Blind (raise marks) := by
  refine .get_bind (fun _ => rfl) fun input => ?_
  split
  · exact blind_spillPartition.bind fun _ => blind_pure _
  · exact blind_pure _

theorem blind_appendCharged (bytes : Nat) (chunk : Chunk) :
    (appendCharged partition bytes chunk).Blind (raise marks) := by
  refine (blind_onBuild _).attempt.bind fun result => ?_
  cases result with
  | ok _ => exact blind_pure _
  | error status => exact (blind_releaseBytes bytes).bind fun _ => blind_fail status

theorem blind_appendBuild (chunk : Chunk) : (appendBuild partition chunk).Blind (raise marks) := by
  refine blind_record.bind fun target => ?_
  split
  · exact blind_onBuild _
  refine (blind_tryCharge _).bind fun fits => ?_
  split
  · exact blind_appendCharged _ _
  refine blind_spillLargest.bind fun _ => blind_record.bind fun target => ?_
  split
  · exact blind_onBuild _
  refine (blind_tryCharge _).bind fun fits => ?_
  split
  · exact blind_appendCharged _ _
  · exact blind_spillPartition.bind fun _ => blind_onBuild _

theorem blind_appendProbe (chunk : Chunk) : (appendProbe partition chunk).Blind (raise marks) :=
  .get_bind (fun _ => rfl) fun _ => blind_onProbe (blind_fail _) _

section Dealing

variable {append : Nat → Chunk → Step Partitioned Unit}
  (appends : ∀ partition chunk, (append partition chunk).Blind (raise marks))
include appends

theorem blind_deal (parts : List (Nat × Option Chunk)) : (deal append parts).Blind (raise marks) := by
  induction parts with
  | nil => exact blind_pure _
  | cons first rest inductionHypothesis =>
      obtain ⟨partition, _ | part⟩ := first
      · exact inductionHypothesis
      · exact (appends partition part).bind fun _ => inductionHypothesis

theorem blind_route
    (directory : Directory)
    (key : String)
    (partitions : List Nat)
    (chunk : Chunk) :
    (route append directory key partitions chunk).Blind (raise marks) :=
  (blind_ofExcept _).bind fun _ => blind_deal appends _

end Dealing

theorem blind_addBuildChunk (chunk : Chunk) : (addBuildChunk chunk).Blind (raise marks) :=
  blind_checkCancelled.bind fun _ => .get_bind (fun _ => rfl) fun _ =>
    blind_route (fun _ => blind_appendBuild) _ _ _ _

theorem blind_needsRepartition : (needsRepartition partition).Blind (raise marks) := by
  refine blind_record.bind fun record => .get_bind (fun input => ?_) fun _ => blind_pure _
  simp only [raise, Ledger.available_raise]

theorem blind_addChildren (parent level : Nat) (buckets : List Nat) :
    (addChildren parent level buckets).Blind (raise marks) := by
  induction buckets with
  | nil => exact blind_pure _
  | cons bucket rest inductionHypothesis =>
      exact .get_bind (fun _ => rfl) fun _ => (blind_onArena _).bind fun _ =>
        inductionHypothesis.bind fun _ => blind_pure _

theorem blind_streamBlocks
    {restore : Nat → Step Partitioned (List Chunk)}
    {accept : Chunk → Step Partitioned Unit}
    (restores : ∀ block, (restore block).Blind (raise marks))
    (accepts : ∀ chunk, (accept chunk).Blind (raise marks))
    (blocks : List Nat) :
    (streamBlocks restore accept blocks).Blind (raise marks) := by
  induction blocks with
  | nil => exact blind_pure _
  | cons block rest inductionHypothesis =>
      exact blind_checkCancelled.bind fun _ => (restores block).bind fun chunks =>
        (Blind.forM accepts chunks).bind fun _ => inductionHypothesis

theorem blind_probeBlocks : (probeBlocks partition).Blind (raise marks) :=
  blind_record.bind fun _ => blind_pure _

theorem blind_restoreProbeBlock (block : Nat) :
    (restoreProbeBlock partition block).Blind (raise marks) :=
  blind_onProbe (blind_pure _) _

theorem blind_releaseProbe : (releaseProbe partition).Blind (raise marks) :=
  blind_onProbe (blind_pure _) _

theorem blind_keepNonEmpty (children : List Nat) : (keepNonEmpty children).Blind (raise marks) := by
  induction children with
  | nil => exact blind_pure _
  | cons child rest inductionHypothesis =>
      refine blind_record.bind fun record => ?_
      split
      · exact (blind_setState _).bind fun _ => blind_releaseProbe.bind fun _ => inductionHypothesis
      · exact inductionHypothesis.bind fun _ => blind_pure _

theorem blind_repartition : (repartition partition).Blind (raise marks) := by
  refine blind_record.bind fun before => .get_bind (fun _ => rfl) fun input => ?_
  dsimp only
  split
  · exact blind_fail_bind _ _
  refine (blind_setState _).bind fun _ => (blind_addChildren _ _ _).bind fun children => ?_
  refine blind_record.bind fun record => (blind_streamBlocks (fun _ => blind_onBuild _)
    (blind_route (fun _ => blind_appendBuild) _ _ _) _).bind fun _ => ?_
  have giveUp : (do
      onBuild partition Partition.release
      releaseProbe partition
      setState partition .repartitioned
      modify fun input => { input with repartitions := input.repartitions + 1 }
      keepNonEmpty children : Step Partitioned (List Nat)).Blind (raise marks) := by
    refine (blind_onBuild _).bind fun _ => blind_releaseProbe.bind fun _ =>
      (blind_setState _).bind fun _ => (blind_modify fun _ => ?_).bind fun _ =>
      blind_keepNonEmpty children
    rfl
  split
  · exact giveUp
  · refine blind_probeBlocks.bind fun _ => ?_
    exact (blind_streamBlocks blind_restoreProbeBlock
      (blind_route (fun _ => blind_appendProbe) _ _ _) _).bind fun _ => giveUp

theorem blind_processingOrder (children : List Nat) :
    (processingOrder children).Blind (raise marks) :=
  .get_bind (fun _ => rfl) fun _ => blind_pure _

theorem blind_loadBuild : (loadBuild partition).Blind (raise marks) := by
  refine (blind_setState _).bind fun _ => blind_record.bind fun loading => ?_
  split
  · exact blind_pure _
  · refine (blind_onBuild _).bind fun _ => (blind_chargeBytes _).bind fun _ =>
      (blind_modify fun _ => ?_).bind fun _ => blind_pure _
    rfl

theorem blind_complete : (complete partition).Blind (raise marks) := by
  refine blind_record.bind fun record => (blind_onBuild _).bind fun _ =>
    blind_releaseProbe.bind fun _ => (blind_setState _).bind fun _ =>
    (blind_releaseBytes _).bind fun _ => .get_bind (fun _ => rfl) fun input => ?_
  split
  · exact blind_pure _
  · refine (blind_modify fun _ => ?_).bind fun _ => blind_releaseBytes _
    rfl

end Partitioned

/-! ## Requests -/

namespace Aggregation

/-- The aggregation with every peak raised to a mark, if it is lower. -/
def raise (marks : Nat → Nat) (aggregation : Aggregation) : Aggregation :=
  { aggregation with input := aggregation.input.raise marks }

/-- The aggregation with all peaks forgotten. -/
def forget (aggregation : Aggregation) : Aggregation :=
  { aggregation with input := aggregation.input.forget }

/-- The most that an account holds after a charge while a step is carried out. -/
def highest
    (aggregation : Aggregation)
    (step : Step Aggregation α)
    (place : Nat) : Nat :=
  (step.outcome aggregation.forget).2.input.ledger.peak place

theorem blind_onInput
    {step : Step Partitioned α}
    {marks : Nat → Nat}
    (blind : step.Blind (Partitioned.raise marks)) :
    (onInput step).Blind (raise marks) :=
  blind.focus (fun _ => rfl) fun _ _ => rfl

theorem blind_addChunk
    {marks : Nat → Nat}
    (chunk : Chunk) :
    (addChunk chunk).Blind (raise marks) :=
  blind_onInput (Partitioned.blind_addBuildChunk chunk)

/-- Raising the forgotten peaks to what they were recalls them. -/
theorem raise_forget (aggregation : Aggregation) :
    aggregation.forget.raise aggregation.input.ledger.peak = aggregation :=
  congrArg (fun ledger => { aggregation with input := { aggregation.input with ledger } })
    (Ledger.raise_forget aggregation.input.ledger)

/-- A step does the same from forgotten peaks, and each peak becomes what it was or what was the most. -/
theorem outcome_of_blind
    {step : Step Aggregation α}
    {aggregation : Aggregation}
    (blind : ∀ marks, step.Blind (raise marks)) :
    step.outcome aggregation = ((step.outcome aggregation.forget).1,
      (step.outcome aggregation.forget).2.raise aggregation.input.ledger.peak) := by
  have same := blind aggregation.input.ledger.peak aggregation.forget
  rwa [raise_forget] at same

end Aggregation

namespace Join

/-- The join with every peak raised to a mark, if it is lower. -/
def raise (marks : Nat → Nat) (join : Join) : Join :=
  { join with input := join.input.raise marks }

/-- The join with all peaks forgotten. -/
def forget (join : Join) : Join :=
  { join with input := join.input.forget }

/-- The most that an account holds after a charge while a step is carried out. -/
def highest
    (join : Join)
    (step : Step Join α)
    (place : Nat) : Nat :=
  (step.outcome join.forget).2.input.ledger.peak place

variable {marks : Nat → Nat} {partition : Nat}

theorem blind_onInput
    {step : Step Partitioned α}
    (blind : step.Blind (Partitioned.raise marks)) :
    (onInput step).Blind (raise marks) :=
  blind.focus (fun _ => rfl) fun _ _ => rfl

theorem blind_insertKeys
    (cells : List Cell)
    (done filters : List KeyFilter) :
    (insertKeys cells done filters).Blind (raise marks) := by
  induction filters generalizing done with
  | nil => exact blind_modify fun _ => rfl
  | cons filter rest inductionHypothesis =>
      rw [insertKeys]
      split
      · exact inductionHypothesis _
      · refine (blind_modify fun _ => ?_).bind fun _ => blind_fail _
        rfl

theorem blind_addBuildChunk (chunk : Chunk) : (addBuildChunk chunk).Blind (raise marks) := by
  refine .get_bind (fun _ => rfl) fun join => ?_
  dsimp only
  split
  · exact blind_fail_bind _ _
  refine (blind_ofExcept _).bind fun chunk => ?_
  have accepts : (onInput (Partitioned.addBuildChunk chunk)).Blind (raise marks) :=
    blind_onInput (Partitioned.blind_addBuildChunk chunk)
  split
  · exact blind_pure _
  split
  · exact accepts
  · exact (blind_ofExcept _).bind fun cells => (blind_insertKeys cells [] _).bind fun _ => accepts

theorem blind_joinWith (table : JoinTable) (chunk : Chunk) :
    (joinWith table chunk).Blind (raise marks) :=
  .get_bind (fun _ => rfl) fun _ => (blind_ofExcept _).bind fun _ => blind_pure _

theorem blind_joinBlocks
    (table : JoinTable)
    (blocks : List Nat) :
    (joinBlocks partition table blocks).Blind (raise marks) := by
  induction blocks with
  | nil => exact blind_pure _
  | cons block rest inductionHypothesis =>
      exact (blind_onInput Partitioned.blind_checkCancelled).bind fun _ =>
        (blind_onInput (Partitioned.blind_restoreProbeBlock block)).bind fun _ =>
          (Blind.mapM (blind_joinWith table) _).bind fun _ =>
            inductionHypothesis.bind fun _ => blind_pure _

theorem blind_joinPartition : (joinPartition partition).Blind (raise marks) :=
  (blind_onInput Partitioned.blind_loadBuild).bind fun _ => .get_bind (fun _ => rfl) fun _ =>
    (blind_ofExcept _).bind fun table => (blind_onInput Partitioned.blind_probeBlocks).bind fun _ =>
      (blind_joinBlocks table _).bind fun _ =>
        (blind_onInput Partitioned.blind_complete).bind fun _ => blind_pure _

theorem blind_visit (partition : Nat) : (visit partition).Blind (raise marks) := by
  refine (blind_onInput Partitioned.blind_checkCancelled).bind fun _ =>
    (blind_onInput Partitioned.blind_record).bind fun record => ?_
  split
  · exact blind_pure _
  split
  · exact (blind_onInput Partitioned.blind_complete).bind fun _ => blind_pure _
  refine (blind_onInput Partitioned.blind_needsRepartition).bind fun needed => ?_
  split
  · exact (blind_onInput Partitioned.blind_repartition).bind fun children =>
      (blind_onInput (Partitioned.blind_processingOrder children)).bind fun _ => blind_pure _
  · exact blind_joinPartition.bind fun _ => blind_pure _

theorem blind_completeTables (partitions : List Nat) :
    (completeTables partitions).Blind (raise marks) := by
  induction partitions with
  | nil => exact blind_pure _
  | cons partition rest inductionHypothesis =>
      refine (blind_modify fun _ => ?_).bind fun _ =>
        (blind_onInput Partitioned.blind_complete).bind fun _ => inductionHypothesis
      rfl

theorem blind_finishProbe : finishProbe.Blind (raise marks) := by
  refine .get_bind (fun _ => rfl) fun join => ?_
  dsimp only
  split
  · exact blind_fail_bind _ _
  · refine (blind_completeTables _).bind fun _ => (blind_drain blind_visit _ _).bind fun output =>
      (blind_modify fun _ => ?_).bind fun _ => (blind_modify fun _ => ?_).bind fun _ => blind_pure _
    · rfl
    · rfl

/-- Raising the forgotten peaks to what they were recalls them. -/
theorem raise_forget (join : Join) : join.forget.raise join.input.ledger.peak = join :=
  congrArg (fun ledger => { join with input := { join.input with ledger } })
    (Ledger.raise_forget join.input.ledger)

/-- A step does the same from forgotten peaks, and each peak becomes what it was or what was the most. -/
theorem outcome_of_blind
    {step : Step Join α}
    {join : Join}
    (blind : ∀ marks, step.Blind (raise marks)) :
    step.outcome join = ((step.outcome join.forget).1,
      (step.outcome join.forget).2.raise join.input.ledger.peak) := by
  have same := blind join.input.ledger.peak join.forget
  rwa [raise_forget] at same

end Join
end Spillway
