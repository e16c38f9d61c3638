import Spillway.Proofs.Operator.Accounting
import Spillway.Proofs.Partition.Scattering

/-!
# Charging and giving back

Every step of partitioned input leaves it accounted for with the bytes in hand that it began with,
whether it succeeds or fails, by whatever law stays true of what is charged and given back. Bytes are
charged before the rows are in place, and given back after they have left, so the steps are followed to
the point where one of them is cut off. Only a partition that is loaded is charged for even if it does not
fit.
-/

namespace Spillway
namespace Partitioned

open Step Spillway.Partition

variable {law : Ledger → Nat → Nat → Prop} {others : Nat → Nat} {stored : List Nat} {inHand bytes : Nat}
  {input : Partitioned} {partition : Nat} {record : PartitionRecord} {α : Type}

/-! ## Steps that charge nothing -/

theorem keeps_record
    {Invariant : Partitioned → Prop} :
    (Partitioned.record partition).Keeps Invariant :=
  fun _ invariant => ends_record (fun _ _ => invariant) fun _ => invariant

theorem keeps_checkCancelled {Invariant : Partitioned → Prop} : checkCancelled.Keeps Invariant := by
  refine keeps_get.bind fun input => ?_
  split
  · exact keeps_fail _
  · exact keeps_pure _

/-- A step that moves no bytes of the build side. -/
theorem keeps_onBuild
    {step : Step Holding α}
    (keeps : ∀ partition : Partition, step.Keeps fun holding => partition.Rests holding.partition)
    (partition : Nat) :
    (onBuild partition step).Keeps (AccountedBy law stored inHand) := by
  refine fun input accounted => ends_onBuild_of (fun record found => ?_) fun _ => accounted
  exact (keeps record.build ⟨record.build, input.area⟩ (Rests.refl _)).mono
    (fun _ _ => accounted.rest found) fun _ _ => accounted.rest found

/-- The probe side has no part in the account. -/
theorem keeps_onProbe
    {absent : Step Partitioned α}
    (keeps : absent.Keeps (AccountedBy law stored inHand))
    (step : Step Holding α) :
    (onProbe partition absent step).Keeps (AccountedBy law stored inHand) := by
  refine fun input accounted =>
    ends_onProbe_of (keeps input accounted) (fun _ _ found _ => ?_) fun _ => accounted
  exact .of_forall (fun _ => accounted.reprobe found) fun _ => accounted.reprobe found

/-- A partition that accepts no more rows stays accounted for. -/
theorem AccountedBy.setState
    {state : PartitionState}
    (accounted : input.AccountedBy law stored inHand)
    (closed : state ≠ .opened)
    (partition : Nat) :
    { input with
      arena := input.arena.modify partition fun record =>
        { record with state } }.AccountedBy law stored inHand := by
  cases found : input.arena.records[partition]? with
  | some record => exact accounted.retouch found rfl (fun opened => absurd opened closed) input.area
  | none =>
      refine accounted.transfer rfl rfl (congrArg Arena.mk (Array.ext_getElem? fun other => ?_)) rfl
      rw [Array.getElem?_modify]
      split
      case isTrue same =>
          subst same
          rw [found]
          rfl
      case isFalse => rfl

theorem keeps_setState
    {state : PartitionState}
    (closed : state ≠ .opened) :
    (setState partition state).Keeps (AccountedBy law stored inHand) :=
  keeps_modify fun _ accounted => accounted.setState closed partition

theorem keeps_restoreBuildBlock
    (block : Nat) :
    (restoreBuildBlock partition block).Keeps (AccountedBy law stored inHand) :=
  keeps_onBuild (fun before => keeps_restoreBlock before block) partition

theorem keeps_restoreProbeBlock
    (block : Nat) :
    (restoreProbeBlock partition block).Keeps (AccountedBy law stored inHand) :=
  keeps_onProbe (keeps_pure _) _

theorem keeps_appendProbe
    (chunk : Chunk) :
    (appendProbe partition chunk).Keeps (AccountedBy law stored inHand) :=
  keeps_get.bind fun _ => keeps_onProbe (keeps_fail _) _

theorem keeps_releaseProbe : (releaseProbe partition).Keeps (AccountedBy law stored inHand) :=
  keeps_onProbe (keeps_pure _) _

theorem keeps_probeBlocks : (probeBlocks partition).Keeps (AccountedBy law stored inHand) :=
  keeps_record.bind fun _ => keeps_pure _

theorem keeps_keepNonEmpty
    (children : List Nat) :
    (keepNonEmpty children).Keeps (AccountedBy law stored inHand) := by
  induction children with
  | nil => exact keeps_pure _
  | cons child rest inductionHypothesis =>
      refine keeps_record.bind fun record => ?_
      split
      · exact (keeps_setState (by decide)).bind fun _ => keeps_releaseProbe.bind fun _ =>
          inductionHypothesis
      · exact inductionHypothesis.bind fun _ => keeps_pure _

theorem AccountedBy.add
    {arena : Arena}
    {child : Nat}
    (accounted : input.AccountedBy law stored inHand)
    (added : input.arena.add record = .ok (child, arena))
    (empty : record.build.memoryBytes = 0) :
    { input with arena }.AccountedBy law stored inHand := by
  cases place : record.parent with
  | none =>
      simp only [Arena.add, place] at added
      split at added
      · obtain ⟨_, thrown, _⟩ := bind_eq_ok_iff.mp added
        exact absurd thrown throw_ne_ok
      · cases added
        exact accounted.push empty
  | some parent =>
      simp only [Arena.add, place] at added
      split at added
      · obtain ⟨_, thrown, _⟩ := bind_eq_ok_iff.mp added
        exact absurd thrown throw_ne_ok
      obtain ⟨above, read, added⟩ := bind_eq_ok_iff.mp added
      split at added
      · obtain ⟨_, thrown, _⟩ := bind_eq_ok_iff.mp added
        exact absurd thrown throw_ne_ok
      cases added
      unfold Arena.record at read
      split at read
      case h_1 _ found =>
          cases read
          have linked : { input with
              arena := input.arena.modify parent fun above =>
                { above with children := above.children ++ [input.arena.size] } }.AccountedBy law
                  stored inHand :=
            accounted.retouch found rfl id input.area
          exact linked.push empty
      case h_2 => cases read

theorem keeps_addChildren
    (parent level : Nat)
    (buckets : List Nat) :
    (addChildren parent level buckets).Keeps (AccountedBy law stored inHand) := by
  induction buckets with
  | nil => exact keeps_pure _
  | cons bucket rest inductionHypothesis =>
      intro input accounted
      refine (ends_bind _ _).mpr (ends_get.mpr ((ends_bind _ _).mpr ?_))
      refine ends_onArena (fun child arena added => ?_) fun _ => accounted
      exact (inductionHypothesis.bind fun _ => keeps_pure _) _ (accounted.add added rfl)

/-- Giving up the probe side of a partition that exists cannot fail. -/
theorem ends_releaseProbe
    (accounted : input.AccountedBy law stored inHand)
    (found : input.arena.records[partition]? = some record) :
    (releaseProbe partition).Ends input (fun _ => AccountedBy law stored inHand)
      fun _ _ => False := by
  unfold releaseProbe
  rw [ends_onProbe found]
  cases record.probe with
  | none => exact accounted
  | some probe =>
      exact ends_release.mono (fun _ holding _ => accounted.reprobe found holding) fun _ _ => False.elim

/-- Releasing a spilled partition frees no memory. -/
theorem keeps_release_stored :
    (onBuild partition Partition.release).Keeps (AccountedBy law (partition :: stored) inHand) := by
  intro input accounted
  obtain ⟨record, found, spilled⟩ := accounted.stored partition List.mem_cons_self
  rw [ends_onBuild found]
  refine ends_release.mono (fun _ holding released => ?_) fun _ _ => False.elim
  obtain ⟨still, empty⟩ := released
  refine accounted.settle found ⟨fun _ => still.trans spilled, fun _ => empty, ?_⟩
  rw [empty, accounted.unloaded found spilled]

/-! ## Appending to build sides -/

/-- What is appended to a spilled partition needs no charge. -/
theorem ends_append_stored
    (accounted : input.AccountedBy law (partition :: stored) inHand)
    (chunk : Chunk) :
    (onBuild partition (append chunk)).Ends input
      (fun _ => AccountedBy law (partition :: stored) inHand)
      fun _ => AccountedBy law (partition :: stored) inHand := by
  obtain ⟨record, found, spilled⟩ := accounted.stored partition List.mem_cons_self
  rw [ends_onBuild found]
  exact (ends_append_of_spilled spilled chunk).mono (fun _ _ => accounted.rest found)
    fun _ _ => accounted.rest found

/-- Charged bytes are taken by the rows that they were charged for, which cannot fail. -/
theorem ends_appendCharged
    {chunk : Chunk}
    (accounted : input.AccountedBy law stored (inHand + chunk.logicalBytes))
    (found : input.arena.records[partition]? = some record)
    (inMemory : record.build.spilled = false)
    (rows : chunk.isEmpty = false) :
    (appendCharged partition chunk.logicalBytes chunk).Ends input
      (fun _ => AccountedBy law stored inHand)
      fun _ => AccountedBy law stored inHand := by
  unfold appendCharged
  rw [ends_bind, ends_attempt, ends_onBuild found]
  refine (ends_append_in_memory inMemory rows).mono (fun _ holding appended => ?_) fun _ _ => False.elim
  obtain ⟨still, grown⟩ := appended
  refine accounted.settle found ⟨fun spilled => ?_, fun spilled => ?_, ?_⟩
  · exact absurd spilled (by simp [inMemory])
  · exact absurd spilled (by simp [still])
  · dsimp only at grown
    omega

variable [Ledger.Lasting law]


/-- A charge ends as its reservation does, and changes nothing where that is refused. -/
theorem ends_tryCharge_of
    {met : Bool → Partitioned → Prop}
    {failed : Status → Partitioned → Prop}
    (granted : ∀ ledger, input.ledger.reserve? input.account bytes = some ledger →
      met true { input with ledger })
    (refused : input.ledger.reserve? input.account bytes = none → met false input) :
    (tryCharge bytes).Ends input met failed := by
  unfold Ends tryCharge outcome
  simp only [ExceptT.run, StateT.run]
  rw [Ledger.tryReserve_eq_reserve?]
  cases reserved : input.ledger.reserve? input.account bytes with
  | none => exact refused reserved
  | some ledger => exact granted ledger reserved

/-- A reservation that is refused changes nothing. -/
theorem ends_tryCharge
    (accounted : input.AccountedBy law stored inHand) :
    (tryCharge bytes).Ends input
      (fun charged after => after.arena = input.arena ∧
        after.AccountedBy law stored (inHand + if charged then bytes else 0))
      fun _ _ => False :=
  ends_tryCharge_of (fun _ granted => ⟨rfl, accounted.reserve? granted⟩) fun _ => ⟨rfl, accounted⟩

/-- What spilling a partition frees is given back, and a partition that could not be spilled keeps its
bytes. -/
theorem ends_spillPartition
    (accounted : input.AccountedBy law stored inHand) :
    (spillPartition partition).Ends input
      (fun _ => AccountedBy law (partition :: stored) inHand)
      fun _ => AccountedBy law stored inHand := by
  refine (ends_bind _ _).mpr (ends_record (fun record found => ?_) fun _ => accounted)
  rw [ends_ite]
  refine ⟨accounted.store found, fun inMemory => ?_⟩
  rw [Bool.not_eq_true] at inMemory
  rw [ends_bind, ends_onBuild found]
  refine (ends_spill inMemory).mono (fun freed holding spills => ?_) fun _ _ => accounted.rest found
  obtain ⟨spilled, unloaded, rfl⟩ := spills
  have settles : record.build.Settles inHand holding.partition (inHand + record.build.memoryBytes) :=
    ⟨fun _ => spilled, fun _ => unloaded, by omega⟩
  have settled := (accounted.settle found settles).store (getElem?_withBuild found holding) spilled
  exact settled.release.transfer rfl rfl rfl rfl

theorem keeps_spillPartition :
    (spillPartition partition).Keeps (AccountedBy law stored inHand) :=
  fun _ accounted => (ends_spillPartition accounted).mono (fun _ _ after => after.unstore) fun _ _ => id

theorem keeps_spillLargest : spillLargest.Keeps (AccountedBy law stored inHand) := by
  refine keeps_get.bind fun input => ?_
  split
  · exact keeps_spillPartition.bind fun _ => keeps_pure _
  · exact keeps_pure _

/-- Rows for a partition in memory are appended there if they can be charged. -/
theorem ends_append_charged
    {chunk : Chunk}
    {refused : Step Partitioned Unit}
    (accounted : input.AccountedBy law stored inHand)
    (found : input.arena.records[partition]? = some record)
    (inMemory : record.build.spilled = false)
    (rows : chunk.isEmpty = false)
    (keeps : refused.Keeps (AccountedBy law stored inHand)) :
    (do
      if ← tryCharge chunk.logicalBytes then appendCharged partition chunk.logicalBytes chunk
      else refused : Step Partitioned Unit).Ends input
        (fun _ => AccountedBy law stored inHand)
        fun _ => AccountedBy law stored inHand := by
  rw [ends_bind]
  refine (ends_tryCharge accounted).mono (fun charged after tried => ?_) fun _ _ => False.elim
  obtain ⟨sameArena, accounted⟩ := tried
  rw [← sameArena] at found
  cases charged with
  | true => exact ends_appendCharged accounted found inMemory rows
  | false => exact keeps after accounted

/-- Rows are charged to the account or go to the store. -/
theorem keeps_appendBuild
    {chunk : Chunk}
    (rows : chunk.isEmpty = false) :
    (appendBuild partition chunk).Keeps (AccountedBy law stored inHand) := by
  intro input accounted
  have append : ∀ {input : Partitioned}, input.AccountedBy law (partition :: stored) inHand →
      (onBuild partition (append chunk)).Ends input (fun _ => AccountedBy law stored inHand)
        fun _ => AccountedBy law stored inHand :=
    fun accounted => (ends_append_stored accounted chunk).mono (fun _ _ after => after.unstore)
      fun _ _ after => after.unstore
  refine (ends_bind _ _).mpr (ends_record (fun record found => ?_) fun _ => accounted)
  rw [ends_ite]
  refine ⟨fun spilled => append (accounted.store found spilled), fun inMemory => ?_⟩
  refine ends_append_charged accounted found (Bool.not_eq_true _ ▸ inMemory) rows ?_
  -- The partition that was spilled to make room may be the one at hand, so its record is read again.
  refine keeps_spillLargest.bind fun _ between accounted => ?_
  refine (ends_bind _ _).mpr (ends_record (fun record found => ?_) fun _ => accounted)
  rw [ends_ite]
  refine ⟨fun spilled => append (accounted.store found spilled), fun inMemory => ?_⟩
  refine ends_append_charged accounted found (Bool.not_eq_true _ ▸ inMemory) rows ?_
  intro between accounted
  rw [ends_bind]
  exact (ends_spillPartition accounted).mono (fun _ _ => append) fun _ _ after => after

/-! ## Dealing out chunks -/

theorem keeps_deal
    {append : Nat → Chunk → Step Partitioned Unit}
    {Invariant : Partitioned → Prop}
    (parts : List (Nat × Option Chunk))
    (keeps : ∀ partition part, (partition, some part) ∈ parts →
      (append partition part).Keeps Invariant) :
    (deal append parts).Keeps Invariant := by
  induction parts with
  | nil => exact keeps_pure _
  | cons first rest inductionHypothesis =>
      have later := inductionHypothesis fun partition part member =>
        keeps partition part (List.mem_cons_of_mem first member)
      obtain ⟨partition, _ | part⟩ := first
      · exact later
      · exact (keeps partition part List.mem_cons_self).bind fun _ => later

theorem keeps_route
    {append : Nat → Chunk → Step Partitioned Unit}
    {Invariant : Partitioned → Prop}
    (keeps : ∀ partition part, part.isEmpty = false → (append partition part).Keeps Invariant)
    (directory : Directory)
    (key : String)
    (partitions : List Nat)
    (chunk : Chunk) :
    (route append directory key partitions chunk).Keeps Invariant := by
  intro input invariant
  unfold route
  rw [ends_bind, ends_ofExcept]
  refine ⟨fun parts split => ?_, fun _ _ => invariant⟩
  refine keeps_deal _ (fun partition part member => ?_) input invariant
  exact keeps partition part ((Directory.deals_of_split split).isEmpty_eq_false (List.of_mem_zip member).2)

theorem keeps_addBuildChunk
    (chunk : Chunk) :
    (addBuildChunk chunk).Keeps (AccountedBy law stored inHand) :=
  keeps_checkCancelled.bind fun _ => keeps_get.bind fun _ =>
    keeps_route (fun _ _ => keeps_appendBuild) _ _ _ _

/-! ## Splitting partitions -/

theorem keeps_streamBlocks
    {restore : Nat → Step Partitioned (List Chunk)}
    {accept : Chunk → Step Partitioned Unit}
    {Invariant : Partitioned → Prop}
    (restores : ∀ block, (restore block).Keeps Invariant)
    (accepts : ∀ chunk, (accept chunk).Keeps Invariant)
    (blocks : List Nat) :
    (streamBlocks restore accept blocks).Keeps Invariant := by
  induction blocks with
  | nil => exact keeps_pure _
  | cons block rest inductionHypothesis =>
      exact keeps_checkCancelled.bind fun _ => (restores block).bind fun chunks =>
        (Keeps.forM fun chunk _ => accepts chunk).bind fun _ => inductionHypothesis

/-- Splitting a spilled partition charges its children for what they keep in memory. -/
theorem keeps_repartition :
    (repartition partition).Keeps (AccountedBy law (partition :: stored) inHand) := by
  refine keeps_record.bind fun before => keeps_get.bind fun input => ?_
  dsimp only
  split
  · exact keeps_fail_bind _ _
  refine (keeps_setState (by decide)).bind fun _ => ?_
  refine (keeps_addChildren _ _ _).bind fun children => keeps_record.bind fun record => ?_
  refine (keeps_streamBlocks keeps_restoreBuildBlock
    (keeps_route (fun _ _ => keeps_appendBuild) _ _ children) _).bind fun _ => ?_
  have giveUp : (do
      onBuild partition Partition.release
      releaseProbe partition
      setState partition .repartitioned
      modify fun input => { input with repartitions := input.repartitions + 1 }
      keepNonEmpty children : Step Partitioned (List Nat)).Keeps
        (AccountedBy law (partition :: stored) inHand) := by
    refine keeps_release_stored.bind fun _ => keeps_releaseProbe.bind fun _ => ?_
    refine (keeps_setState (by decide)).bind fun _ => ?_
    refine (keeps_modify fun _ accounted => ?_).bind fun _ => keeps_keepNonEmpty children
    exact accounted.transfer rfl rfl rfl rfl
  split
  · exact giveUp
  · refine keeps_probeBlocks.bind fun _ => ?_
    exact (keeps_streamBlocks keeps_restoreProbeBlock
      (keeps_route (fun _ part _ => keeps_appendProbe part) _ _ children) _).bind fun _ => giveUp

/-! ## Loading and completing partitions -/

/-- A spilled partition that was not loaded before is charged until it is completed. -/
theorem ends_loadBuild
    (accounted : input.Accounted others stored inHand)
    (found : input.arena.records[partition]? = some record)
    (fresh : record.build.spilled → record.state = .opened) :
    (loadBuild partition).Ends input (fun _ => Accounted others stored inHand)
      fun _ => Accounted others stored inHand := by
  have closed := accounted.setState (show PartitionState.pinned ≠ .opened by decide) partition
  obtain ⟨loading, there, build, pinned⟩ : ∃ loading : PartitionRecord,
      (input.arena.modify partition fun record =>
        { record with state := .pinned }).records[partition]? = some loading ∧
        loading.build = record.build ∧ loading.state = .pinned :=
    ⟨{ record with state := .pinned },
      by simp [Arena.modify, Array.getElem?_modify, found], rfl, rfl⟩
  unfold loadBuild
  refine (ends_bind _ _).mpr ((ends_modify _).mpr ?_)
  refine (ends_bind _ _).mpr ((ends_record_of there).mpr ?_)
  rw [ends_ite]
  refine ⟨fun _ => closed, fun spilled => ?_⟩
  rw [not_not] at spilled
  rw [ends_bind, ends_onBuild there]
  refine (keeps_reload loading.build ⟨loading.build, input.area⟩ (Rests.refl _)).mono
    (fun chunks holding rests => ?_) fun _ _ => closed.rest there
  -- A pin that was noted before would be overwritten, and its bytes charged for good.
  have unpinned : partition ∉ input.pinned.map Prod.fst := by
    intro member
    obtain ⟨other, same, state⟩ := accounted.pinned partition member
    rw [found, Option.some.injEq] at same
    subst same
    exact state (fresh (build ▸ spilled))
  exact (Accounted.reserve (closed.rest there rests) _).pin (getElem?_withBuild there holding)
    (by simp [pinned]) unpinned

/-- Completing a partition gives back what it has in memory and what it was charged for when it was
loaded. -/
theorem keeps_complete : (complete partition).Keeps (AccountedBy law stored inHand) := by
  intro input accounted
  refine (ends_bind _ _).mpr (ends_record (fun record found => ?_) fun _ => accounted)
  rw [ends_bind, ends_onBuild found]
  -- From here on nothing can fail, so the bytes that the release puts in hand are given back for sure.
  refine ends_release.mono (fun _ holding released => ?_) fun _ _ => False.elim
  obtain ⟨still, empty⟩ := released
  have settles : record.build.Settles inHand holding.partition (inHand + record.build.memoryBytes) :=
    ⟨fun spilled => still.trans spilled, fun _ => empty, by omega⟩
  rw [ends_bind]
  refine (ends_releaseProbe (accounted.settle found settles) (getElem?_withBuild found holding)).mono
    (fun _ between accounted => ?_) fun _ _ => False.elim
  have completed := accounted.setState (show PartitionState.completed ≠ .opened by decide) partition
  have freed := completed.release
  refine (ends_bind _ _).mpr ((ends_modify _).mpr ?_)
  refine (ends_bind _ _).mpr ((ends_modify _).mpr ?_)
  refine (ends_bind _ _).mpr (ends_get.mpr ?_)
  split
  case h_1 => exact freed
  case h_2 size noted => exact (freed.unpin noted).release

end Partitioned
end Spillway
