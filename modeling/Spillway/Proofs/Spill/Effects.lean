import Spillway.Proofs.Outcome
import Spillway.Proofs.Spill.Block
import Std.Data.String.ToNat

/-!
# What calls leave in a store

A call of the store that writes nothing and deletes nothing, or that fails, leaves every block as it
is. A block that was written took a path that was free, and no other path changes. A deletion that
the store carries out takes away the block at its path and no other one. Paths are taken only after
they were drawn.
-/

namespace Spillway

open Step

namespace Store

/-! ## Paths -/

theorem pathOf_blockName_inj {number other : Nat} :
    pathOf (blockName number) = pathOf (blockName other) ↔ number = other := by
  unfold pathOf blockName
  rw [String.append_right_inj, String.append_left_inj, String.append_right_inj]
  exact Nat.repr_inj

/-- The path was drawn before. -/
def Drawn (store : Store) (path : String) : Prop :=
  ∃ number < store.nextName, path = pathOf (blockName number)

/-- No path is taken that is still to be drawn. -/
def Fresh (store : Store) : Prop :=
  ∀ number, store.nextName ≤ number → store.block? (pathOf (blockName number)) = none

/-! ## Changes of a store -/

/-- A store at a later call: it has the same format, does the same damage and fails at the same calls, and
does not draw what was drawn. -/
structure Later (before after : Store) : Prop where
  format : after.format = before.format
  damage : after.damage = before.damage
  outageAt : after.outageAt = before.outageAt
  calls : before.calls ≤ after.calls
  nextName : before.nextName ≤ after.nextName

theorem Later.trans
    {first second third : Store}
    (one : Later first second)
    (another : Later second third) :
    Later first third where
  format := another.format.trans one.format
  damage := another.damage.trans one.damage
  outageAt := another.outageAt.trans one.outageAt
  calls := Nat.le_trans one.calls another.calls
  nextName := Nat.le_trans one.nextName another.nextName

/-- A store with the blocks of another one, at a later call. -/
structure Same (before after : Store) : Prop extends Later before after where
  blocks : after.blocks = before.blocks

theorem Same.refl (store : Store) : Same store store :=
  ⟨⟨rfl, rfl, rfl, Nat.le_refl _, Nat.le_refl _⟩, rfl⟩

theorem Same.block
    {before after : Store}
    (same : Same before after)
    (path : String) :
    after.block? path = before.block? path :=
  congrArg (List.lookup path) same.blocks

theorem Same.trans
    {first second third : Store}
    (one : Same first second)
    (another : Same second third) :
    Same first third :=
  ⟨one.toLater.trans another.toLater, another.blocks.trans one.blocks⟩

theorem Same.keeps
    {before after : Store}
    (same : Same before after) :
    Keeps before after [] :=
  ⟨same.format, same.damage, same.outageAt, same.calls, fun path _ _ held => (same.block path).trans held⟩

theorem Same.fresh
    {before after : Store}
    (same : Same before after)
    (fresh : before.Fresh) :
    after.Fresh :=
  fun number later => (same.block _).trans (fresh number (Nat.le_trans same.nextName later))

/-- A store with one block more, at a path that was drawn and free. -/
structure Gains
    (before after : Store)
    (path : String) : Prop extends Later before after where
  drawn : after.Drawn path
  free : before.block? path = none
  taken : after.block? path ≠ none
  others : ∀ other, other ≠ path → after.block? other = before.block? other

theorem Same.gains
    {first second third : Store}
    {path : String}
    (same : Same first second)
    (gains : Gains second third path) :
    Gains first third path where
  toLater := same.toLater.trans gains.toLater
  drawn := gains.drawn
  free := (same.block path).symm.trans gains.free
  taken := gains.taken
  others other different := (gains.others other different).trans (same.block other)

theorem Gains.keeps
    {before after : Store}
    {path : String}
    (gains : Gains before after path) :
    Keeps before after [] where
  format := gains.format
  damage := gains.damage
  outageAt := gains.outageAt
  calls := gains.calls
  block other bytes _ held := by
    rw [gains.others other, held]
    rintro rfl
    exact Option.some_ne_none _ (held.symm.trans gains.free)

theorem Gains.fresh
    {before after : Store}
    {path : String}
    (gains : Gains before after path)
    (fresh : before.Fresh) :
    after.Fresh := by
  intro number later
  obtain ⟨drawn, early, rfl⟩ := gains.drawn
  have different : pathOf (blockName number) ≠ pathOf (blockName drawn) :=
    fun same => Nat.not_le_of_lt early (pathOf_blockName_inj.mp same ▸ later)
  exact (gains.others _ different).trans (fresh number (Nat.le_trans gains.nextName later))

/-- A store without the block at a path. -/
structure Loses
    (before after : Store)
    (path : String) : Prop extends Later before after where
  gone : after.block? path = none
  others : ∀ other, other ≠ path → after.block? other = before.block? other

theorem Loses.fresh
    {before after : Store}
    {path : String}
    (loses : Loses before after path)
    (fresh : before.Fresh) :
    after.Fresh := by
  intro number later
  by_cases same : pathOf (blockName number) = path
  · rw [same, loses.gone]
  · exact (loses.others _ same).trans (fresh number (Nat.le_trans loses.nextName later))

/-! ## Stores that serve every call -/

/-- No call fails, no block is damaged, and every path that is drawn is free. -/
structure Reliable (store : Store) : Prop where
  faithful : store.damage = []
  available : ∀ call, store.outageAt call = {}
  fresh : store.Fresh

theorem Reliable.later
    {before after : Store}
    (reliable : before.Reliable)
    (later : before.Later after)
    (fresh : after.Fresh) :
    after.Reliable where
  faithful := later.damage.trans reliable.faithful
  available := later.outageAt ▸ reliable.available
  fresh := fresh

theorem Reliable.readable
    {store : Store}
    (reliable : store.Reliable) :
    store.Readable :=
  fun call _ => by rw [reliable.available]

/-! ## Calls -/

theorem same_tick (store : Store) : Same store store.tick :=
  ⟨⟨rfl, rfl, rfl, Nat.le_succ _, Nat.le_refl _⟩, rfl⟩

theorem ends_drawPath (before : Store) :
    drawPath.Ends before (fun path after => Same before after ∧ after.Drawn path) fun _ _ => False :=
  ⟨⟨⟨rfl, rfl, rfl, Nat.le_refl _, Nat.le_succ _⟩, rfl⟩, _, Nat.lt_succ_self _, rfl⟩

theorem ends_create
    {before : Store}
    {path : String}
    (drawn : before.Drawn path)
    (bytes : List UInt8) :
    (create path bytes).Ends before
      (fun created after => if created then Gains before after path else Same before after)
      fun _ after => Same before after ∧ before.outage.writes = true := by
  by_cases refused : before.outage.writes = true
  · exact .of_error (if_pos refused) ⟨same_tick before, refused⟩
  · by_cases occupied : (before.block? path).isSome = true
    · exact .of_ok ((if_neg refused).trans (if_pos occupied)) (same_tick before)
    · refine .of_ok ((if_neg refused).trans (if_neg occupied)) ?_
      have absent : before.block? path = none := by simpa using occupied
      have found : ∀ other, (before.insert path bytes).tick.block? other =
          if other = path then some bytes else before.block? other :=
        fun other => block?_insert before path other bytes
      refine ⟨⟨rfl, rfl, rfl, Nat.le_succ _, Nat.le_refl _⟩, drawn, absent, ?_, fun other different => ?_⟩
      · rw [found, if_pos rfl]
        exact Option.some_ne_none _
      · rw [found, if_neg different]

theorem ends_read
    (path : String)
    (before : Store) :
    (read path).Ends before (fun _ after => Same before after)
      fun status after => Same before after ∧ status.code = .storage := by
  by_cases refused : before.outage.reads = true
  · exact .of_error (if_pos refused) ⟨same_tick before, rfl⟩
  · cases found : before.block? path with
    | none =>
        have outcome : (read path).outcome before =
            (.error (.storage ("spill block " ++ path ++ " not found")), before.tick) :=
          (if_neg refused).trans (by rw [found])
        exact .of_error outcome ⟨same_tick before, rfl⟩
    | some bytes =>
        have outcome : (read path).outcome before = (.ok (before.damaged path bytes), before.tick) :=
          (if_neg refused).trans (by rw [found])
        exact .of_ok outcome (same_tick before)

theorem block?_erase_self
    (store : Store)
    (path : String) :
    (store.erase path).block? path = none := by
  unfold erase block?
  rw [List.lookup_eq_none_iff]
  intro block member
  have different : block.1 ≠ path := by simpa using (List.mem_filter.mp member).2
  exact bne_iff_ne.mpr (Ne.symm different)

theorem ends_delete
    (path : String)
    (before : Store) :
    (delete path).Ends before (fun _ after => Loses before after path)
      fun _ after => Same before after ∧ before.outage.deletes = true := by
  by_cases refused : before.outage.deletes = true
  · exact .of_error (if_pos refused) ⟨same_tick before, refused⟩
  · have others : ∀ other, other ≠ path → (before.erase path).tick.block? other = before.block? other :=
      fun _ different => block?_erase_of_ne different
    exact .of_ok (if_neg refused)
      ⟨⟨rfl, rfl, rfl, Nat.le_succ _, Nat.le_refl _⟩, block?_erase_self before path, others⟩

end Store

/-- Whatever is wrong with a block is a failure of the storage. -/
theorem BlockFault.code_status (fault : BlockFault) : fault.status.code = .storage := by
  cases fault <;> rfl

namespace SpillArea

/-- A path is drawn and written to; if it was taken, nothing was written and the next step goes on. -/
theorem ends_draw
    {bytes : List UInt8}
    {next : String → Step SpillArea String}
    (goesOn : ∀ drawn between, (next drawn).Ends between
      (fun path after => between.store.Gains after.store path)
      fun _ after => between.store.Same after.store)
    (before : SpillArea) :
    (do
      let drawn ← onStore Store.drawPath
      let created ← onStore (Store.create drawn bytes)
      if created then return drawn else next drawn : Step SpillArea String).Ends before
      (fun path after => before.store.Gains after.store path)
      fun _ after => before.store.Same after.store := by
  unfold onStore
  rw [ends_bind, ends_focus]
  refine (Store.ends_drawPath before.store).mono (fun path middle drew => ?_) fun _ _ => False.elim
  obtain ⟨drew, drawn⟩ := drew
  rw [ends_bind, ends_focus]
  refine (Store.ends_create drawn bytes).mono (fun created last wrote => ?_)
    fun _ _ failed => drew.trans failed.1
  rw [ends_ite]
  refine ⟨fun written => ?_, fun taken => ?_⟩
  · rw [if_pos written] at wrote
    exact drew.gains wrote
  · rw [if_neg taken] at wrote
    exact (goesOn path _).mono (fun _ _ gains => (drew.trans wrote).gains gains)
      fun _ _ failed => (drew.trans wrote).trans failed

theorem ends_createBlock
    (bytes : List UInt8)
    (retries : Nat)
    (before : SpillArea) :
    (createBlock bytes retries).Ends before
      (fun path after => before.store.Gains after.store path)
      fun _ after => before.store.Same after.store := by
  induction retries generalizing before with
  | zero =>
      rw [createBlock]
      exact ends_draw (fun _ _ => (ends_fail _).mpr (.refl _)) before
  | succ retries inductionHypothesis =>
      rw [createBlock]
      exact ends_draw (fun _ between => inductionHypothesis between) before

/-- The store is no part of the spiller. -/
theorem keeps_onStore
    {α : Type}
    {Condition : Spiller → Prop}
    (step : Step Store α) :
    (onStore step).Keeps fun area => Condition area.spiller := by
  intro before condition
  unfold onStore
  rw [ends_focus]
  exact .of_forall (fun _ _ => condition) fun _ _ => condition

theorem keeps_createBlock
    (Condition : Spiller → Prop)
    (bytes : List UInt8)
    (retries : Nat) :
    (createBlock bytes retries).Keeps fun area => Condition area.spiller := by
  induction retries with
  | zero =>
      rw [createBlock]
      refine (keeps_onStore _).bind fun path => (keeps_onStore _).bind fun created => ?_
      split
      · exact keeps_pure _
      · exact keeps_fail _
  | succ retries inductionHypothesis =>
      rw [createBlock]
      refine (keeps_onStore _).bind fun path => (keeps_onStore _).bind fun created => ?_
      split
      · exact keeps_pure _
      · exact inductionHypothesis

/-- Writing a block counts it, and changes no setting. -/
theorem keeps_spill_blockSize
    (size : Nat)
    (declaration : Declaration)
    (chunks : List Chunk) :
    (spill declaration chunks).Keeps fun area => area.spiller.blockSize = size := by
  have counts : ∀ change, (record change).Keeps fun area => area.spiller.blockSize = size :=
    fun _ => keeps_modify fun _ same => same
  refine keeps_get.bind fun area => ?_
  refine (keeps_createBlock (fun spiller => spiller.blockSize = size) _ _).bind fun path => ?_
  exact (counts _).bind fun _ => keeps_pure _

/-- Chunks are written as one block more, or nothing is written and nothing counted. -/
theorem ends_spill
    (declaration : Declaration)
    (chunks : List Chunk)
    (before : SpillArea) :
    (spill declaration chunks).Ends before
      (fun block after => before.store.Gains after.store block.path)
      fun _ after => before.store.Same after.store ∧ after.spiller = before.spiller := by
  rw [spill, ends_bind, ends_get, ends_bind]
  have counts := keeps_createBlock (fun spiller => spiller = before.spiller)
    ((headerOf before.store.format before.spiller.compression declaration chunks).encode ++
      Body.encode before.store.format declaration chunks) maxRetries before rfl
  exact ((ends_createBlock _ _ before).and counts).mono (fun _ _ written => written.1) fun _ _ => id

/-- In a reliable store a block is written at the first try. -/
theorem serves_createBlock
    {before : SpillArea}
    (reliable : before.store.Reliable)
    (bytes : List UInt8)
    (retries : Nat) :
    (createBlock bytes retries).Serves before := by
  have free := reliable.fresh before.store.nextName (Nat.le_refl _)
  have available : before.store.outage = {} := reliable.available _
  have created : ∀ store : Store, store.outage = before.store.outage →
      store.block? = before.store.block? → (Store.create
        (Store.pathOf (Store.blockName before.store.nextName)) bytes).outcome store =
          (.ok true, (store.insert (Store.pathOf (Store.blockName before.store.nextName)) bytes).tick) := by
    intro store outage blocks
    refine (if_neg ?_).trans (if_neg ?_)
    · rw [outage, available]
      decide
    · rw [blocks, free]
      decide
  unfold Serves createBlock
  rw [ends_bind, onStore, ends_focus]
  refine .of_ok rfl ?_
  rw [ends_bind, onStore, ends_focus]
  exact .of_ok (created _ rfl rfl) trivial

theorem serves_spill
    {before : SpillArea}
    (reliable : before.store.Reliable)
    (declaration : Declaration)
    (chunks : List Chunk) :
    (spill declaration chunks).Serves before := by
  rw [spill, Serves, ends_bind, ends_get, ends_bind]
  exact (serves_createBlock reliable _ _).mono (fun _ _ _ => trivial) fun _ _ => id

theorem ends_restore
    (declaration : Declaration)
    (block : Block)
    (before : SpillArea) :
    (restore declaration block).Ends before (fun _ after => before.store.Same after.store)
      fun status after => before.store.Same after.store ∧ status.code = .storage := by
  rw [restore, ends_bind, ends_get, ends_bind, onStore, ends_focus]
  refine (Store.ends_read block.path before.store).mono (fun bytes after same => ?_)
    fun _ _ failed => failed
  rw [ends_bind, ends_ofExcept]
  refine ⟨fun _ _ => same, fun status failed => ⟨same, ?_⟩⟩
  cases decoded : decodeBlock before.store.format declaration block.path bytes with
  | ok chunks => simp [decoded, Except.mapError] at failed
  | error fault =>
      rw [decoded] at failed
      cases failed
      exact fault.code_status

theorem ends_release
    (block : Block)
    (before : SpillArea) :
    (release block).Ends before (fun _ after => before.store.Loses after.store block.path)
      fun _ after => before.store.Same after.store ∧ before.store.outage.deletes = true := by
  rw [release, onStore, ends_focus]
  exact Store.ends_delete block.path before.store

end SpillArea
end Spillway
