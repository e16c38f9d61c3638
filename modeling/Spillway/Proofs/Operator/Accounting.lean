import Mathlib.Data.List.Nodup
import Spillway.Operator.Partitioned
import Spillway.Proofs.Data.Chunk
import Spillway.Proofs.Memory.Ledger
import Spillway.Proofs.Partition.Bytes

/-!
# Accounting for bytes in memory

The account of partitioned input holds the bytes that are in memory in the build sides of all
partitions, and those of spilled partitions that are loaded. In the middle of a step there may be bytes
in hand: charged for rows that are not in place yet, or freed and not given back yet. Every step is
followed through its successes and its failures, and ends with no more in hand than it began with.
-/

namespace Spillway

/-! ## Sums over records and pins -/

/-- A change of one value replaces its measure in the total. -/
theorem total_modify
    {α : Type}
    (measure : α → Nat)
    {values : List α}
    {position : Nat}
    {value : α}
    (found : values[position]? = some value)
    (change : α → α) :
    total measure (values.modify position change) + measure value =
      total measure values + measure (change value) := by
  induction values generalizing position with
  | nil => simp at found
  | cons first rest inductionHypothesis =>
      cases position with
      | zero =>
          rw [List.getElem?_cons_zero, Option.some.injEq] at found
          rw [List.modify_zero_cons, total_cons, total_cons, found]
          omega
      | succ position =>
          rw [List.getElem?_cons_succ] at found
          rw [List.modify_succ_cons, total_cons, total_cons]
          have rest := inductionHypothesis found
          omega

theorem le_total_of_mem
    {α : Type}
    (measure : α → Nat)
    {values : List α}
    {value : α}
    (member : value ∈ values) :
    measure value ≤ total measure values := by
  induction values with
  | nil => cases member
  | cons first values inductionHypothesis =>
      rw [total_cons]
      obtain rfl | later := List.mem_cons.mp member
      · exact Nat.le_add_right _ _
      · exact Nat.le_add_left_of_le (inductionHypothesis later)

theorem filter_ne_of_not_mem
    {pairs : List (Nat × Nat)}
    {key : Nat}
    (absent : key ∉ pairs.map Prod.fst) :
    pairs.filter (·.1 ≠ key) = pairs := by
  refine List.filter_eq_self.mpr fun pair member => ?_
  have apart : pair.1 ≠ key := fun same => absent (List.mem_map.mpr ⟨pair, member, same⟩)
  simpa using apart

/-- Dropping the only pair with a key takes its value from the total. -/
theorem total_filter_ne
    {pairs : List (Nat × Nat)}
    {key value : Nat}
    (distinct : (pairs.map Prod.fst).Nodup)
    (found : pairs.lookup key = some value) :
    total Prod.snd (pairs.filter (·.1 ≠ key)) + value = total Prod.snd pairs := by
  induction pairs with
  | nil => simp at found
  | cons pair rest inductionHypothesis =>
      obtain ⟨first, second⟩ := pair
      rw [List.map_cons, List.nodup_cons] at distinct
      rw [List.lookup_cons] at found
      by_cases same : first = key
      · subst same
        simp only [BEq.rfl, Option.some.injEq] at found
        rw [List.filter_cons_of_neg (by simp), filter_ne_of_not_mem distinct.1, total_cons, found]
        exact Nat.add_comm _ _
      · rw [beq_false_of_ne (Ne.symm same)] at found
        rw [List.filter_cons_of_pos (by simpa using same), total_cons, total_cons,
          ← inductionHypothesis distinct.2 found]
        exact Nat.add_assoc _ _ _

namespace Partitioned

open Step Spillway.Partition

/-- The bytes in memory in all build sides and the bytes of loaded partitions. -/
def heldBytes (input : Partitioned) : Nat :=
  total (fun record => record.build.memoryBytes) input.arena.records.toList +
    total Prod.snd input.pinned

theorem heldBytes_eq_zero
    {input : Partitioned}
    (pinned : input.pinned = [])
    (unloaded : ∀ (partition : Nat) (record : PartitionRecord),
      input.arena.records[partition]? = some record → record.build.memoryBytes = 0) :
    input.heldBytes = 0 := by
  unfold heldBytes
  rw [pinned, total_nil, Nat.add_zero]
  refine total_eq_zero fun record member => ?_
  obtain ⟨partition, found⟩ := List.mem_iff_getElem?.mp member
  rw [Array.getElem?_toList] at found
  exact unloaded partition record found

/-- The input with another build side of a partition and the spill area that goes with it. -/
def withBuild (input : Partitioned) (partition : Nat) (holding : Holding) : Partitioned :=
  { input with
    area := holding.area
    arena := input.arena.modify partition fun record => { record with build := holding.partition } }

/-- The input with another probe side of a partition and the spill area that goes with it. -/
def withProbe (input : Partitioned) (partition : Nat) (holding : Holding) : Partitioned :=
  { input with
    area := holding.area
    arena := input.arena.modify partition fun record =>
      { record with probe := some holding.partition } }

/-- The build side of the partition is spilled. -/
def InStore (input : Partitioned) (partition : Nat) : Prop :=
  ∃ record, input.arena.records[partition]? = some record ∧ record.build.spilled

/-- A law holds of the account and the bytes in memory and in hand. Spilled partitions have no bytes in
memory, the given ones are spilled, and what is charged for loaded partitions is noted once for each of
them, after which they accept no rows. -/
structure AccountedBy
    (law : Ledger → Nat → Nat → Prop)
    (stored : List Nat)
    (inHand : Nat)
    (input : Partitioned) : Prop where
  books : law input.ledger input.account (input.heldBytes + inHand)
  unloaded : ∀ {partition : Nat} {record : PartitionRecord},
    input.arena.records[partition]? = some record →
    record.build.spilled → record.build.memoryBytes = 0
  stored : ∀ partition ∈ stored, input.InStore partition
  pinned : ∀ partition ∈ input.pinned.map Prod.fst,
    ∃ record, input.arena.records[partition]? = some record ∧ record.state ≠ .opened
  distinct : (input.pinned.map Prod.fst).Nodup

/-- The account holds the bytes in memory and in hand, beside what its ledger holds for others. -/
abbrev Accounted (others : Nat → Nat) : List Nat → Nat → Partitioned → Prop :=
  AccountedBy fun ledger account bytes => ledger.Holds account others bytes

variable {law : Ledger → Nat → Nat → Prop} {others : Nat → Nat} {stored : List Nat} {inHand left : Nat}
  {input : Partitioned} {partition : Nat} {record : PartitionRecord} {α : Type}

theorem getElem?_withBuild
    (found : input.arena.records[partition]? = some record)
    (holding : Holding) :
    (input.withBuild partition holding).arena.records[partition]? =
      some { record with build := holding.partition } := by
  simp [withBuild, Arena.modify, Array.getElem?_modify, found]

/-- The bytes in memory change by those of one record. -/
theorem heldBytes_modify
    (found : input.arena.records[partition]? = some record)
    {change : PartitionRecord → PartitionRecord}
    (balance : (change record).build.memoryBytes + left = record.build.memoryBytes + inHand)
    (area : SpillArea) :
    { input with
      area
      arena := input.arena.modify partition change }.heldBytes + left = input.heldBytes + inHand := by
  have change := total_modify (fun record => record.build.memoryBytes)
    (Array.getElem?_toList.trans found) change
  unfold heldBytes Arena.modify
  simp only [Array.toList_modify]
  omega

/-- A new record adds its bytes in memory. -/
theorem heldBytes_push
    (input : Partitioned)
    (record : PartitionRecord) :
    { input with arena := input.arena.push record }.heldBytes =
      input.heldBytes + record.build.memoryBytes := by
  unfold heldBytes Arena.push
  simp
  omega

/-! ## Changes of the input that keep it accounted -/

namespace AccountedBy

/-- Only the ledger, the records and the pins are looked at. -/
theorem transfer
    {before after : Partitioned}
    (accounted : before.AccountedBy law stored inHand)
    (ledger : after.ledger = before.ledger)
    (account : after.account = before.account)
    (arena : after.arena = before.arena)
    (pinned : after.pinned = before.pinned) :
    after.AccountedBy law stored inHand := by
  obtain ⟨books, unloaded, inStore, pins, distinct⟩ := accounted
  unfold heldBytes at books
  unfold InStore at inStore
  rw [← ledger, ← account, ← arena, ← pinned] at books
  rw [← arena] at unloaded inStore pins
  rw [← pinned] at pins distinct
  exact ⟨books, unloaded, inStore, pins, distinct⟩

/-- More partitions may be known to be spilled. -/
theorem store
    (accounted : input.AccountedBy law stored inHand)
    (found : input.arena.records[partition]? = some record)
    (spilled : record.build.spilled) :
    input.AccountedBy law (partition :: stored) inHand :=
  { accounted with
    stored := List.forall_mem_cons.mpr ⟨⟨record, found, spilled⟩, accounted.stored⟩ }

theorem unstore
    (accounted : input.AccountedBy law (partition :: stored) inHand) :
    input.AccountedBy law stored inHand :=
  { accounted with stored := (List.forall_mem_cons.mp accounted.stored).2 }

/-- A record is replaced by one whose build side is what is left of the other's. -/
theorem replace
    (accounted : input.AccountedBy law stored inHand)
    (found : input.arena.records[partition]? = some record)
    {change : PartitionRecord → PartitionRecord}
    (settles : record.build.Settles inHand (change record).build left)
    (closed : (change record).state = .opened → record.state = .opened)
    (area : SpillArea) :
    { input with
      area
      arena := input.arena.modify partition change }.AccountedBy law stored left := by
  have sum := heldBytes_modify found settles.balance area
  have keeps : ∀ {other : Nat} {old : PartitionRecord},
      input.arena.records[other]? = some old →
      ∃ new, (input.arena.modify partition change).records[other]? = some new ∧
        (old.build.spilled → new.build.spilled) ∧ (new.state = .opened → old.state = .opened) := by
    intro other old held
    rw [Arena.modify, Array.getElem?_modify, held]
    split
    case isTrue same =>
        subst same
        rw [found, Option.some.injEq] at held
        subst held
        exact ⟨change record, rfl, settles.spilled, closed⟩
    case isFalse => exact ⟨old, rfl, id, id⟩
  refine ⟨?_, fun {other new} held => ?_, fun other member => ?_, fun other member => ?_,
    accounted.distinct⟩
  · rw [sum]
    exact accounted.books
  · simp only [Arena.modify, Array.getElem?_modify] at held
    split at held
    case isTrue same =>
        subst same
        rw [found, Option.map_some, Option.some.injEq] at held
        subst held
        exact settles.unloaded
    case isFalse => exact accounted.unloaded held
  · obtain ⟨old, held, spilled⟩ := accounted.stored other member
    obtain ⟨new, changed, still, _⟩ := keeps held
    exact ⟨new, changed, still spilled⟩
  · obtain ⟨old, held, state⟩ := accounted.pinned other member
    obtain ⟨new, changed, _, closed⟩ := keeps held
    exact ⟨new, changed, fun opened => state (closed opened)⟩

/-- The build side of a partition is replaced by what is left of it. -/
theorem settle
    {holding : Holding}
    (accounted : input.AccountedBy law stored inHand)
    (found : input.arena.records[partition]? = some record)
    (settles : record.build.Settles inHand holding.partition left) :
    (input.withBuild partition holding).AccountedBy law stored left :=
  accounted.replace found settles id holding.area

theorem rest
    {holding : Holding}
    (accounted : input.AccountedBy law stored inHand)
    (found : input.arena.records[partition]? = some record)
    (rests : record.build.Rests holding.partition) :
    (input.withBuild partition holding).AccountedBy law stored inHand :=
  accounted.settle found (rests.settles (accounted.unloaded found) inHand)

/-- A record is changed in something else than its build side, and not opened again. -/
theorem retouch
    (accounted : input.AccountedBy law stored inHand)
    (found : input.arena.records[partition]? = some record)
    {change : PartitionRecord → PartitionRecord}
    (build : (change record).build = record.build)
    (closed : (change record).state = .opened → record.state = .opened)
    (area : SpillArea) :
    { input with
      area
      arena := input.arena.modify partition change }.AccountedBy law stored inHand := by
  refine accounted.replace found ?_ closed area
  rw [build]
  exact (Rests.refl _).settles (accounted.unloaded found) inHand

theorem reprobe
    (accounted : input.AccountedBy law stored inHand)
    (found : input.arena.records[partition]? = some record)
    (holding : Holding) :
    (input.withProbe partition holding).AccountedBy law stored inHand :=
  accounted.retouch found rfl id holding.area

/-- A new record without bytes in memory is appended. -/
theorem push
    (accounted : input.AccountedBy law stored inHand)
    (empty : record.build.memoryBytes = 0) :
    { input with arena := input.arena.push record }.AccountedBy law stored inHand := by
  have sum : { input with arena := input.arena.push record }.heldBytes = input.heldBytes := by
    rw [heldBytes_push, empty, Nat.add_zero]
  have keeps : ∀ {other : Nat} {old : PartitionRecord},
      input.arena.records[other]? = some old →
      (input.arena.push record).records[other]? = some old := by
    intro other old held
    rw [Arena.push, Array.getElem?_push, if_neg, held]
    rintro rfl
    simp at held
  refine ⟨?_, fun {other new} held => ?_, fun other member => ?_, fun other member => ?_,
    accounted.distinct⟩
  · rw [sum]
    exact accounted.books
  · simp only [Arena.push, Array.getElem?_push] at held
    split at held
    case isTrue =>
        cases held
        exact fun _ => empty
    case isFalse => exact accounted.unloaded held
  · obtain ⟨old, held, spilled⟩ := accounted.stored other member
    exact ⟨old, keeps held, spilled⟩
  · obtain ⟨old, held, state⟩ := accounted.pinned other member
    exact ⟨old, keeps held, state⟩

/-- Charged bytes are in hand. -/
theorem reserve?
    [Ledger.Lasting law]
    {bytes : Nat}
    {ledger : Ledger}
    (accounted : input.AccountedBy law stored inHand)
    (fits : input.ledger.reserve? input.account bytes = some ledger) :
    { input with ledger }.AccountedBy law stored (inHand + bytes) := by
  refine { accounted with books := ?_ }
  have books := Ledger.Lasting.reserve? accounted.books fits
  rw [Nat.add_assoc] at books
  exact books

/-- Bytes in hand are given back. -/
theorem release
    [Ledger.Lasting law]
    {bytes : Nat}
    (accounted : input.AccountedBy law stored (inHand + bytes)) :
    { input with ledger := input.ledger.release input.account bytes }.AccountedBy law stored
      inHand := by
  refine { accounted with books := ?_ }
  have books := accounted.books
  rw [← Nat.add_assoc] at books
  exact Ledger.Lasting.release books

/-- Bytes in hand are noted for a loaded partition. -/
theorem pin
    {bytes : Nat}
    (accounted : input.AccountedBy law stored (inHand + bytes))
    (found : input.arena.records[partition]? = some record)
    (closed : record.state ≠ .opened)
    (unpinned : partition ∉ input.pinned.map Prod.fst) :
    { input with
      pinned := (partition, bytes) :: input.pinned.filter (·.1 ≠ partition) }.AccountedBy law stored
        inHand := by
  rw [filter_ne_of_not_mem unpinned]
  refine { accounted with books := ?_, pinned := ?_, distinct := ?_ }
  · have sum : { input with pinned := (partition, bytes) :: input.pinned }.heldBytes + inHand =
        input.heldBytes + (inHand + bytes) := by
      unfold heldBytes
      dsimp only
      rw [total_cons]
      omega
    rw [sum]
    exact accounted.books
  · rw [List.map_cons, List.forall_mem_cons]
    exact ⟨⟨record, found, closed⟩, accounted.pinned⟩
  · rw [List.map_cons, List.nodup_cons]
    exact ⟨unpinned, accounted.distinct⟩

/-- What was noted for a loaded partition is in hand. -/
theorem unpin
    {bytes : Nat}
    (accounted : input.AccountedBy law stored inHand)
    (noted : input.pinned.lookup partition = some bytes) :
    { input with pinned := input.pinned.filter (·.1 ≠ partition) }.AccountedBy law stored
      (inHand + bytes) := by
  have kept : (input.pinned.filter (·.1 ≠ partition)).map Prod.fst ⊆ input.pinned.map Prod.fst :=
    List.map_subset _ (List.filter_subset_self _)
  refine { accounted with
    books := ?_
    pinned := fun other member => accounted.pinned other (kept member)
    distinct := (List.Sublist.map _ List.filter_sublist).nodup accounted.distinct }
  have sum : { input with pinned := input.pinned.filter (·.1 ≠ partition) }.heldBytes +
      (inHand + bytes) = input.heldBytes + inHand := by
    have dropped := total_filter_ne accounted.distinct noted
    unfold heldBytes
    dsimp only
    omega
  rw [sum]
  exact accounted.books

end AccountedBy

/-- Charged bytes are in hand, whether they fit or not. -/
theorem Accounted.reserve
    (accounted : input.Accounted others stored inHand)
    (bytes : Nat) :
    { input with ledger := input.ledger.reserve input.account bytes }.Accounted others stored
      (inHand + bytes) := by
  refine { accounted with books := ?_ }
  have books := accounted.books.reserve bytes
  rw [Nat.add_assoc] at books
  exact books

/-! ## Steps of a partition -/

section Ends

variable {ok : α → Partitioned → Prop} {failed : Status → Partitioned → Prop}

/-- The record of a partition that exists. -/
theorem ends_record_of
    {ok : PartitionRecord → Partitioned → Prop}
    (found : input.arena.records[partition]? = some record) :
    (Partitioned.record partition).Ends input ok failed ↔ ok record input := by
  have reads : (Partitioned.record partition).outcome input = (.ok record, input) := by
    unfold Partitioned.record onArena outcome
    simp [Arena.record, found, ExceptT.run, StateT.run, bind, Except.bind, pure, Except.pure]
  unfold Ends
  rw [reads]

/-- What the arena refuses changes nothing. -/
theorem ends_onArena
    {step : Arena → Except ArenaFault (α × Arena)}
    (accepts : ∀ value arena, step input.arena = .ok (value, arena) → ok value { input with arena })
    (refuses : ∀ status, failed status input) :
    (onArena step).Ends input ok failed := by
  unfold Ends onArena outcome
  simp only [ExceptT.run, StateT.run]
  cases answer : step input.arena with
  | ok result => exact accepts result.1 result.2 answer
  | error fault => exact refuses fault.status

/-- The record of a partition that may not exist. -/
theorem ends_record
    {ok : PartitionRecord → Partitioned → Prop}
    (reads : ∀ record, input.arena.records[partition]? = some record → ok record input)
    (fails : ∀ status, failed status input) :
    (Partitioned.record partition).Ends input ok failed := by
  refine ends_onArena (fun record arena answer => ?_) fails
  unfold Arena.record at answer
  cases found : input.arena.records[partition]? with
  | none => simp [found] at answer
  | some present =>
      rw [found] at answer
      cases answer
      exact reads record found

theorem ends_onBuild
    (found : input.arena.records[partition]? = some record)
    (step : Step Holding α) :
    (onBuild partition step).Ends input ok failed ↔
      step.Ends ⟨record.build, input.area⟩
        (fun value holding => ok value (input.withBuild partition holding))
        fun status holding => failed status (input.withBuild partition holding) := by
  unfold onBuild
  rw [ends_bind, ends_record_of found]
  unfold Ends outcome
  simp only [ExceptT.run, StateT.run]
  cases step ⟨record.build, input.area⟩ with
  | mk result holding => cases result <;> rfl

theorem ends_onProbe
    {absent : Step Partitioned α}
    (found : input.arena.records[partition]? = some record)
    (step : Step Holding α) :
    (onProbe partition absent step).Ends input ok failed ↔
      match record.probe with
      | none => absent.Ends input ok failed
      | some probe => step.Ends ⟨probe, input.area⟩
        (fun value holding => ok value (input.withProbe partition holding))
        fun status holding => failed status (input.withProbe partition holding) := by
  unfold onProbe
  rw [ends_bind, ends_record_of found]
  cases record.probe with
  | none => rfl
  | some probe =>
      unfold Ends outcome
      simp only [ExceptT.run, StateT.run]
      cases step ⟨probe, input.area⟩ with
      | mk result holding => cases result <;> rfl

/-- What is done with the build side of a partition that may not exist. -/
theorem ends_onBuild_of
    {step : Step Holding α}
    (present : ∀ record, input.arena.records[partition]? = some record →
      step.Ends ⟨record.build, input.area⟩
        (fun value holding => ok value (input.withBuild partition holding))
        fun status holding => failed status (input.withBuild partition holding))
    (missing : ∀ status, failed status input) :
    (onBuild partition step).Ends input ok failed := by
  cases found : input.arena.records[partition]? with
  | none =>
      refine (ends_bind _ _).mpr (ends_record (fun record there => ?_) missing)
      simp [found] at there
  | some record => exact (ends_onBuild found step).mpr (present record found)

/-- What is done with the probe side of a partition that may not exist, or have none. -/
theorem ends_onProbe_of
    {absent : Step Partitioned α}
    {step : Step Holding α}
    (otherwise : absent.Ends input ok failed)
    (present : ∀ record probe, input.arena.records[partition]? = some record → record.probe = some probe →
      step.Ends ⟨probe, input.area⟩
        (fun value holding => ok value (input.withProbe partition holding))
        fun status holding => failed status (input.withProbe partition holding))
    (missing : ∀ status, failed status input) :
    (onProbe partition absent step).Ends input ok failed := by
  cases found : input.arena.records[partition]? with
  | none =>
      refine (ends_bind _ _).mpr (ends_record (fun record there => ?_) missing)
      simp [found] at there
  | some record =>
      rw [ends_onProbe found]
      cases has : record.probe with
      | none => exact otherwise
      | some probe => exact present record probe found has

end Ends

end Partitioned
end Spillway
