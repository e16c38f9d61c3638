import Spillway.Proofs.Operator.Contents

/-!
# Filling partitions

The steps that fill partitions, and what each of them does when it succeeds: appending adds rows to
one slot, spilling moves rows without changing them, and dealing out a chunk adds to every slot the
rows that are routed to it. None of them moves a partition to another place, none gives up a block,
and a spilled partition that nothing is appended to stays exactly as it is.
-/

namespace Spillway

namespace Contents

/-- The contents with more rows in one slot. -/
def append
    (contents : Contents)
    (slot : Slot)
    (rows : List Row) : Contents :=
  Function.update contents slot (contents slot ++ rows)

/-- The contents with more rows on one side, each in the partition that it is routed to, if any. -/
def receive
    (contents : Contents)
    (side : Side)
    (route : Row → Option Nat)
    (rows : List Row) : Contents :=
  fun slot =>
    if slot.1 = side then contents slot ++ rows.filter fun row => route row = some slot.2
    else contents slot

theorem receive_nil
    (contents : Contents)
    (side : Side)
    (route : Row → Option Nat) :
    contents.receive side route [] = contents := by
  funext slot
  simp [receive]

theorem receive_append
    (contents : Contents)
    (side : Side)
    (route : Row → Option Nat)
    (rows more : List Row) :
    contents.receive side route (rows ++ more) =
      (contents.receive side route rows).receive side route more := by
  funext slot
  by_cases here : slot.1 = side <;> simp [receive, here]

/-- What the contents are after rows were dealt out to some partitions of a side: all others have what they
had, and where this is to be `precise`, each of these has got the rows that are routed to it. -/
structure Deals
    (precise : Prop)
    (contents : Contents)
    (side : Side)
    (partitions : List Nat)
    (route : Row → Option Nat)
    (rows : List Row)
    (filled : Contents) : Prop where
  others : ∀ slot, slot ∉ partitions.map (fun partition => (side, partition)) →
    filled slot = contents slot
  routed : precise → filled = contents.receive side route rows

section Deals

variable {precise : Prop} {contents between filled : Contents} {side : Side} {partitions : List Nat}
  {route : Row → Option Nat} {rows more : List Row}

theorem Deals.nil : contents.Deals precise side partitions route [] contents :=
  ⟨fun _ _ => rfl, fun _ => (receive_nil contents side route).symm⟩

theorem Deals.append
    (first : contents.Deals precise side partitions route rows between)
    (second : between.Deals precise side partitions route more filled) :
    contents.Deals precise side partitions route (rows ++ more) filled where
  others slot outside := (second.others slot outside).trans (first.others slot outside)
  routed is := by rw [second.routed is, first.routed is, receive_append]

end Deals

end Contents

namespace Partitioned

variable {precise : Prop}

/-! ## What steps leave alone -/

/-- Steps that keep all partitions and all blocks. -/
structure Quiet (before after : Partitioned) : Prop where
  outline : after.outline = before.outline
  part? : after.arena.part? = before.arena.part?
  keeps : before.area.store.Keeps after.area.store []

theorem Quiet.refl (input : Partitioned) : input.Quiet input :=
  ⟨rfl, rfl, .refl _⟩

theorem Quiet.trans
    {first second third : Partitioned}
    (one : first.Quiet second)
    (another : second.Quiet third) :
    first.Quiet third :=
  ⟨another.outline.trans one.outline, another.part?.trans one.part?, one.keeps.trans another.keeps⟩

theorem Quiet.holds
    {before after : Partitioned}
    {contents : Contents}
    (quiet : before.Quiet after)
    (holds : before.Holds precise contents) :
    after.Holds precise contents := by
  unfold Holds at holds ⊢
  rw [quiet.part?, side?_of_outline quiet.outline]
  exact holds.keeps quiet.keeps

/-- The record of a partition keeps its build side and its place. -/
theorem Quiet.exists_record
    {before after : Partitioned}
    {partition : Nat}
    {record : PartitionRecord}
    (quiet : before.Quiet after)
    (found : before.arena.records[partition]? = some record) :
    ∃ again, after.arena.records[partition]? = some again ∧ again.build = record.build ∧
      again.place = record.place := by
  obtain ⟨again, there, build⟩ :=
    Arena.exists_record_of_part?_build (quiet.part? ▸ Arena.part?_build found)
  have place := congrFun (place?_of_outline quiet.outline) partition
  rw [Arena.place?_of_record found, Arena.place?_of_record there, Option.some.injEq] at place
  exact ⟨again, there, build, place⟩

/-- Steps that keep all blocks and add rows to the given slots only, so that a spilled partition in
any other slot stays as it is. -/
structure Fills
    (before after : Partitioned)
    (targets : List Slot) : Prop where
  outline : after.outline = before.outline
  keeps : before.area.store.Keeps after.area.store []
  steady : ∀ slot partition, slot ∉ targets → before.arena.part? slot = some partition →
    partition.spilled = true → after.arena.part? slot = some partition

theorem Quiet.fills
    {before after : Partitioned}
    (quiet : before.Quiet after) :
    before.Fills after [] :=
  ⟨quiet.outline, quiet.keeps, fun _ _ _ found _ => quiet.part? ▸ found⟩

theorem Fills.trans
    {first second third : Partitioned}
    {targets more : List Slot}
    (one : first.Fills second targets)
    (another : second.Fills third more) :
    first.Fills third (targets ++ more) where
  outline := another.outline.trans one.outline
  keeps := one.keeps.trans another.keeps
  steady := by
    intro slot partition outside found spilled
    rw [List.mem_append, not_or] at outside
    exact another.steady slot _ outside.2 (one.steady slot _ outside.1 found spilled) spilled

/-- Steps that fill the same slots, one after the other. -/
theorem Fills.again
    {first second third : Partitioned}
    {targets : List Slot}
    (one : first.Fills second targets)
    (another : second.Fills third targets) :
    first.Fills third targets where
  outline := another.outline.trans one.outline
  keeps := one.keeps.trans another.keeps
  steady := fun slot _ outside found spilled =>
    another.steady slot _ outside (one.steady slot _ outside found spilled) spilled

theorem Fills.mono
    {before after : Partitioned}
    {targets more : List Slot}
    (fills : before.Fills after targets)
    (within : ∀ slot ∈ targets, slot ∈ more) :
    before.Fills after more where
  outline := fills.outline
  keeps := fills.keeps
  steady := fun slot partition outside =>
    fills.steady slot partition fun member => outside (within slot member)

/-! ## Steps on the partition in one slot -/

/-- A request to the arena succeeds when the arena grants it, and changes the arena alone. -/
@[simp] theorem succeeds_onArena_iff
    {α : Type}
    {step : Arena → Except ArenaFault (α × Arena)}
    {before after : Partitioned}
    {value : α} :
    (onArena step).Succeeds before value after ↔
      ∃ arena, step before.arena = .ok (value, arena) ∧ { before with arena } = after := by
  unfold onArena Step.Succeeds Step.outcome ExceptT.run StateT.run
  beta_reduce
  cases step before.arena with
  | error fault => simp
  | ok result =>
      obtain ⟨found, arena⟩ := result
      simp only [Prod.mk.injEq, Except.ok.injEq]
      constructor
      · rintro ⟨rfl, rfl⟩
        exact ⟨arena, ⟨rfl, rfl⟩, rfl⟩
      · rintro ⟨_, ⟨rfl, rfl⟩, rfl⟩
        exact ⟨rfl, rfl⟩

@[simp] theorem succeeds_record_iff
    {partition : Nat}
    {before after : Partitioned}
    {found : PartitionRecord} :
    (record partition).Succeeds before found after ↔
      before.arena.records[partition]? = some found ∧ before = after := by
  simp only [record, succeeds_onArena_iff, bind_eq_ok_iff, pure_eq_ok_iff, Prod.mk.injEq,
    Arena.record_eq_ok_iff]
  constructor
  · rintro ⟨_, ⟨_, known, rfl, rfl⟩, rfl⟩
    exact ⟨known, rfl⟩
  · rintro ⟨known, rfl⟩
    exact ⟨_, ⟨_, known, rfl, rfl⟩, rfl⟩

/-- A step on the partition in a slot: what it finds there and what it leaves there. -/
structure Acts
    {α : Type}
    (step : Step Holding α)
    (slot : Slot)
    (before : Partitioned)
    (value : α)
    (after : Partitioned)
    (old : Partition)
    (new : Holding) : Prop where
  found : before.arena.part? slot = some old
  succeeds : step.Succeeds ⟨old, before.area⟩ value new
  area : after.area = new.area
  part? : after.arena.part? = Function.update before.arena.part? slot (some new.partition)
  outline : after.outline = before.outline

theorem acts_of_onBuild
    {α : Type}
    {step : Step Holding α}
    {partition : Nat}
    {before after : Partitioned}
    {value : α}
    (succeeds : (onBuild partition step).Succeeds before value after) :
    ∃ old new, Acts step (.build, partition) before value after old new := by
  simp only [onBuild, Step.succeeds_bind, succeeds_record_iff] at succeeds
  obtain ⟨record, _, ⟨found, rfl⟩, acted⟩ := succeeds
  change (_, _) = (_, after) at acted
  rw [Prod.mk.injEq] at acted
  obtain ⟨yields, rfl⟩ := acted
  refine ⟨record.build, _, Arena.part?_build found, Prod.ext yields rfl, rfl, ?_, ?_⟩
  · apply Arena.part?_modify found rfl
    intro other different
    cases other with
    | build => exact absurd rfl different
    | probe => rfl
  · exact outline_modify _ _ _ fun _ => rfl

/-- A step on the probe side acts on the partition there, or there is none. -/
theorem acts_of_onProbe
    {α : Type}
    {absent : Step Partitioned α}
    {step : Step Holding α}
    {partition : Nat}
    {before after : Partitioned}
    {value : α}
    (succeeds : (onProbe partition absent step).Succeeds before value after) :
    (before.arena.part? (.probe, partition) = none ∧ absent.Succeeds before value after) ∨
      ∃ old new, Acts step (.probe, partition) before value after old new := by
  simp only [onProbe, Step.succeeds_bind, succeeds_record_iff] at succeeds
  obtain ⟨record, _, ⟨found, rfl⟩, acted⟩ := succeeds
  cases side : record.probe with
  | none =>
      rw [side] at acted
      exact .inl ⟨(Arena.part?_probe found).trans side, acted⟩
  | some probe =>
      rw [side] at acted
      change (_, _) = (_, after) at acted
      rw [Prod.mk.injEq] at acted
      obtain ⟨yields, rfl⟩ := acted
      refine .inr ⟨probe, _, (Arena.part?_probe found).trans side, Prod.ext yields rfl, rfl, ?_, ?_⟩
      · apply Arena.part?_modify found rfl
        intro other different
        cases other with
        | build => rfl
        | probe => exact absurd rfl different
      · exact outline_modify _ _ _ fun _ => rfl

namespace Acts

variable {before after : Partitioned} {slot : Slot} {old : Partition} {new : Holding}
variable {contents : Contents}

/-- A step on one side of a partition leaves all other partitions alone. -/
theorem part?_others
    {α : Type}
    {step : Step Holding α}
    {value : α}
    {other : Slot}
    (acts : Acts step slot before value after old new)
    (different : other.2 ≠ slot.2) :
    after.arena.part? other = before.arena.part? other := by
  rw [acts.part?]
  exact Function.update_of_ne (mt (congrArg Prod.snd) different) _ _

/-- A step that moves the partition in a slot changes the rows of that slot alone. -/
theorem holds
    {α : Type}
    {step : Step Holding α}
    {value : α}
    {rows : List Row}
    {givenUp : List String}
    (acts : Acts step slot before value after old new)
    (holds : before.Holds precise contents)
    (moves : Holding.Moves ⟨old, before.area⟩ new givenUp)
    (own : ∀ path ∈ givenUp, path ∈ old.paths)
    (held : ∀ declared, before.side? slot.1 = some declared →
      new.partition.Holds precise new.area.store declared.schema rows) :
    after.Holds precise (Function.update contents slot rows) := by
  unfold Holds
  rw [acts.area, acts.part?, side?_of_outline acts.outline]
  exact Kept.replace (show Kept precise (Holding.area ⟨old, before.area⟩).store _ _ _ from holds)
    acts.found moves own held

/-- The partition in the slot, under the schema that is declared for its side. -/
theorem partition_holds
    {α : Type}
    {step : Step Holding α}
    {value : α}
    (acts : Acts step slot before value after old new)
    (holds : before.Holds precise contents)
    {declared : ProbeSide}
    (declares : before.side? slot.1 = some declared) :
    old.Holds precise before.area.store declared.schema (contents slot) := by
  obtain ⟨other, same, held⟩ := holds.holds _ _ acts.found
  rw [declares, Option.some.injEq] at same
  exact same ▸ held

/-- All spilled partitions but the one acted on stay as they are. -/
theorem fills
    {α : Type}
    {step : Step Holding α}
    {value : α}
    (acts : Acts step slot before value after old new)
    (moves : Holding.Moves ⟨old, before.area⟩ new []) :
    before.Fills after [slot] where
  outline := acts.outline
  keeps := acts.area ▸ moves.keeps
  steady := by
    intro other partition outside found _
    rw [List.mem_singleton] at outside
    rw [acts.part?, Function.update_of_ne outside, found]

/-- A step that only reads the partition in a slot changes none. -/
theorem quiet
    {α : Type}
    {step : Step Holding α}
    {value : α}
    (acts : Acts step slot before value after old new)
    (same : old = new.partition)
    (keeps : before.area.store.Keeps new.area.store []) :
    before.Quiet after where
  outline := acts.outline
  part? := by rw [acts.part?, ← same, ← acts.found, Function.update_eq_self]
  keeps := acts.area ▸ keeps

theorem append
    {chunk : Chunk}
    {declared : ProbeSide}
    (acts : Acts (Partition.append chunk) slot before () after old new)
    (holds : before.Holds precise contents)
    (declares : before.side? slot.1 = some declared)
    (suits : chunk.Suits precise declared.schema) :
    after.Holds precise (contents.append slot chunk.rows) ∧ before.Fills after [slot] := by
  obtain ⟨held, moves⟩ := Partition.succeeds_append acts.succeeds holds.faithful
    (acts.partition_holds holds declares) suits
  refine ⟨acts.holds holds moves (fun _ member => absurd member List.not_mem_nil) ?_,
    acts.fills moves⟩
  intro other same
  rw [declares, Option.some.injEq] at same
  exact same ▸ held

theorem spill
    {freed : Nat}
    (acts : Acts Partition.spill slot before freed after old new)
    (holds : before.Holds precise contents) :
    after.Holds precise contents ∧ before.Fills after [slot] := by
  obtain ⟨declared, declares, partitionHolds⟩ := holds.holds _ _ acts.found
  obtain ⟨held, moves⟩ := Partition.succeeds_spill acts.succeeds holds.faithful partitionHolds
  refine ⟨?_, acts.fills moves⟩
  rw [← Function.update_eq_self slot contents]
  refine acts.holds holds moves (fun _ member => absurd member List.not_mem_nil) ?_
  intro other same
  rw [declares, Option.some.injEq] at same
  exact same ▸ held

/-- Releasing drops the rows of the slot. -/
theorem release
    (acts : Acts Partition.release slot before () after old new)
    (holds : before.Holds precise contents) :
    after.Holds precise (Function.update contents slot []) := by
  obtain ⟨declared, declares, partitionHolds⟩ := holds.holds _ _ acts.found
  obtain ⟨held, moves⟩ := Partition.succeeds_release acts.succeeds partitionHolds
  refine acts.holds holds moves (fun _ member => member) ?_
  intro other same
  rw [declares, Option.some.injEq] at same
  exact same ▸ held

/-- Reloading yields the rows of the slot, as chunks of the schema, and changes nothing. -/
theorem reload
    {chunks : List Chunk}
    {declared : ProbeSide}
    (acts : Acts Partition.reload slot before chunks after old new)
    (holds : before.Holds precise contents)
    (declares : before.side? slot.1 = some declared) :
    chunks.flatMap Chunk.rows = contents slot ∧
      (∀ chunk ∈ chunks, chunk.Suits precise declared.schema) ∧ before.Quiet after := by
  obtain ⟨rows, fitting, same, keeps⟩ := Partition.succeeds_reload acts.succeeds
    (acts.partition_holds holds declares).toStores
  exact ⟨rows, fitting, acts.quiet same keeps⟩

end Acts

/-! ## Appending and spilling -/

theorem succeeds_tryCharge
    {bytes : Nat}
    {before after : Partitioned}
    {granted : Bool}
    (succeeds : (tryCharge bytes).Succeeds before granted after) :
    before.Quiet after := by
  unfold tryCharge Step.Succeeds Step.outcome ExceptT.run StateT.run at succeeds
  beta_reduce at succeeds
  rw [Prod.mk.injEq] at succeeds
  exact succeeds.2 ▸ ⟨rfl, rfl, .refl _⟩

@[simp] theorem succeeds_checkCancelled
    {before after : Partitioned}
    {value : Unit} :
    checkCancelled.Succeeds before value after ↔ before.cancelled = false ∧ before = after := by
  simp only [checkCancelled, Step.succeeds_bind, Step.succeeds_get, Step.succeeds_ite,
    Step.succeeds_fail, and_false, false_or, Step.succeeds_pure, true_and]
  constructor
  · rintro ⟨_, _, ⟨rfl, rfl⟩, running, rfl⟩
    exact ⟨Bool.eq_false_iff.mpr running, rfl⟩
  · rintro ⟨running, rfl⟩
    exact ⟨_, _, ⟨rfl, rfl⟩, Bool.eq_false_iff.mp running, rfl⟩

/-- Spilling a partition keeps the rows in all slots. A partition that is spilled already is left
alone. -/
theorem succeeds_spillPartition
    {partition freed : Nat}
    {before after : Partitioned}
    {contents : Contents}
    (succeeds : (spillPartition partition).Succeeds before freed after)
    (holds : before.Holds precise contents) :
    after.Holds precise contents ∧ before.Fills after [] := by
  simp only [spillPartition, releaseBytes, Step.succeeds_bind, succeeds_record_iff] at succeeds
  obtain ⟨record, _, ⟨found, rfl⟩, succeeds⟩ := succeeds
  split at succeeds
  · rw [Step.succeeds_pure] at succeeds
    obtain ⟨_, rfl⟩ := succeeds
    exact ⟨holds, (Quiet.refl _).fills⟩
  · next inMemory =>
    simp only [Step.succeeds_bind, Step.succeeds_modify, Step.succeeds_pure] at succeeds
    obtain ⟨_, between, spilled, _, _, rfl, _, _, rfl, _, rfl⟩ := succeeds
    obtain ⟨old, new, acts⟩ := acts_of_onBuild spilled
    obtain ⟨held, fills⟩ := acts.spill holds
    refine ⟨held, fills.outline, fills.keeps, ?_⟩
    intro slot partition _ there spilled
    refine fills.steady slot partition ?_ there spilled
    rw [List.mem_singleton]
    rintro rfl
    rw [Arena.part?_build found, Option.some.injEq] at there
    exact inMemory (there ▸ spilled)

theorem outline_of_spillPartition
    {partition freed : Nat}
    {before after : Partitioned}
    (succeeds : (spillPartition partition).Succeeds before freed after) :
    after.outline = before.outline := by
  simp only [spillPartition, releaseBytes, Step.succeeds_bind, succeeds_record_iff] at succeeds
  obtain ⟨record, _, ⟨_, rfl⟩, succeeds⟩ := succeeds
  split at succeeds
  · rw [Step.succeeds_pure] at succeeds
    rw [succeeds.2]
  · simp only [Step.succeeds_bind, Step.succeeds_modify, Step.succeeds_pure] at succeeds
    obtain ⟨_, between, spilled, _, _, rfl, _, _, rfl, _, rfl⟩ := succeeds
    obtain ⟨_, _, acts⟩ := acts_of_onBuild spilled
    exact acts.outline

/-- Bytes are charged and partitions spilled between the states, and nothing else happens. -/
inductive MakesRoom (first : Partitioned) : Partitioned → Prop
  | refl : MakesRoom first first
  | charged
      {next last : Partitioned}
      {bytes : Nat}
      {granted : Bool} :
      MakesRoom first next →
      (tryCharge bytes).Succeeds next granted last →
      MakesRoom first last
  | spilled
      {next last : Partitioned}
      {partition freed : Nat} :
      MakesRoom first next →
      (spillPartition partition).Succeeds next freed last →
      MakesRoom first last

namespace MakesRoom

variable {first next last : Partitioned}

theorem spilledLargest
    (room : MakesRoom first next)
    (succeeds : spillLargest.Succeeds next () last) :
    MakesRoom first last := by
  simp only [spillLargest, Step.succeeds_bind, Step.succeeds_get] at succeeds
  obtain ⟨_, _, ⟨rfl, rfl⟩, succeeds⟩ := succeeds
  split at succeeds
  · simp only [Step.succeeds_bind, Step.succeeds_pure, true_and] at succeeds
    obtain ⟨_, _, spilled, rfl⟩ := succeeds
    exact room.spilled spilled
  · rw [Step.succeeds_pure] at succeeds
    exact succeeds.2 ▸ room

theorem outline (room : MakesRoom first last) : last.outline = first.outline := by
  induction room with
  | refl => rfl
  | charged _ charged inductionHypothesis =>
      exact (succeeds_tryCharge charged).outline.trans inductionHypothesis
  | spilled _ spilled inductionHypothesis =>
      exact (outline_of_spillPartition spilled).trans inductionHypothesis

/-- The rows in all slots are kept. -/
theorem holds
    {contents : Contents}
    (room : MakesRoom first last)
    (holds : first.Holds precise contents) :
    last.Holds precise contents ∧ first.Fills last [] := by
  induction room with
  | refl => exact ⟨holds, (Quiet.refl _).fills⟩
  | charged _ charged inductionHypothesis =>
      obtain ⟨held, fills⟩ := inductionHypothesis
      have quiet := succeeds_tryCharge charged
      exact ⟨quiet.holds held, fills.trans quiet.fills⟩
  | spilled _ spilled inductionHypothesis =>
      obtain ⟨held, fills⟩ := inductionHypothesis
      obtain ⟨stillHeld, more⟩ := succeeds_spillPartition spilled held
      exact ⟨stillHeld, fills.trans more⟩

end MakesRoom

/-- What a way of appending does: it adds the rows of a chunk of the declared schema to one slot. -/
def Appends
    (side : Side)
    (append : Nat → Chunk → Step Partitioned Unit) : Prop :=
  ∀ {precise : Prop} {partition : Nat} {chunk : Chunk} {before after : Partitioned}
    {contents : Contents} {declared : ProbeSide},
    (append partition chunk).Succeeds before () after →
    before.Holds precise contents →
    before.side? side = some declared →
    chunk.Suits precise declared.schema →
    after.Holds precise (contents.append (side, partition) chunk.rows) ∧
      before.Fills after [(side, partition)]

theorem appends_onBuild : Appends .build fun partition chunk =>
    onBuild partition (Partition.append chunk) := by
  intro precise partition chunk before after contents declared succeeds holds declares suits
  obtain ⟨old, new, acts⟩ := acts_of_onBuild succeeds
  exact acts.append holds declares suits

/-- Taking the charge back when an append fails has no effect when it succeeds. -/
theorem succeeds_appendCharged
    {partition bytes : Nat}
    {chunk : Chunk}
    {before after : Partitioned}
    (succeeds : (appendCharged partition bytes chunk).Succeeds before () after) :
    (onBuild partition (Partition.append chunk)).Succeeds before () after := by
  simp only [appendCharged, Step.succeeds_bind, Step.succeeds_attempt] at succeeds
  obtain ⟨result, between, appended, succeeds⟩ := succeeds
  cases result with
  | ok value =>
      rw [Step.succeeds_pure] at succeeds
      obtain ⟨_, rfl⟩ := succeeds
      exact appended
  | error status => simp at succeeds

/-- Appending to the build side makes room where it has to, and then appends. -/
theorem exists_makesRoom_of_appendBuild
    {partition : Nat}
    {chunk : Chunk}
    {before after : Partitioned}
    (succeeds : (appendBuild partition chunk).Succeeds before () after) :
    ∃ between, MakesRoom before between ∧
      (onBuild partition (Partition.append chunk)).Succeeds between () after := by
  simp only [appendBuild, Step.succeeds_bind, succeeds_record_iff] at succeeds
  obtain ⟨target, _, ⟨_, rfl⟩, succeeds⟩ := succeeds
  split at succeeds
  · exact ⟨_, .refl, succeeds⟩
  · rw [Step.succeeds_bind] at succeeds
    obtain ⟨granted, _, charged, succeeds⟩ := succeeds
    have room := MakesRoom.refl.charged charged
    split at succeeds
    · exact ⟨_, room, succeeds_appendCharged succeeds⟩
    · simp only [Step.succeeds_bind, succeeds_record_iff] at succeeds
      obtain ⟨_, _, made, target, _, ⟨_, rfl⟩, succeeds⟩ := succeeds
      have more := room.spilledLargest made
      split at succeeds
      · exact ⟨_, more, succeeds⟩
      · rw [Step.succeeds_bind] at succeeds
        obtain ⟨granted, _, charged, succeeds⟩ := succeeds
        have most := more.charged charged
        split at succeeds
        · exact ⟨_, most, succeeds_appendCharged succeeds⟩
        · simp only [Step.succeeds_bind] at succeeds
          obtain ⟨_, _, spilled, succeeds⟩ := succeeds
          exact ⟨_, most.spilled spilled, succeeds⟩

/-- Whatever is spilled to make room, appending adds the rows to the build side of the partition. -/
theorem appends_appendBuild : Appends .build appendBuild := by
  intro precise partition chunk before after contents declared succeeds holds declares suits
  obtain ⟨between, room, appended⟩ := exists_makesRoom_of_appendBuild succeeds
  obtain ⟨held, fills⟩ := room.holds holds
  obtain ⟨filled, more⟩ := appends_onBuild appended held
    (side?_of_outline fills.outline ▸ declares) suits
  exact ⟨filled, fills.trans more⟩

theorem outline_of_appendBuild
    {partition : Nat}
    {chunk : Chunk}
    {before after : Partitioned}
    (succeeds : (appendBuild partition chunk).Succeeds before () after) :
    after.outline = before.outline := by
  obtain ⟨between, room, appended⟩ := exists_makesRoom_of_appendBuild succeeds
  obtain ⟨_, _, acts⟩ := acts_of_onBuild appended
  exact acts.outline.trans room.outline

theorem appends_appendProbe : Appends .probe appendProbe := by
  intro precise partition chunk before after contents declared succeeds holds declares suits
  simp only [appendProbe, Step.succeeds_bind, Step.succeeds_get] at succeeds
  obtain ⟨_, _, ⟨rfl, rfl⟩, succeeds⟩ := succeeds
  obtain ⟨_, absent⟩ | ⟨old, new, acts⟩ := acts_of_onProbe succeeds
  · exact absurd absent (Step.succeeds_fail _ _ _ _)
  · exact acts.append holds declares suits

/-! ## Dealing out chunks -/

/-- Every slot gets the parts that are paired with its partition, in order. -/
theorem succeeds_deal
    {append : Nat → Chunk → Step Partitioned Unit}
    {pairs : List (Nat × Option Chunk)}
    {side : Side}
    {before after : Partitioned}
    {contents : Contents}
    {declared : ProbeSide}
    (succeeds : (deal append pairs).Succeeds before () after)
    (appends : Appends side append)
    (holds : before.Holds precise contents)
    (declares : before.side? side = some declared)
    (suits : ∀ partition part, (partition, some part) ∈ pairs → part.Suits precise declared.schema) :
    after.Holds precise (fun slot =>
        if slot.1 = side then
          contents slot ++ pairs.flatMap fun pair =>
            if pair.1 = slot.2 then Directory.partRows pair.2 else []
        else contents slot) ∧
      before.Fills after (pairs.map fun pair => (side, pair.1)) := by
  induction pairs generalizing before contents with
  | nil =>
      rw [deal, Step.succeeds_pure] at succeeds
      obtain ⟨_, rfl⟩ := succeeds
      exact ⟨by simpa using holds, (Quiet.refl _).fills⟩
  | cons pair rest inductionHypothesis =>
      obtain ⟨partition, part⟩ := pair
      have restSuits := fun other part member => suits other part (List.mem_cons_of_mem _ member)
      cases part with
      | none =>
          rw [deal] at succeeds
          obtain ⟨held, fills⟩ := inductionHypothesis succeeds holds declares restSuits
          refine ⟨?_, fills.mono fun slot member => List.mem_cons_of_mem _ member⟩
          simpa [Directory.partRows] using held
      | some part =>
          simp only [deal, Step.succeeds_bind] at succeeds
          obtain ⟨_, between, appended, succeeds⟩ := succeeds
          obtain ⟨first, fillsFirst⟩ := appends appended holds declares
            (suits partition part List.mem_cons_self)
          obtain ⟨held, fills⟩ := inductionHypothesis succeeds first
            (side?_of_outline fillsFirst.outline ▸ declares) restSuits
          refine ⟨?_, fillsFirst.trans fills⟩
          convert held using 1
          funext slot
          obtain ⟨other, number⟩ := slot
          by_cases here : other = side
          · subst here
            by_cases target : partition = number
            · subst target
              simp [Contents.append, Directory.partRows]
            · simp [Contents.append, target, Function.update_of_ne, Ne.symm target]
          · simp [Contents.append, here]

theorem outline_of_deal
    {append : Nat → Chunk → Step Partitioned Unit}
    {pairs : List (Nat × Option Chunk)}
    {before after : Partitioned}
    (succeeds : (deal append pairs).Succeeds before () after)
    (keeps : ∀ {partition chunk before after},
      (append partition chunk).Succeeds before () after → after.outline = before.outline) :
    after.outline = before.outline := by
  induction pairs generalizing before with
  | nil =>
      rw [deal, Step.succeeds_pure] at succeeds
      rw [succeeds.2]
  | cons pair rest inductionHypothesis =>
      obtain ⟨partition, part⟩ := pair
      cases part with
      | none =>
          rw [deal] at succeeds
          exact inductionHypothesis succeeds
      | some part =>
          simp only [deal, Step.succeeds_bind] at succeeds
          obtain ⟨_, between, appended, succeeds⟩ := succeeds
          exact (inductionHypothesis succeeds).trans (keeps appended)

/-- Dealing out a chunk adds rows to the given partitions only, and if its rows have different numbers, to
each the rows of its bucket. -/
theorem succeeds_route
    {append : Nat → Chunk → Step Partitioned Unit}
    {level : Nat}
    {key : String}
    {partitions : List Nat}
    {chunk : Chunk}
    {side : Side}
    {setting before after : Partitioned}
    {contents : Contents}
    {declared : ProbeSide}
    (succeeds :
      (route append (setting.directory level) key partitions chunk).Succeeds before () after)
    (appends : Appends side append)
    (holds : before.Holds precise contents)
    (declares : before.side? side = some declared)
    (keyed : setting.side? side = some declared)
    (named : key = declared.key)
    (suits : chunk.Suits precise declared.schema)
    (distinct : partitions.Nodup)
    (matching : partitions.length = setting.params.partitionCount) :
    ∃ filled, after.Holds precise filled ∧
      contents.Deals precise side partitions (fun row => partitions[setting.bucketOf side level row]?)
        chunk.rows filled ∧
      before.Fills after (partitions.map fun partition => (side, partition)) := by
  simp only [route, Step.succeeds_bind, Step.succeeds_ofExcept] at succeeds
  obtain ⟨parts, _, ⟨split, rfl⟩, dealt⟩ := succeeds
  have deals := Directory.deals_of_split split
  obtain ⟨held, fills⟩ := succeeds_deal dealt appends holds declares fun partition part member =>
    have inside := (List.of_mem_zip member).2
    ⟨(deals.schema_eq inside).trans suits.schema_eq, fun is => deals.numbered (suits.numbered is) inside⟩
  refine ⟨_, held, ⟨fun slot outside => ?others, fun is => ?routed⟩, ?fills⟩
  case others =>
    refine ite_eq_right_iff.mpr fun here => ?_
    rw [List.flatMap_eq_nil_iff.mpr, List.append_nil]
    intro pair inside
    refine if_neg fun same => outside ?_
    exact List.mem_map.mpr ⟨pair.1, (List.of_mem_zip inside).1, Prod.ext here.symm same⟩
  case routed =>
    funext slot
    rw [Directory.flatMap_partRows_zip distinct (deals.length_eq.trans matching.symm)
      (deals.rows_eq (suits.numbered is)) slot.2, suits.schema_eq, named]
    simp only [Contents.receive, bucketOf_of_side? keyed]
    rfl
  case fills =>
    refine fills.mono fun slot member => ?_
    obtain ⟨pair, inside, rfl⟩ := List.mem_map.mp member
    exact List.mem_map_of_mem (List.of_mem_zip inside).1

theorem getElem?_roots
    {input : Partitioned}
    {bucket : Nat}
    (bounded : bucket < input.params.partitionCount) :
    input.roots[bucket]? = some bucket := by
  rw [roots, List.getElem?_range bounded]

/-- A chunk of the build side adds rows to the build sides of the roots only, and if its rows have different
numbers, to each root the rows whose key is in its bucket. -/
theorem succeeds_addBuildChunk
    {chunk : Chunk}
    {before after : Partitioned}
    {contents : Contents}
    {value : Unit}
    (succeeds : (addBuildChunk chunk).Succeeds before value after)
    (holds : before.Holds precise contents)
    (suits : chunk.Suits precise before.buildSchema) :
    ∃ filled, after.Holds precise filled ∧
      contents.Deals precise .build before.roots (fun row => some (before.bucketOf .build 0 row))
        chunk.rows filled ∧
      before.Fills after (before.roots.map fun partition => (.build, partition)) := by
  simp only [addBuildChunk, Step.succeeds_bind, succeeds_checkCancelled, Step.succeeds_get]
    at succeeds
  obtain ⟨_, _, ⟨_, rfl⟩, _, _, ⟨rfl, rfl⟩, routed⟩ := succeeds
  have met := succeeds_route routed appends_appendBuild holds rfl rfl rfl suits List.nodup_range
    List.length_range
  simpa only [getElem?_roots (bucketOf_lt _ _ _ _)] using met

/-- Accepting rows changes neither what the input is set up for nor where its partitions stand,
whatever becomes of the store. -/
theorem outline_of_addBuildChunk
    {chunk : Chunk}
    {before after : Partitioned}
    {value : Unit}
    (succeeds : (addBuildChunk chunk).Succeeds before value after) :
    after.outline = before.outline := by
  simp only [addBuildChunk, route, Step.succeeds_bind, succeeds_checkCancelled, Step.succeeds_get,
    Step.succeeds_ofExcept] at succeeds
  obtain ⟨_, _, ⟨_, rfl⟩, _, _, ⟨rfl, rfl⟩, _, _, ⟨_, rfl⟩, dealt⟩ := succeeds
  exact outline_of_deal dealt outline_of_appendBuild

end Partitioned

end Spillway
