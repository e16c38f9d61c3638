import Mathlib.Data.List.Nodup
import Spillway.Proofs.Operator.Filling

/-!
# Splitting a partition

When a partition is split, its blocks are read one after the other and their rows dealt out to new
children, whatever is spilled meanwhile to make room: the partition at hand is spilled already, so it
stays as it is until it is given up. Every child that has build rows holds exactly the rows of its
bucket, in order, on both sides.
-/

namespace Spillway

/-- The outline in which one partition has another state. -/
def Outline.mark
    (outline : Outline)
    (partition : Nat)
    (state : PartitionState) : Outline :=
  { outline with
    place? := fun other =>
      if other = partition then (outline.place? other).map fun place => { place with state }
      else outline.place? other }

namespace Arena

/-- A partition that is added to an arena takes the next number, and is noted where it belongs. -/
theorem eq_of_add
    {arena grown : Arena}
    {record : PartitionRecord}
    {parent number : Nat}
    (child : record.parent = some parent)
    (added : arena.add record = .ok (number, grown)) :
    number = arena.size ∧ grown = (arena.modify parent fun above =>
      { above with children := above.children ++ [arena.size] }).push record := by
  simp only [Arena.add, child] at added
  split at added
  · obtain ⟨_, thrown, _⟩ := bind_eq_ok_iff.mp added
    exact absurd thrown throw_ne_ok
  obtain ⟨above, _, added⟩ := bind_eq_ok_iff.mp added
  split at added
  · obtain ⟨_, thrown, _⟩ := bind_eq_ok_iff.mp added
    exact absurd thrown throw_ne_ok
  rw [pure_eq_ok_iff, Prod.mk.injEq] at added
  exact ⟨added.1.symm, added.2.symm⟩

/-- A partition that is added to an arena leaves all others as they are. -/
theorem of_add
    {arena grown : Arena}
    {record : PartitionRecord}
    {parent number : Nat}
    (child : record.parent = some parent)
    (added : arena.add record = .ok (number, grown)) :
    number = arena.size ∧ grown.size = arena.size + 1 ∧
      (∀ slot, grown.part? slot =
        if slot.2 = arena.size then record.side slot.1 else arena.part? slot) ∧
      ∀ other, grown.place? other =
        if other = arena.size then some record.place else arena.place? other := by
  obtain ⟨rfl, rfl⟩ := eq_of_add child added
  refine ⟨rfl, by simp [size, push, modify], ?_, ?_⟩
  · intro slot
    simp only [part?, push, modify, Array.getElem?_push, Array.size_modify]
    by_cases here : slot.2 = arena.size
    · rw [if_pos here, if_pos (show slot.2 = arena.records.size from here)]
      rfl
    · rw [if_neg here, if_neg (show ¬ slot.2 = arena.records.size from here),
        Array.getElem?_modify]
      split <;> cases arena.records[slot.2]? <;> rfl
  · intro other
    simp only [place?, push, modify, Array.getElem?_push, Array.size_modify]
    by_cases here : other = arena.size
    · rw [if_pos here, if_pos (show other = arena.records.size from here)]
      rfl
    · rw [if_neg here, if_neg (show ¬ other = arena.records.size from here),
        Array.getElem?_modify]
      split <;> cases arena.records[other]? <;> rfl

end Arena

namespace Partitioned

variable {precise : Prop}

/-! ## States -/

/-- Moving a partition to another state changes no rows. -/
theorem succeeds_setState
    {partition : Nat}
    {state : PartitionState}
    {before after : Partitioned}
    {contents : Contents}
    {value : Unit}
    (succeeds : (setState partition state).Succeeds before value after)
    (holds : before.Holds precise contents) :
    after.Holds precise contents ∧ after.outline = before.outline.mark partition state ∧
      after.arena.part? = before.arena.part? := by
  simp only [setState, changeRecord, Step.succeeds_modify] at succeeds
  subst succeeds
  have same : (before.arena.modify partition fun record => { record with state }).part? =
      before.arena.part? :=
    Arena.part?_modify_of_sides _ _ fun _ => rfl
  refine ⟨?_, ?_, same⟩
  · have kept : Kept precise before.area.store before.side? before.arena.part? contents := holds
    rw [← same] at kept
    exact kept
  · simp only [outline, Outline.mark, Arena.size_modify, Outline.mk.injEq, true_and]
    refine ⟨rfl, ?_⟩
    funext other
    simp only [Arena.place?, Arena.modify, Array.getElem?_modify, eq_comm]
    split <;> cases before.arena.records[other]? <;> simp [PartitionRecord.place]

/-! ## Children -/

/-- Empty partitions were added at the end, one for each bucket. -/
structure Sprouts
    (before after : Partitioned)
    (parent level : Nat)
    (buckets : List Nat) : Prop where
  area : after.area = before.area
  params : after.params = before.params
  side? : after.side? = before.side?
  size : after.arena.size = before.arena.size + buckets.length
  part? : ∀ slot, slot.2 < before.arena.size → after.arena.part? slot = before.arena.part? slot
  place? : ∀ other, other < before.arena.size →
    after.arena.place? other = before.arena.place? other
  child : ∀ index bucket, buckets[index]? = some bucket →
    after.arena.place? (before.arena.size + index) = some ⟨some parent, level, bucket, .opened⟩
  empty : ∀ index < buckets.length,
    after.arena.part? (.build, before.arena.size + index) = some (.empty before.buildSchema)

/-- There is nothing beyond the last partition of an arena. -/
theorem part?_of_size_le
    {arena : Arena}
    {slot : Slot}
    (beyond : arena.size ≤ slot.2) :
    arena.part? slot = none := by
  rw [Arena.part?, Array.getElem?_eq_none (show arena.records.size ≤ slot.2 from beyond)]
  rfl

/-- A new record has an empty partition on every declared side, and none on the other. -/
theorem kept_of_add
    {input : Partitioned}
    {contents : Contents}
    {arena : Arena}
    {parent : Option Nat}
    {level bucket : Nat}
    (holds : input.Holds precise contents)
    (grown : ∀ slot, arena.part? slot =
      if slot.2 = input.arena.size then (input.newRecord parent level bucket).side slot.1
      else input.arena.part? slot) :
    Kept precise input.area.store input.side? arena.part? contents := by
  have free : ∀ side, input.arena.part? (side, input.arena.size) = none :=
    fun side => part?_of_size_le (Nat.le_refl _)
  have build := Kept.insert holds (free .build) rfl (Partition.holds_empty _ _) rfl
    fun other => absurd other Side.noConfusion
  cases declares : input.probeSide with
  | none =>
      convert build using 1
      funext slot
      obtain ⟨side, number⟩ := slot
      rw [grown]
      by_cases here : number = input.arena.size
      · subst here
        cases side with
        | build => simp [newRecord]
        | probe => simp [newRecord, declares, free]
      · simp [here]
  | some declared =>
      have freeProbe : Function.update input.arena.part? (.build, input.arena.size)
          (some (Partition.empty input.buildSchema)) (.probe, input.arena.size) = none := by
        simp [free]
      have both := build.insert freeProbe declares (Partition.holds_emptySpilled _ _) rfl
        fun _ => rfl
      convert both using 1
      funext slot
      obtain ⟨side, number⟩ := slot
      rw [grown]
      by_cases here : number = input.arena.size
      · subst here
        cases side with
        | build => simp [newRecord]
        | probe => simp [newRecord, declares]
      · simp [here]

/-- Adding children changes no rows. -/
theorem succeeds_addChildren
    {parent level : Nat}
    {buckets children : List Nat}
    {before after : Partitioned}
    {contents : Contents}
    (succeeds : (addChildren parent level buckets).Succeeds before children after)
    (holds : before.Holds precise contents) :
    children = (List.range buckets.length).map (before.arena.size + ·) ∧
      after.Holds precise contents ∧ before.Sprouts after parent level buckets := by
  induction buckets generalizing before children with
  | nil =>
      rw [addChildren, Step.succeeds_pure] at succeeds
      obtain ⟨rfl, rfl⟩ := succeeds
      exact ⟨rfl, holds, rfl, rfl, rfl, rfl, fun _ _ => rfl, fun _ _ => rfl, by simp, by simp⟩
  | cons bucket buckets inductionHypothesis =>
      simp only [addChildren, Step.succeeds_bind, Step.succeeds_get, succeeds_onArena_iff,
        Step.succeeds_pure] at succeeds
      obtain ⟨_, _, ⟨rfl, rfl⟩, child, between, ⟨arena, added, rfl⟩, others, _, rest, rfl, rfl⟩ :=
        succeeds
      obtain ⟨rfl, grown, parts, places⟩ := Arena.of_add rfl added
      have kept := kept_of_add holds parts
      obtain ⟨rfl, held, sprouts⟩ := inductionHypothesis rest kept
      have size := sprouts.size
      simp only [grown] at size
      refine ⟨?_, held, sprouts.area, sprouts.params, sprouts.side?, ?_, ?_, ?_, ?_, ?_⟩
      · simp only [List.length_cons, List.range_succ_eq_map, List.map_cons, List.map_map, grown,
          Nat.add_zero, List.cons.injEq, true_and]
        refine List.map_congr_left fun index _ => ?_
        simp only [Function.comp_apply]
        omega
      · rw [size, List.length_cons]
        omega
      · intro slot old
        rw [sprouts.part? slot (by rw [grown]; omega), parts, if_neg (Nat.ne_of_lt old)]
      · intro other old
        rw [sprouts.place? other (by rw [grown]; omega), places, if_neg (Nat.ne_of_lt old)]
      · intro index wanted found
        cases index with
        | zero =>
            rw [List.getElem?_cons_zero, Option.some.injEq] at found
            rw [sprouts.place? _ (by rw [grown]; omega), places, if_pos (Nat.add_zero _), ← found]
            rfl
        | succ index =>
            have there := sprouts.child index wanted found
            rwa [grown, Nat.add_assoc, Nat.add_comm 1] at there
      · intro index inside
        cases index with
        | zero =>
            rw [sprouts.part? _ (by rw [grown]; exact Nat.lt_succ_self _), parts,
              if_pos (Nat.add_zero _)]
            rfl
        | succ index =>
            have there := sprouts.empty index (Nat.lt_of_succ_lt_succ inside)
            rwa [grown, Nat.add_assoc, Nat.add_comm 1] at there

/-! ## Reading block by block -/

/-- What a way of reading blocks does: it yields what is at a position of the partition in a slot,
and changes nothing. -/
def Restores
    (slot : Slot)
    (restore : Nat → Step Partitioned (List Chunk)) : Prop :=
  ∀ {position : Nat} {before after : Partitioned} {chunks : List Chunk} {partition : Partition}
    {stored : List (List Chunk)},
    (restore position).Succeeds before chunks after →
    before.arena.part? slot = some partition →
    partition.Stored before.area.store stored →
    (partition.segments stored)[position]? = some chunks ∧ before.Quiet after

theorem Acts.restoreBlock
    {position : Nat}
    {slot : Slot}
    {before after : Partitioned}
    {chunks : List Chunk}
    {old partition : Partition}
    {new : Holding}
    {stored : List (List Chunk)}
    (acts : Acts (Partition.restoreBlock position) slot before chunks after old new)
    (found : before.arena.part? slot = some partition)
    (held : partition.Stored before.area.store stored) :
    (partition.segments stored)[position]? = some chunks ∧ before.Quiet after := by
  have same := acts.found
  rw [found, Option.some.injEq] at same
  subst same
  obtain ⟨read, unchanged, keeps⟩ := Partition.succeeds_restoreBlock acts.succeeds held
  exact ⟨read, acts.quiet unchanged keeps⟩

theorem restores_restoreBuildBlock (partition : Nat) :
    Restores (.build, partition) (restoreBuildBlock partition) := by
  intro position before after chunks found stored succeeds there held
  obtain ⟨old, new, acts⟩ := acts_of_onBuild succeeds
  exact acts.restoreBlock there held

theorem restores_restoreProbeBlock (partition : Nat) :
    Restores (.probe, partition) (restoreProbeBlock partition) := by
  intro position before after chunks found stored succeeds there held
  obtain ⟨missing, _⟩ | ⟨old, new, acts⟩ := acts_of_onProbe succeeds
  · rw [missing] at there
    cases there
  · exact acts.restoreBlock there held

/-- Dealing out chunks one after the other deals out the rows of all of them. -/
theorem succeeds_forM_route
    {append : Nat → Chunk → Step Partitioned Unit}
    {level : Nat}
    {key : String}
    {children : List Nat}
    {chunks : List Chunk}
    {side : Side}
    {setting before after : Partitioned}
    {contents : Contents}
    {declared : ProbeSide}
    {value : Unit}
    (succeeds : (chunks.forM (route append (setting.directory level) key children)).Succeeds
      before value after)
    (appends : Appends side append)
    (holds : before.Holds precise contents)
    (declares : before.side? side = some declared)
    (suits : ∀ chunk ∈ chunks, chunk.Suits precise declared.schema)
    (keyed : setting.side? side = some declared)
    (named : key = declared.key)
    (distinct : children.Nodup)
    (matching : children.length = setting.params.partitionCount) :
    ∃ filled, after.Holds precise filled ∧
      contents.Deals precise side children (fun row => children[setting.bucketOf side level row]?)
        (chunks.flatMap Chunk.rows) filled ∧
      before.Fills after (children.map fun child => (side, child)) := by
  induction chunks generalizing before contents with
  | nil =>
      rw [List.forM, Step.succeeds_pure] at succeeds
      obtain ⟨_, rfl⟩ := succeeds
      exact ⟨_, holds, .nil, (Quiet.refl _).fills.mono fun _ member => absurd member List.not_mem_nil⟩
  | cons chunk chunks inductionHypothesis =>
      rw [List.forM, Step.succeeds_bind] at succeeds
      obtain ⟨_, between, routed, succeeds⟩ := succeeds
      obtain ⟨kept, first, deals, fills⟩ := succeeds_route routed appends holds declares keyed named
        (suits chunk List.mem_cons_self) distinct matching
      obtain ⟨filled, held, rest, more⟩ := inductionHypothesis succeeds first
        (side?_of_outline fills.outline ▸ declares)
        fun other member => suits other (List.mem_cons_of_mem _ member)
      exact ⟨filled, held, deals.append rest, fills.again more⟩

/-- Dealing out blocks of a spilled partition deals out their rows to the children. The partition itself
is none of them, so it can be read to the end. -/
theorem succeeds_streamBlocks
    {restore : Nat → Step Partitioned (List Chunk)}
    {append : Nat → Chunk → Step Partitioned Unit}
    {level : Nat}
    {key : String}
    {children positions : List Nat}
    {side : Side}
    {slot : Slot}
    {setting before after : Partitioned}
    {contents : Contents}
    {declared : ProbeSide}
    {partition : Partition}
    {stored : List (List Chunk)}
    {value : Unit}
    (succeeds :
      (streamBlocks restore (route append (setting.directory level) key children) positions).Succeeds
        before value after)
    (restores : Restores slot restore)
    (appends : Appends side append)
    (holds : before.Holds precise contents)
    (declares : before.side? side = some declared)
    (keyed : setting.side? side = some declared)
    (named : key = declared.key)
    (distinct : children.Nodup)
    (matching : children.length = setting.params.partitionCount)
    (found : before.arena.part? slot = some partition)
    (spilled : partition.spilled = true)
    (apart : slot ∉ children.map fun child => (side, child))
    (held : partition.Stored before.area.store stored)
    (suits : ∀ segment ∈ partition.segments stored, ∀ chunk ∈ segment,
      chunk.Suits precise declared.schema) :
    ∃ filled, after.Holds precise filled ∧
      contents.Deals precise side children (fun row => children[setting.bucketOf side level row]?)
        (positions.flatMap fun position =>
          ((partition.segments stored)[position]?.getD []).flatMap Chunk.rows) filled ∧
      before.Fills after (children.map fun child => (side, child)) := by
  induction positions generalizing before contents with
  | nil =>
      rw [streamBlocks, Step.succeeds_pure] at succeeds
      obtain ⟨_, rfl⟩ := succeeds
      exact ⟨_, holds, .nil, (Quiet.refl _).fills.mono fun _ member => absurd member List.not_mem_nil⟩
  | cons position positions inductionHypothesis =>
      simp only [streamBlocks, Step.succeeds_bind, succeeds_checkCancelled] at succeeds
      obtain ⟨_, _, ⟨_, rfl⟩, chunks, between, restored, _, later, accepted, rest⟩ := succeeds
      obtain ⟨read, quiet⟩ := restores restored found held
      obtain ⟨kept, first, deals, fills⟩ := succeeds_forM_route accepted appends (quiet.holds holds)
        (side?_of_outline quiet.outline ▸ declares) (suits chunks (List.mem_of_getElem? read))
        keyed named distinct matching
      have both := (quiet.fills.mono fun _ member => absurd member List.not_mem_nil).again fills
      obtain ⟨filled, last, others, more⟩ := inductionHypothesis rest first
        (side?_of_outline both.outline ▸ declares) (both.steady slot _ apart found spilled)
        (held.keeps both.keeps fun _ _ => List.not_mem_nil)
      rw [List.flatMap_cons, read, Option.getD_some]
      exact ⟨filled, last, deals.append others, both.again more⟩

/-- All positions of a list together hold all of it. -/
theorem flatMap_range_getElem?
    {α : Type}
    (segments : List (List α)) :
    ((List.range segments.length).flatMap fun position => segments[position]?.getD []) =
      segments.flatten := by
  induction segments with
  | nil => rfl
  | cons segment segments inductionHypothesis =>
      rw [List.length_cons, List.range_succ_eq_map, List.flatMap_cons, List.flatMap_map,
        List.flatten_cons, ← inductionHypothesis]
      rfl

/-- Dealing out all blocks of a spilled partition deals out all its rows. -/
theorem succeeds_streamAll
    {restore : Nat → Step Partitioned (List Chunk)}
    {append : Nat → Chunk → Step Partitioned Unit}
    {level : Nat}
    {key : String}
    {children : List Nat}
    {side : Side}
    {number : Nat}
    {setting before after : Partitioned}
    {contents : Contents}
    {declared : ProbeSide}
    {partition : Partition}
    {value : Unit}
    (succeeds : (streamBlocks restore (route append (setting.directory level) key children)
      (List.range partition.blockCount)).Succeeds before value after)
    (restores : Restores (side, number) restore)
    (appends : Appends side append)
    (holds : before.Holds precise contents)
    (declares : before.side? side = some declared)
    (keyed : setting.side? side = some declared)
    (named : key = declared.key)
    (distinct : children.Nodup)
    (matching : children.length = setting.params.partitionCount)
    (found : before.arena.part? (side, number) = some partition)
    (spilled : partition.spilled = true)
    (apart : number ∉ children) :
    ∃ filled, after.Holds precise filled ∧
      contents.Deals precise side children (fun row => children[setting.bucketOf side level row]?)
        (contents (side, number)) filled ∧
      before.Fills after (children.map fun child => (side, child)) := by
  obtain ⟨other, same, partitionHolds⟩ := holds.holds _ _ found
  rw [declares, Option.some.injEq] at same
  subst same
  obtain ⟨stored, held, content, suits⟩ := partitionHolds.toStores.exists_segments spilled
  have met := succeeds_streamBlocks succeeds restores appends holds declares keyed named
    distinct matching found spilled (by simpa using apart) held suits
  rwa [← Partition.length_segments held, ← List.flatMap_assoc, flatMap_range_getElem?, content] at met

/-- Dealing out all probe blocks of a partition deals out its probe rows, if it has a probe side. -/
theorem succeeds_streamProbe
    {level number blocks : Nat}
    {children : List Nat}
    {setting before between after : Partitioned}
    {contents : Contents}
    {declared : ProbeSide}
    {value : Unit}
    (counted : (probeBlocks number).Succeeds before blocks between)
    (streamed : (streamBlocks (restoreProbeBlock number)
      (route appendProbe (setting.directory level) declared.key children)
      (List.range blocks)).Succeeds between value after)
    (holds : before.Holds precise contents)
    (declares : before.side? .probe = some declared)
    (keyed : setting.side? .probe = some declared)
    (distinct : children.Nodup)
    (matching : children.length = setting.params.partitionCount)
    (apart : number ∉ children) :
    ∃ filled, after.Holds precise filled ∧
      contents.Deals precise .probe children
        (fun row => children[setting.bucketOf .probe level row]?) (contents (.probe, number)) filled ∧
      before.Fills after (children.map fun child => (.probe, child)) := by
  simp only [probeBlocks, Step.succeeds_bind, succeeds_record_iff, Step.succeeds_pure] at counted
  obtain ⟨record, _, ⟨found, rfl⟩, rfl, rfl⟩ := counted
  have there := Arena.part?_probe found
  cases probe : record.probe with
  | none =>
      rw [probe] at there streamed
      simp only [Option.map_none, Option.getD_none, List.range_zero, streamBlocks,
        Step.succeeds_pure] at streamed
      obtain ⟨_, rfl⟩ := streamed
      rw [holds.absent _ there]
      exact ⟨_, holds, .nil, (Quiet.refl _).fills.mono fun _ member => absurd member List.not_mem_nil⟩
  | some partition =>
      rw [probe] at there streamed
      exact succeeds_streamAll streamed (restores_restoreProbeBlock number) appends_appendProbe holds
        declares keyed rfl distinct matching there (holds.spilled number partition there) apart

/-! ## Giving up rows -/

theorem succeeds_releaseBuild
    {partition : Nat}
    {before after : Partitioned}
    {contents : Contents}
    {value : Unit}
    (succeeds : (onBuild partition Partition.release).Succeeds before value after)
    (holds : before.Holds precise contents) :
    after.Holds precise (Function.update contents (.build, partition) []) ∧
      after.outline = before.outline ∧
      ∀ slot, slot.2 ≠ partition → after.arena.part? slot = before.arena.part? slot := by
  obtain ⟨old, new, acts⟩ := acts_of_onBuild succeeds
  exact ⟨acts.release holds, acts.outline, fun slot => acts.part?_others⟩

theorem succeeds_releaseProbe
    {partition : Nat}
    {before after : Partitioned}
    {contents : Contents}
    {value : Unit}
    (succeeds : (releaseProbe partition).Succeeds before value after)
    (holds : before.Holds precise contents) :
    after.Holds precise (Function.update contents (.probe, partition) []) ∧
      after.outline = before.outline ∧
      ∀ slot, slot.2 ≠ partition → after.arena.part? slot = before.arena.part? slot := by
  obtain ⟨missing, kept⟩ | ⟨old, new, acts⟩ := acts_of_onProbe succeeds
  · rw [Step.succeeds_pure] at kept
    obtain ⟨_, rfl⟩ := kept
    rw [← holds.absent _ missing, Function.update_eq_self]
    exact ⟨holds, rfl, fun _ _ => rfl⟩
  · exact ⟨acts.release holds, acts.outline, fun slot => acts.part?_others⟩

/-- A build side without counted rows is one without rows. -/
theorem isEmpty_build_iff
    {input : Partitioned}
    {contents : Contents}
    {partition : Nat}
    {record : PartitionRecord}
    (holds : input.Holds precise contents)
    (found : input.arena.records[partition]? = some record) :
    record.build.isEmpty = true ↔ contents (.build, partition) = [] := by
  obtain ⟨_, _, held⟩ := holds.holds _ _ (Arena.part?_build found)
  exact held.isEmpty_iff

/-- The contents in which those of the given partitions that have no build rows have no probe rows
either. -/
def dropProbes
    (contents : Contents)
    (children : List Nat) : Contents :=
  fun slot =>
    if slot.1 = .probe ∧ slot.2 ∈ children ∧ contents (.build, slot.2) = [] then []
    else contents slot

theorem dropProbes_nil (contents : Contents) : dropProbes contents [] = contents := by
  funext slot
  simp [dropProbes]

theorem dropProbes_build
    (contents : Contents)
    (children : List Nat)
    (partition : Nat) :
    dropProbes contents children (.build, partition) = contents (.build, partition) := by
  simp [dropProbes]

/-- Dropping the probe rows of a partition without build rows first makes no difference. -/
theorem dropProbes_cons_of_empty
    {contents : Contents}
    {child : Nat}
    (empty : contents (.build, child) = [])
    (children : List Nat) :
    dropProbes (Function.update contents (.probe, child) []) children =
      dropProbes contents (child :: children) := by
  funext slot
  obtain ⟨side, number⟩ := slot
  cases side with
  | build => simp [dropProbes_build, Function.update_of_ne]
  | probe =>
      by_cases here : number = child
      · subst here
        simp [dropProbes, empty]
      · simp [dropProbes, here, Function.update_of_ne]

/-- The probe rows of a partition with build rows stay. -/
theorem dropProbes_cons_of_rows
    {contents : Contents}
    {child : Nat}
    (rows : contents (.build, child) ≠ [])
    (children : List Nat) :
    dropProbes contents children = dropProbes contents (child :: children) := by
  funext slot
  obtain ⟨side, number⟩ := slot
  by_cases here : number = child
  · subst here
    simp [dropProbes, rows]
  · simp [dropProbes, here]

/-- The outline in which those of the given partitions that have no build rows are completed. -/
def completeEmpty
    (contents : Contents)
    (children : List Nat)
    (outline : Outline) : Outline :=
  { outline with
    place? := fun other =>
      if other ∈ children ∧ contents (.build, other) = [] then
        (outline.place? other).map fun place => { place with state := .completed }
      else outline.place? other }

theorem completeEmpty_nil
    (contents : Contents)
    (outline : Outline) :
    completeEmpty contents [] outline = outline := by
  simp [completeEmpty]

theorem completeEmpty_cons_of_empty
    {contents dropped : Contents}
    {child : Nat}
    {children : List Nat}
    (empty : contents (.build, child) = [])
    (same : ∀ other, dropped (.build, other) = contents (.build, other))
    (fresh : child ∉ children)
    (outline : Outline) :
    completeEmpty dropped children (outline.mark child .completed) =
      completeEmpty contents (child :: children) outline := by
  simp only [completeEmpty, Outline.mark, same]
  congr 1
  funext other
  by_cases here : other = child
  · subst here
    simp [empty, fresh]
  · simp [here]

theorem completeEmpty_cons_of_rows
    {contents : Contents}
    {child : Nat}
    (rows : contents (.build, child) ≠ [])
    (children : List Nat)
    (outline : Outline) :
    completeEmpty contents children outline = completeEmpty contents (child :: children) outline := by
  simp only [completeEmpty]
  congr 1
  funext other
  by_cases here : other = child
  · subst here
    simp [rows]
  · simp [here]

/-- Children without build rows are completed, and their probe rows dropped. -/
theorem succeeds_keepNonEmpty
    {children kept : List Nat}
    {before after : Partitioned}
    {contents : Contents}
    (succeeds : (keepNonEmpty children).Succeeds before kept after)
    (holds : before.Holds precise contents)
    (distinct : children.Nodup) :
    kept = children.filter (fun child => !(contents (.build, child)).isEmpty) ∧
      after.Holds precise (dropProbes contents children) ∧
      after.outline = completeEmpty contents children before.outline := by
  induction children generalizing before kept contents with
  | nil =>
      rw [keepNonEmpty, Step.succeeds_pure] at succeeds
      obtain ⟨rfl, rfl⟩ := succeeds
      exact ⟨rfl, (dropProbes_nil contents).symm ▸ holds, (completeEmpty_nil contents _).symm⟩
  | cons child children inductionHypothesis =>
      rw [List.nodup_cons] at distinct
      simp only [keepNonEmpty, Step.succeeds_bind, succeeds_record_iff] at succeeds
      obtain ⟨record, _, ⟨found, rfl⟩, succeeds⟩ := succeeds
      have empty := isEmpty_build_iff holds found
      split at succeeds
      · next none =>
        have none := empty.mp none
        have same : ∀ other, Function.update contents (.probe, child) [] (.build, other) =
            contents (.build, other) := fun other => Function.update_of_ne (by simp) _ _
        simp only [Step.succeeds_bind] at succeeds
        obtain ⟨_, marked, set, _, released, release, rest⟩ := succeeds
        obtain ⟨markedHolds, marks, _⟩ := succeeds_setState set holds
        obtain ⟨releasedHolds, stays, _⟩ := succeeds_releaseProbe release markedHolds
        obtain ⟨rfl, held, outline⟩ := inductionHypothesis rest releasedHolds distinct.2
        rw [stays, marks, completeEmpty_cons_of_empty none same distinct.1] at outline
        refine ⟨by simp [none], ?_, outline⟩
        rw [← dropProbes_cons_of_empty none]
        exact held
      · next counted =>
        have rows : contents (.build, child) ≠ [] := fun none => counted (empty.mpr none)
        simp only [Step.succeeds_bind, Step.succeeds_pure] at succeeds
        obtain ⟨others, _, rest, rfl, rfl⟩ := succeeds
        obtain ⟨rfl, held, outline⟩ := inductionHypothesis rest holds distinct.2
        rw [← dropProbes_cons_of_rows rows, ← completeEmpty_cons_of_rows rows]
        exact ⟨by simp [rows], held, outline⟩

/-- After its rows were dealt out, a partition is given up, and with it the children without build
rows. -/
theorem succeeds_giveUp
    {partition : Nat}
    {children kept : List Nat}
    {before after : Partitioned}
    {contents : Contents}
    (succeeds : (do
      onBuild partition Partition.release
      releaseProbe partition
      setState partition .repartitioned
      modify fun input => { input with repartitions := input.repartitions + 1 }
      keepNonEmpty children : Step Partitioned (List Nat)).Succeeds before kept after)
    (holds : before.Holds precise contents)
    (distinct : children.Nodup) :
    ∃ left : Contents, (∀ side, left (side, partition) = []) ∧
      (∀ side other, other ≠ partition → left (side, other) = contents (side, other)) ∧
      kept = children.filter (fun child => !(left (.build, child)).isEmpty) ∧
      after.Holds precise (dropProbes left children) ∧
      after.outline = completeEmpty left children (before.outline.mark partition .repartitioned) := by
  simp only [Step.succeeds_bind, Step.succeeds_modify] at succeeds
  obtain ⟨_, first, releaseBuild, _, second, releaseProbe, _, third, set, _, _, rfl, kept⟩ :=
    succeeds
  obtain ⟨firstHolds, firstSame, _⟩ := succeeds_releaseBuild releaseBuild holds
  obtain ⟨secondHolds, secondSame, _⟩ := succeeds_releaseProbe releaseProbe firstHolds
  obtain ⟨thirdHolds, thirdSame, _⟩ := succeeds_setState set secondHolds
  obtain ⟨rfl, held, outline⟩ := succeeds_keepNonEmpty kept thirdHolds distinct
  have whole : third.outline = before.outline.mark partition .repartitioned := by
    rw [thirdSame, secondSame, firstSame]
  refine ⟨_, fun side => ?_, fun side other different => ?_, rfl, held,
    outline.trans (congrArg _ whole)⟩
  · cases side <;> simp [Function.update_of_ne]
  · rw [Function.update_of_ne (by simp [different]), Function.update_of_ne (by simp [different])]

/-! ## Splitting -/

/-- A partition was split into one child for each bucket of the next level, and children without build rows
are completed. Where this is to be `precise`, its rows have moved to the children, each to the one of its
bucket; only a child without build rows has lost its probe rows. -/
structure Divides
    (precise : Prop)
    (before after : Partitioned)
    (partition : Nat)
    (place : PartitionPlace)
    (contents divided : Contents) : Prop where
  params : after.params = before.params
  side? : after.side? = before.side?
  size : after.arena.size = before.arena.size + before.params.partitionCount
  holds : after.Holds precise divided
  emptied : ∀ side, divided (side, partition) = []
  others : ∀ side other, other < before.arena.size → other ≠ partition →
    divided (side, other) = contents (side, other)
  build : precise → ∀ bucket < before.params.partitionCount,
    divided (.build, before.arena.size + bucket) =
      (contents (.build, partition)).filter fun row =>
        before.bucketOf .build (place.level + 1) row = bucket
  probe : precise → ∀ bucket < before.params.partitionCount,
    divided (.build, before.arena.size + bucket) ≠ [] →
    divided (.probe, before.arena.size + bucket) =
      (contents (.probe, partition)).filter fun row =>
        before.bucketOf .probe (place.level + 1) row = bucket
  split : after.arena.place? partition = some { place with state := .repartitioned }
  places : ∀ other < before.arena.size, other ≠ partition →
    after.arena.place? other = before.arena.place? other
  child : ∀ bucket < before.params.partitionCount,
    after.arena.place? (before.arena.size + bucket) =
      some ⟨some partition, place.level + 1, bucket,
        if divided (.build, before.arena.size + bucket) = [] then .completed else .opened⟩

/-- The children of a partition that is split next. -/
def nextChildren (input : Partitioned) : List Nat :=
  (List.range input.params.partitionCount).map (input.arena.size + ·)

theorem getElem?_nextChildren
    {input : Partitioned}
    {bucket : Nat}
    (bounded : bucket < input.params.partitionCount) :
    input.nextChildren[bucket]? = some (input.arena.size + bucket) := by
  rw [nextChildren, List.getElem?_map, List.getElem?_range bounded, Option.map_some]

theorem length_nextChildren (input : Partitioned) :
    input.nextChildren.length = input.params.partitionCount := by
  rw [nextChildren, List.length_map, List.length_range]

theorem nodup_nextChildren (input : Partitioned) : input.nextChildren.Nodup := by
  refine List.Nodup.map ?_ List.nodup_range
  intro one another same
  simpa using same

theorem mem_nextChildren
    {input : Partitioned}
    {child : Nat} :
    child ∈ input.nextChildren ↔
      ∃ bucket < input.params.partitionCount, input.arena.size + bucket = child := by
  simp [nextChildren]

/-- A child was empty, so it holds what it has received: the rows of its bucket. -/
theorem receive_nextChildren
    {input : Partitioned}
    {contents : Contents}
    {side : Side}
    {level bucket : Nat}
    {rows : List Row}
    (none : contents (side, input.arena.size + bucket) = []) :
    contents.receive side (fun row => input.nextChildren[input.bucketOf side level row]?) rows
        (side, input.arena.size + bucket) =
      rows.filter fun row => input.bucketOf side level row = bucket := by
  rw [Contents.receive, if_pos rfl, none, List.nil_append]
  apply List.filter_congr
  intro row _
  rw [getElem?_nextChildren (bucketOf_lt _ _ _ _), decide_eq_decide]
  simp

/-- The rows of a partition dealt out to children that were added for it, before it is given up. -/
structure Dealt
    (precise : Prop)
    (before dealt : Partitioned)
    (partition : Nat)
    (place : PartitionPlace)
    (contents full : Contents) : Prop where
  params : dealt.params = before.params
  side? : dealt.side? = before.side?
  size : dealt.arena.size = before.arena.size + before.params.partitionCount
  holds : dealt.Holds precise full
  others : ∀ side other, other < before.arena.size → full (side, other) = contents (side, other)
  child : precise → ∀ side, ∀ bucket < before.params.partitionCount,
    full (side, before.arena.size + bucket) =
      (contents (side, partition)).filter fun row =>
        before.bucketOf side (place.level + 1) row = bucket
  places : ∀ other < before.arena.size,
    dealt.arena.place? other = (before.outline.mark partition .pinned).place? other
  childPlace : ∀ bucket < before.params.partitionCount,
    dealt.arena.place? (before.arena.size + bucket) =
      some ⟨some partition, place.level + 1, bucket, .opened⟩

/-- Dealing out the build blocks and then the probe blocks, if there is a probe side. -/
theorem succeeds_dealOut
    {α : Type}
    {rest : Step Partitioned α}
    {partition level blocks : Nat}
    {children : List Nat}
    {setting before between after : Partitioned}
    {contents : Contents}
    {value : Unit}
    {result : α}
    (streamed : (streamBlocks (restoreBuildBlock partition)
      (route appendBuild (setting.directory level) setting.buildKey children)
      (List.range blocks)).Succeeds before value between)
    (continued : (match setting.probeSide with
      | none => rest
      | some side => do
        let blocks ← probeBlocks partition
        streamBlocks (restoreProbeBlock partition)
          (route appendProbe (setting.directory level) side.key children) (List.range blocks)
        rest : Step Partitioned α).Succeeds between result after)
    (holds : before.Holds precise contents)
    (side? : before.side? = setting.side?)
    {build : Partition}
    (found : before.arena.part? (.build, partition) = some build)
    (counted : build.blockCount = blocks)
    (spilled : build.spilled = true)
    (distinct : children.Nodup)
    (matching : children.length = setting.params.partitionCount)
    (apart : partition ∉ children) :
    ∃ dealt built full, rest.Succeeds dealt result after ∧ dealt.outline = before.outline ∧
      dealt.Holds precise full ∧
      contents.Deals precise .build children (fun row => children[setting.bucketOf .build level row]?)
        (contents (.build, partition)) built ∧
      built.Deals precise .probe children (fun row => children[setting.bucketOf .probe level row]?)
        (contents (.probe, partition)) full := by
  subst counted
  obtain ⟨built, held, deals, fills⟩ := succeeds_streamAll streamed
    (restores_restoreBuildBlock partition) appends_appendBuild holds (congrFun side? .build) rfl rfl
    distinct matching found spilled apart
  have unchanged : built (.probe, partition) = contents (.probe, partition) :=
    deals.others _ (by simp)
  have sides : between.side? .probe = setting.probeSide :=
    congrFun ((side?_of_outline fills.outline).trans side?) .probe
  rw [← unchanged]
  cases declares : setting.probeSide with
  | none =>
      rw [declares] at continued sides
      have missing : between.arena.part? (.probe, partition) = none := by
        cases part : between.arena.part? (.probe, partition) with
        | none => rfl
        | some probe =>
            obtain ⟨_, declared, _⟩ := held.holds _ _ part
            rw [sides] at declared
            cases declared
      refine ⟨between, built, built, continued, fills.outline, held, deals, ?_⟩
      rw [held.absent _ missing]
      exact .nil
  | some declared =>
      rw [declares] at continued sides
      simp only [Step.succeeds_bind] at continued
      obtain ⟨_, _, counted, _, dealt, streamed, continued⟩ := continued
      obtain ⟨full, fullHeld, more, stores⟩ := succeeds_streamProbe counted streamed held sides declares
        distinct matching apart
      exact ⟨dealt, built, full, continued, stores.outline.trans fills.outline, fullHeld, deals, more⟩

theorem notMem_nextChildren
    {input : Partitioned}
    {partition : Nat}
    (known : partition < input.arena.size) :
    partition ∉ input.nextChildren := by
  intro member
  obtain ⟨bucket, _, same⟩ := mem_nextChildren.mp member
  omega

/-- Giving up a partition whose rows were dealt out completes the split. -/
theorem Dealt.divides
    {before dealt after : Partitioned}
    {partition : Nat}
    {place : PartitionPlace}
    {children : List Nat}
    {contents full : Contents}
    (deals : before.Dealt precise dealt partition place contents full)
    (succeeds : (do
      onBuild partition Partition.release
      releaseProbe partition
      setState partition .repartitioned
      modify fun input => { input with repartitions := input.repartitions + 1 }
      keepNonEmpty before.nextChildren : Step Partitioned (List Nat)).Succeeds dealt children after)
    (known : partition < before.arena.size)
    (placed : before.arena.place? partition = some place) :
    ∃ divided, before.Divides precise after partition place contents divided ∧
      children = before.nextChildren.filter fun child => !(divided (.build, child)).isEmpty := by
  have apart := notMem_nextChildren known
  obtain ⟨left, emptied, others, rfl, holds, outline⟩ :=
    succeeds_giveUp succeeds deals.holds (nodup_nextChildren before)
  have inside : ∀ bucket < before.params.partitionCount,
      before.arena.size + bucket ∈ before.nextChildren :=
    fun bucket bounded => mem_nextChildren.mpr ⟨bucket, bounded, rfl⟩
  have different : ∀ bucket, before.arena.size + bucket ≠ partition := by omega
  have places : after.arena.place? = _ := congrArg Outline.place? outline
  refine ⟨dropProbes left before.nextChildren,
    { params := (congrArg Outline.params outline).trans deals.params
      side? := (congrArg Outline.side? outline).trans deals.side?
      size := (congrArg Outline.size outline).trans deals.size
      holds
      emptied := fun side => by simp [dropProbes, emptied]
      others := fun side other old apart => ?others
      build := fun is bucket bounded => ?build
      probe := fun is bucket bounded rows => ?probe
      split := ?split
      places := fun other old apart => ?places
      child := fun bucket bounded => ?child }, ?kept⟩
  case others =>
    rw [dropProbes, if_neg fun dropped => notMem_nextChildren old dropped.2.1,
      others side other apart, deals.others side other old]
  case build =>
    rw [dropProbes_build, others .build _ (different bucket), deals.child is .build bucket bounded]
  case probe =>
    rw [dropProbes_build] at rows
    rw [dropProbes, if_neg fun dropped => rows dropped.2.2, others .probe _ (different bucket),
      deals.child is .probe bucket bounded]
  case split =>
    have pinned : dealt.outline.place? partition = some { place with state := .pinned } :=
      (deals.places partition known).trans (by simp [Outline.mark, Partitioned.outline, placed])
    simp only [places, completeEmpty, apart, false_and, if_false, Outline.mark, if_true, pinned,
      Option.map_some]
  case places =>
    have same := deals.places other old
    simp only [Outline.mark, apart, if_false] at same
    simp only [places, completeEmpty, notMem_nextChildren old, false_and, if_false, Outline.mark, apart]
    exact same
  case child =>
    have opened : dealt.outline.place? (before.arena.size + bucket) = _ :=
      deals.childPlace bucket bounded
    simp only [places, completeEmpty, dropProbes_build, inside bucket bounded, true_and, Outline.mark,
      different bucket, if_false, opened]
    split <;> rfl
  case kept =>
    simp only [dropProbes_build]

/-- A partition that is split is pinned and has got its children, and no row was dealt out to them yet. -/
structure Begins
    (precise : Prop)
    (before begun : Partitioned)
    (partition : Nat)
    (place : PartitionPlace)
    (contents : Contents) : Prop where
  area : begun.area = before.area
  params : begun.params = before.params
  side? : begun.side? = before.side?
  size : begun.arena.size = before.arena.size + before.params.partitionCount
  holds : begun.Holds precise contents
  part? : ∀ slot, slot.2 < before.arena.size → begun.arena.part? slot = before.arena.part? slot
  empty : ∀ bucket < before.params.partitionCount,
    begun.arena.part? (.build, before.arena.size + bucket) = some (.empty before.buildSchema)
  places : ∀ other < before.arena.size,
    begun.arena.place? other = (before.outline.mark partition .pinned).place? other
  childPlace : ∀ bucket < before.params.partitionCount,
    begun.arena.place? (before.arena.size + bucket) =
      some ⟨some partition, place.level + 1, bucket, .opened⟩

theorem begins_of_succeeds
    {partition : Nat}
    {children : List Nat}
    {before pinned begun : Partitioned}
    {contents : Contents}
    (place : PartitionPlace)
    (pin : (setState partition .pinned).Succeeds before () pinned)
    (sprout : (addChildren partition (place.level + 1) (List.range before.params.partitionCount)).Succeeds
      pinned children begun)
    (holds : before.Holds precise contents) :
    children = before.nextChildren ∧ before.Begins precise begun partition place contents := by
  obtain ⟨pinnedHolds, outline, parts⟩ := succeeds_setState pin holds
  obtain ⟨rfl, begunHolds, sprouts⟩ := succeeds_addChildren sprout pinnedHolds
  simp only [setState, changeRecord, Step.succeeds_modify] at pin
  have size : pinned.arena.size = before.arena.size := congrArg Outline.size outline
  have schema : pinned.buildSchema = before.buildSchema := by rw [← pin]
  refine ⟨by rw [size, List.length_range, nextChildren], ?_⟩
  exact
    { area := by rw [sprouts.area, ← pin]
      params := sprouts.params.trans (congrArg Outline.params outline)
      side? := sprouts.side?.trans (congrArg Outline.side? outline)
      size := by rw [sprouts.size, size, List.length_range]
      holds := begunHolds
      part? := fun slot old => by rw [sprouts.part? slot (size ▸ old), parts]
      empty := fun bucket bounded => by
        rw [← size, ← schema]
        exact sprouts.empty bucket (by rwa [List.length_range])
      places := fun other old => by
        rw [sprouts.place? other (size ▸ old)]
        exact congrFun (congrArg Outline.place? outline) other
      childPlace := fun bucket bounded => by
        rw [← size]
        exact sprouts.child bucket bucket (List.getElem?_range bounded) }

/-- A split that is met adds the children, deals out the build blocks and then the probe blocks, and gives
the partition up. -/
theorem exists_begins_of_repartition
    {partition : Nat}
    {children : List Nat}
    {before after : Partitioned}
    {contents : Contents}
    {record : PartitionRecord}
    (succeeds : (repartition partition).Succeeds before children after)
    (holds : before.Holds precise contents)
    (found : before.arena.records[partition]? = some record) :
    ∃ begun built, before.Begins precise begun partition record.place contents ∧
      (streamBlocks (restoreBuildBlock partition)
        (route appendBuild (before.directory (record.level + 1)) before.buildKey before.nextChildren)
        (List.range record.build.blockCount)).Succeeds begun () built ∧
      (do
        match before.probeSide with
        | none => pure ()
        | some side =>
          let blocks ← probeBlocks partition
          streamBlocks (restoreProbeBlock partition)
            (route appendProbe (before.directory (record.level + 1)) side.key before.nextChildren)
            (List.range blocks)
        onBuild partition Partition.release
        releaseProbe partition
        setState partition .repartitioned
        modify fun input => { input with repartitions := input.repartitions + 1 }
        keepNonEmpty before.nextChildren : Step Partitioned (List Nat)).Succeeds built children after := by
  have known : partition < before.arena.size := (Array.getElem?_eq_some_iff.mp found).1
  simp only [repartition, Step.succeeds_bind, succeeds_record_iff, Step.succeeds_get] at succeeds
  obtain ⟨_, _, ⟨same, rfl⟩, _, _, ⟨rfl, rfl⟩, succeeds⟩ := succeeds
  rw [found, Option.some.injEq] at same
  subst same
  split at succeeds
  · simp at succeeds
  simp only [Step.succeeds_bind, succeeds_record_iff] at succeeds
  obtain ⟨_, _, pin, _, begun, sprout, _, _, ⟨there, rfl⟩, _, built, stream, rest⟩ := succeeds
  obtain ⟨rfl, begins⟩ := begins_of_succeeds record.place pin sprout holds
  have source := begins.part? (.build, partition) known
  rw [Arena.part?_build found, Arena.part?_build there, Option.some.injEq] at source
  rw [source] at stream
  exact ⟨begun, built, begins, stream, rest⟩

/-- Splitting a spilled partition moves its rows to its children and changes nothing else. -/
theorem succeeds_repartition
    {partition : Nat}
    {children : List Nat}
    {before after : Partitioned}
    {contents : Contents}
    {record : PartitionRecord}
    (succeeds : (repartition partition).Succeeds before children after)
    (holds : before.Holds precise contents)
    (found : before.arena.records[partition]? = some record)
    (spilled : record.build.spilled = true) :
    ∃ divided, before.Divides precise after partition record.place contents divided ∧
      children = before.nextChildren.filter fun child => !(divided (.build, child)).isEmpty := by
  have known : partition < before.arena.size := (Array.getElem?_eq_some_iff.mp found).1
  obtain ⟨begun, built, begins, stream, rest⟩ := exists_begins_of_repartition succeeds holds found
  obtain ⟨dealt, built, full, givenUp, outline, held, deals, more⟩ :=
    succeeds_dealOut stream rest begins.holds begins.side?
      ((begins.part? _ known).trans (Arena.part?_build found)) rfl spilled (nodup_nextChildren _)
      (length_nextChildren _) (notMem_nextChildren known)
  have free : ∀ side bucket, contents (side, before.arena.size + bucket) = [] :=
    fun side bucket => holds.absent _ (part?_of_size_le (Nat.le_add_right _ _))
  refine Dealt.divides
    { params := (params_of_outline outline).trans begins.params
      side? := (side?_of_outline outline).trans begins.side?
      size := (size_of_outline outline).trans begins.size
      holds := held
      others := fun side other old => ?others
      child := fun is side bucket bounded => ?child
      places := fun other old => (congrFun (place?_of_outline outline) other).trans (begins.places other old)
      childPlace := fun bucket bounded =>
        (congrFun (place?_of_outline outline) _).trans (begins.childPlace bucket bounded) }
    givenUp known (Arena.place?_of_record found)
  case others =>
    have outside := notMem_nextChildren old
    rw [more.others _ (by simp [outside]), deals.others _ (by simp [outside])]
  case child =>
    rw [more.routed is, deals.routed is]
    cases side with
    | build =>
        rw [Contents.receive, if_neg (by simp), receive_nextChildren (free .build bucket)]
        rfl
    | probe =>
        rw [receive_nextChildren]
        · rfl
        · rw [Contents.receive, if_neg (by simp), free]

end Partitioned

end Spillway
