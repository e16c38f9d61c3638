import Spillway.Proofs.Operator.Fed
import Spillway.Proofs.Partition.Sequence

/-!
# Chunks that stay together

Rows of one key belong to one bucket of a level, so a chunk of such rows is not taken apart when it is
dealt out: all of it goes to one partition. A partition lists the chunks that it was given, whatever is
spilled to make room for them. If all its rows have one key, then splitting it moves its chunks to one of
its children, in order and each as it was.
-/

namespace Spillway

open Step

namespace Partition

variable {holding : Holding}

/-- Spilling gives up no blocks. -/
theorem ends_spill_keeps (holding : Holding) :
    spill.Ends holding (fun _ after => holding.area.store.Keeps after.area.store [])
      fun _ after => holding.area.store.Keeps after.area.store [] := by
  rw [spill, ends_bind, ends_current, ends_ite]
  refine ⟨fun _ => .refl _, fun _ => ?_⟩
  dsimp only
  rw [ends_ite]
  refine ⟨fun _ => .refl _, fun _ => ?_⟩
  rw [ends_bind, onArea, ends_focus]
  exact (SpillArea.ends_spill _ _ holding.area).mono (fun _ _ gains => gains.keeps)
    fun _ _ unwritten => unwritten.1.keeps

/-- Neither does appending. -/
theorem ends_append_keeps
    (chunk : Chunk)
    (holding : Holding) :
    (append chunk).Ends holding (fun _ after => holding.area.store.Keeps after.area.store [])
      fun _ after => holding.area.store.Keeps after.area.store [] := by
  rw [append, ends_ite]
  refine ⟨fun _ => .refl _, fun _ => ?_⟩
  rw [ends_bind, ends_current]
  dsimp only
  rw [ends_ite]
  refine ⟨fun _ => ?_, fun _ => ?_⟩
  · rw [ends_bind, appendPending, ends_bind, change, ends_modify, ends_bind, ends_get, ends_ite]
    refine ⟨fun _ => ?_, fun _ => .refl _⟩
    rw [flush, ends_bind, ends_current, ends_ite]
    refine ⟨fun _ => .refl _, fun _ => ?_⟩
    rw [ends_bind, onArea, ends_focus]
    exact (SpillArea.ends_spill _ _ holding.area).mono (fun _ _ gains => gains.keeps)
      fun _ _ unwritten => unwritten.1.keeps
  · rw [ends_bind, appendInMemory, change, ends_modify]
    exact .refl _

end Partition

namespace Partitioned

variable {input before after : Partitioned} {partition child bucket : Nat} {record : PartitionRecord}
  {schema : Schema} {chunks : List Chunk} {chunk : Chunk} {declared : ProbeSide}

/-! ## Dealing out to one partition -/

section Deal

variable {append : Nat → Chunk → Step Partitioned Unit} {pairs : List (Nat × Option Chunk)}

theorem deal_of_none (none : ∀ pair ∈ pairs, pair.2 = none) : deal append pairs = pure () := by
  induction pairs with
  | nil => rfl
  | cons pair rest inductionHypothesis =>
      obtain ⟨other, part⟩ := pair
      obtain rfl : part = Option.none := none _ List.mem_cons_self
      exact inductionHypothesis fun pair member => none pair (List.mem_cons_of_mem _ member)

/-- Where there is one part only, dealing out is appending it. -/
theorem deal_of_single
    (distinct : (pairs.map Prod.fst).Nodup)
    (member : (partition, some chunk) ∈ pairs)
    (only : ∀ other part, (other, some part) ∈ pairs → other = partition) :
    deal append pairs = append partition chunk := by
  induction pairs with
  | nil => cases member
  | cons pair rest inductionHypothesis =>
      rw [List.map_cons, List.nodup_cons] at distinct
      have restOnly := fun other part member => only other part (List.mem_cons_of_mem _ member)
      obtain here | later := List.mem_cons.mp member
      · obtain rfl := here
        have none : ∀ pair ∈ rest, pair.2 = none := by
          rintro ⟨other, part⟩ again
          cases part with
          | none => rfl
          | some part =>
              obtain rfl := restOnly other part again
              exact absurd (List.mem_map_of_mem again) distinct.1
        rw [deal, deal_of_none none]
        exact bind_pure_unit
      · obtain ⟨other, part⟩ := pair
        cases part with
        | none => exact inductionHypothesis distinct.2 later restOnly
        | some part =>
            obtain rfl := only other part List.mem_cons_self
            exact absurd (List.mem_map_of_mem later) distinct.1

end Deal

/-- A chunk whose rows all belong to one bucket goes to one partition. -/
theorem route_of_together
    {directory : Directory}
    {partitions : List Nat}
    (append : Nat → Chunk → Step Partitioned Unit)
    (keyed : declared.Keyed)
    (fits : chunk.schema = declared.schema)
    (full : chunk.isEmpty = false)
    (distinct : partitions.Nodup)
    (matching : partitions.length = directory.fanOut)
    (target : partitions[bucket]? = some partition)
    (together : ∀ row ∈ chunk.rows, directory.bucketOfKey (declared.keyOf row) = bucket) :
    route append directory declared.key partitions chunk = append partition chunk := by
  obtain ⟨parts, split⟩ := keyed.exists_split fits directory
  have deals := Directory.deals_of_split split
  have lengths : partitions.length = parts.length := matching.trans deals.length_eq.symm
  have slots : ∀ index part, parts[index]? = some part →
      part = if index = bucket then some chunk else none :=
    fun index part => deals.slot_eq full fun row member => by
      rw [fits]
      exact together row member
  have whole : parts[bucket]? = some (some chunk) := by
    have inside : bucket < parts.length := lengths ▸ (List.getElem?_eq_some_iff.mp target).1
    have found : parts[bucket]? = some parts[bucket] := List.getElem?_eq_getElem inside
    rw [found, slots bucket _ found, if_pos rfl]
  rw [route, split]
  refine (pure_bind _ _).trans (deal_of_single ?_ ?_ fun other part member => ?_)
  · rwa [List.map_fst_zip (Nat.le_of_eq lengths)]
  · exact List.mem_of_getElem? (List.getElem?_zip_eq_some.mpr ⟨target, whole⟩)
  · obtain ⟨index, found⟩ := List.mem_iff_getElem?.mp member
    obtain ⟨numbered, placed⟩ := List.getElem?_zip_eq_some.mp found
    have same := slots index _ placed
    split at same
    · next here =>
      rw [here, target, Option.some.injEq] at numbered
      exact numbered.symm
    · cases same

/-! ## What a partition lists -/

/-- The build side of a partition lists the chunks. -/
def Tracks
    (schema : Schema)
    (partition : Nat)
    (chunks : List Chunk)
    (input : Partitioned) : Prop :=
  ∃ part, input.arena.part? (.build, partition) = some part ∧
    Partition.Tracks schema chunks ⟨part, input.area⟩

theorem Tracks.elsewhere
    (tracks : before.Tracks schema partition chunks)
    (same : after.arena.part? (.build, partition) = before.arena.part? (.build, partition))
    (format : after.area.store.format = before.area.store.format)
    (faithful : after.area.store.damage = [])
    (kept : ∀ part, before.arena.part? (.build, partition) = some part →
      ∀ path ∈ part.paths, ∀ bytes,
        before.area.store.block? path = some bytes → after.area.store.block? path = some bytes) :
    after.Tracks schema partition chunks := by
  obtain ⟨part, found, lists⟩ := tracks
  exact ⟨part, same.trans found, lists.toLists.elsewhere format faithful (kept part found),
    lists.counted⟩

theorem Tracks.keeps
    (tracks : before.Tracks schema partition chunks)
    (same : after.arena.part? (.build, partition) = before.arena.part? (.build, partition))
    (keeps : before.area.store.Keeps after.area.store []) :
    after.Tracks schema partition chunks := by
  obtain ⟨part, found, lists⟩ := tracks
  exact ⟨part, same.trans found, lists.keeps keeps⟩

theorem Tracks.exists_record
    (tracks : input.Tracks schema partition chunks) :
    ∃ record, input.arena.records[partition]? = some record ∧
      Partition.Tracks schema chunks ⟨record.build, input.area⟩ := by
  obtain ⟨part, found, lists⟩ := tracks
  obtain ⟨record, there, rfl⟩ := Arena.exists_record_of_part?_build found
  exact ⟨record, there, lists⟩

theorem Tracks.of_record
    (tracks : input.Tracks schema partition chunks)
    (found : input.arena.records[partition]? = some record) :
    Partition.Tracks schema chunks ⟨record.build, input.area⟩ := by
  obtain ⟨part, there, lists⟩ := tracks
  rw [Arena.part?_build found, Option.some.injEq] at there
  exact there ▸ lists

/-- The chunks that a partition lists are its build rows. -/
theorem Tracks.rows
    {precise : Prop}
    {contents : Contents}
    (tracks : input.Tracks schema partition chunks)
    (holds : input.Holds precise contents) :
    contents (.build, partition) = chunks.flatMap Chunk.rows := by
  obtain ⟨part, found, lists⟩ := tracks
  obtain ⟨_, _, held⟩ := holds.holds _ _ found
  exact held.toStores.unique lists.stores

theorem part?_withBuild
    (found : input.arena.records[partition]? = some record)
    (holding : Holding) :
    (input.withBuild partition holding).arena.part? =
      Function.update input.arena.part? (.build, partition) (some holding.partition) :=
  Arena.part?_modify found rfl fun side different => by cases side <;> trivial

theorem tracks_withBuild
    {holding : Holding}
    (found : input.arena.records[partition]? = some record)
    (lists : Partition.Tracks schema chunks holding) :
    (input.withBuild partition holding).Tracks schema partition chunks :=
  ⟨holding.partition, by rw [part?_withBuild found, Function.update_self], lists⟩

/-- New roots list nothing. -/
theorem tracks_of_make
    {operator : String}
    {params : Params}
    {build : ProbeSide}
    {probeSide : Option ProbeSide}
    {area : SpillArea}
    {ledger : Ledger}
    {root : Nat}
    (made : make operator params build.schema build.key probeSide area ledger = .ok input)
    (faithful : area.store.damage = [])
    (bounded : root < input.params.partitionCount) :
    input.Tracks build.schema root [] := by
  obtain ⟨setUp, bare, rfl⟩ := made_of_make made
  have schema : bare.buildSchema = build.schema := setUp.buildSchema
  refine ⟨.empty build.schema, ?_, Partition.tracks_of_made (.inl rfl) (setUp.area ▸ faithful)⟩
  rw [Arena.part?, getElem?_newRoots, if_pos bounded, ← schema]
  rfl

/-! ## Appending -/

section Append

variable (tracks : input.Tracks schema partition chunks)
include tracks

theorem Tracks.ends_spillPartition (other : Nat) :
    (spillPartition other).Ends input (fun _ after => after.Tracks schema partition chunks)
      fun _ _ => True := by
  rw [spillPartition, ends_bind]
  refine ends_record (fun record found => ?_) fun _ => trivial
  rw [ends_ite]
  refine ⟨fun _ => tracks, fun _ => ?_⟩
  rw [ends_bind, ends_onBuild found]
  by_cases same : other = partition
  · subst same
    exact (tracks.of_record found).ends_spill.mono (fun _ _ lists => tracks_withBuild found lists)
      fun _ _ _ => trivial
  · refine (Partition.ends_spill_keeps _).mono (fun _ holding keeps => tracks.keeps ?_ keeps)
      fun _ _ _ => trivial
    show (input.withBuild other holding).arena.part? _ = _
    rw [part?_withBuild found, Function.update_of_ne (by simpa using Ne.symm same)]

theorem Tracks.ends_spillLargest :
    spillLargest.Ends input (fun _ after => after.Tracks schema partition chunks) fun _ _ => True := by
  rw [spillLargest, ends_bind, ends_get]
  split
  · rw [ends_bind]
    exact (tracks.ends_spillPartition _).mono (fun _ _ lists => lists) fun _ _ _ => trivial
  · exact tracks

theorem Tracks.ends_tryCharge (bytes : Nat) :
    (tryCharge bytes).Ends input (fun _ after => after.Tracks schema partition chunks)
      fun _ _ => True :=
  ends_tryCharge_of (fun _ _ => tracks) fun _ => tracks

variable (fits : chunk.schema = schema)
include fits

theorem Tracks.ends_append :
    (onBuild partition (Partition.append chunk)).Ends input
      (fun _ after => after.Tracks schema partition (Partition.listedAfter chunks chunk))
      fun _ _ => True := by
  obtain ⟨record, found, lists⟩ := tracks.exists_record
  rw [ends_onBuild found]
  exact (lists.ends_append fits).mono (fun _ _ lists => tracks_withBuild found lists)
    fun _ _ _ => trivial

theorem Tracks.ends_appendCharged (bytes : Nat) :
    (appendCharged partition bytes chunk).Ends input
      (fun _ after => after.Tracks schema partition (Partition.listedAfter chunks chunk))
      fun _ _ => True := by
  rw [appendCharged, ends_bind, ends_attempt]
  exact (tracks.ends_append fits).mono (fun _ _ lists => lists) fun _ _ _ => trivial

/-- Whatever is spilled to make room, a chunk that is appended comes last. -/
theorem Tracks.ends_appendBuild :
    (appendBuild partition chunk).Ends input
      (fun _ after => after.Tracks schema partition (Partition.listedAfter chunks chunk))
      fun _ _ => True := by
  rw [appendBuild, ends_bind]
  refine ends_record (fun target _ => ?_) fun _ => trivial
  rw [ends_ite]
  refine ⟨fun _ => tracks.ends_append fits, fun _ => ?_⟩
  rw [ends_bind]
  refine (tracks.ends_tryCharge _).mono (fun granted first tracks => ?_) fun _ _ _ => trivial
  rw [ends_ite]
  refine ⟨fun _ => tracks.ends_appendCharged fits _, fun _ => ?_⟩
  rw [ends_bind]
  refine tracks.ends_spillLargest.mono (fun _ second tracks => ?_) fun _ _ _ => trivial
  rw [ends_bind]
  refine ends_record (fun target _ => ?_) fun _ => trivial
  rw [ends_ite]
  refine ⟨fun _ => tracks.ends_append fits, fun _ => ?_⟩
  rw [ends_bind]
  refine (tracks.ends_tryCharge _).mono (fun granted third tracks => ?_) fun _ _ _ => trivial
  rw [ends_ite]
  refine ⟨fun _ => tracks.ends_appendCharged fits _, fun _ => ?_⟩
  rw [ends_bind]
  exact (tracks.ends_spillPartition partition).mono (fun _ _ tracks => tracks.ends_append fits)
    fun _ _ _ => trivial

end Append

/-- Where the one root of its rows lists chunks, a chunk that is accepted comes last. -/
theorem tracks_of_addBuildChunk
    {hot : Nat}
    {value : Unit}
    (succeeds : (addBuildChunk chunk).Succeeds before value after)
    (declares : before.side? .build = some declared)
    (keyed : declared.Keyed)
    (fits : chunk.schema = declared.schema)
    (full : chunk.isEmpty = false)
    (together : ∀ row ∈ chunk.rows, (before.directory 0).bucketOfKey (declared.keyOf row) = hot)
    (bounded : hot < before.params.partitionCount)
    (tracks : before.Tracks declared.schema hot chunks) :
    after.Tracks declared.schema hot (chunks ++ [chunk]) := by
  obtain rfl : ⟨before.buildSchema, before.buildKey⟩ = declared := Option.some.inj declares
  simp only [addBuildChunk, succeeds_bind, succeeds_checkCancelled, succeeds_get] at succeeds
  obtain ⟨_, _, ⟨_, rfl⟩, _, _, ⟨rfl, rfl⟩, routed⟩ := succeeds
  have whole := route_of_together appendBuild keyed fits full List.nodup_range List.length_range
    (getElem?_roots bounded) together
  have lists := (tracks.ends_appendBuild fits).of_succeeds (whole ▸ routed)
  rwa [Partition.listedAfter, full, if_neg Bool.false_ne_true] at lists

/-- All blocks stay. -/
def KeepsBlocks (_ : Bool) (before after : Partitioned) : Prop :=
  before.area.store.Keeps after.area.store []

instance : Composes KeepsBlocks where
  refl _ input := .refl input.area.store
  trans one another := one.trans another

theorem keepsBlocks_appendProbe
    (partition : Nat)
    (chunk : Chunk) :
    (appendProbe partition chunk).Follows KeepsBlocks := by
  refine follows_get.bind fun operator before =>
    ends_onProbe_of (follows_fail _ before) (fun _ _ _ _ => ?_) fun _ => .refl _
  exact (Partition.ends_append_keeps chunk _).mono (fun _ _ keeps => keeps) fun _ _ keeps => keeps

/-! ## Moving chunks to a child -/

/-- Chunks of a spilled partition are moved to a child of it. -/
structure Moving
    (setting : Partitioned)
    (source child : Nat)
    (part : Partition)
    (stored : List (List Chunk))
    (moved : List Chunk)
    (input : Partitioned) : Prop where
  holds : ∃ contents, input.Holds False contents
  side? : input.side? = setting.side?
  source : input.arena.part? (.build, source) = some part
  stored : part.Stored input.area.store stored
  tracks : input.Tracks setting.buildSchema child moved

section Moving

variable {setting : Partitioned} {source : Nat} {part : Partition} {stored : List (List Chunk)}
  {moved : List Chunk} {value : Unit}
  (moving : setting.Moving source child part stored moved before)
include moving

theorem Moving.quiet (quiet : before.Quiet after) :
    setting.Moving source child part stored moved after where
  holds := moving.holds.imp fun _ => quiet.holds
  side? := (side?_of_outline quiet.outline).trans moving.side?
  source := (congrFun quiet.part? _).trans moving.source
  stored := moving.stored.keeps quiet.keeps fun _ _ => List.not_mem_nil
  tracks := moving.tracks.keeps (congrFun quiet.part? _) quiet.keeps

variable (spilled : part.spilled = true) (apart : source ≠ child)
include spilled apart

theorem Moving.append
    (succeeds : (appendBuild child chunk).Succeeds before value after)
    (fits : chunk.schema = setting.buildSchema)
    (full : chunk.isEmpty = false) :
    setting.Moving source child part stored (moved ++ [chunk]) after := by
  obtain ⟨contents, holds⟩ := moving.holds
  have declares : before.side? .build = some ⟨setting.buildSchema, setting.buildKey⟩ :=
    congrFun moving.side? .build
  obtain ⟨held, fills⟩ := appends_appendBuild succeeds holds declares ⟨fits, False.elim⟩
  refine
    { holds := ⟨_, held⟩
      side? := (side?_of_outline fills.outline).trans moving.side?
      source := fills.steady _ _ (by simpa using apart) moving.source spilled
      stored := moving.stored.keeps fills.keeps fun _ _ => List.not_mem_nil
      tracks := ?_ }
  have tracks := (moving.tracks.ends_appendBuild fits).of_succeeds succeeds
  rwa [Partition.listedAfter, full, if_neg Bool.false_ne_true] at tracks

/-- What is read block by block is moved chunk by chunk. -/
theorem Moving.stream
    {accept : Chunk → Step Partitioned Unit}
    {positions : List Nat}
    (succeeds : (streamBlocks (restoreBuildBlock source) accept positions).Succeeds before value after)
    (accepts : ∀ segment ∈ part.segments stored, ∀ chunk ∈ segment,
      accept chunk = appendBuild child chunk ∧ chunk.schema = setting.buildSchema ∧
        chunk.isEmpty = false) :
    setting.Moving source child part stored
      (moved ++ positions.flatMap fun position => (part.segments stored)[position]?.getD []) after := by
  induction positions generalizing before moved with
  | nil =>
      rw [streamBlocks, succeeds_pure] at succeeds
      obtain ⟨_, rfl⟩ := succeeds
      rwa [List.flatMap_nil, List.append_nil]
  | cons position positions inductionHypothesis =>
      simp only [streamBlocks, succeeds_bind, succeeds_checkCancelled] at succeeds
      obtain ⟨_, _, ⟨_, rfl⟩, chunks, between, restored, _, later, accepted, rest⟩ := succeeds
      obtain ⟨read, quiet⟩ := restores_restoreBuildBlock source restored moving.source moving.stored
      have inside := accepts chunks (List.mem_of_getElem? read)
      have next : setting.Moving source child part stored
          (moved ++ chunks.flatMap fun chunk => [chunk]) later :=
        accepted.forM (setting.Moving source child part stored) (moving.quiet quiet)
          fun chunk member _ _ _ moving appended => by
            obtain ⟨same, fits, full⟩ := inside chunk member
            exact moving.append spilled apart (same ▸ appended) fits full
      rw [List.flatMap_singleton'] at next
      rw [List.flatMap_cons, read, Option.getD_some, ← List.append_assoc]
      exact inductionHypothesis next rest

end Moving

/-! ## Giving up other partitions -/

/-- A partition lists the chunks, and all partitions hold what they are meant to hold. -/
structure Carries
    (schema : Schema)
    (partition : Nat)
    (chunks : List Chunk)
    (input : Partitioned) : Prop where
  holds : ∃ contents, input.Holds False contents
  tracks : input.Tracks schema partition chunks

section Carries

variable {value : Unit} (carries : before.Carries schema partition chunks)
include carries

theorem Carries.release
    {slot : Slot}
    {old : Partition}
    {new : Holding}
    (acts : Acts Partition.release slot before () after old new)
    (different : slot ≠ (.build, partition)) :
    after.Carries schema partition chunks := by
  obtain ⟨contents, holds⟩ := carries.holds
  obtain ⟨_, _, held⟩ := holds.holds _ _ acts.found
  obtain ⟨-, moves⟩ := Partition.succeeds_release acts.succeeds held
  have keeps : before.area.store.Keeps after.area.store old.paths := acts.area ▸ moves.keeps
  have sound : after.area.store.damage = [] := keeps.damage.trans holds.faithful
  refine ⟨⟨_, acts.release holds⟩, carries.tracks.elsewhere ?_ keeps.format sound
    fun part found path member bytes => keeps.block path bytes fun released => ?_⟩
  · rw [acts.part?, Function.update_of_ne (Ne.symm different)]
  · exact holds.apart _ _ _ _ different acts.found found path released member

theorem Carries.releaseBuild
    {other : Nat}
    (succeeds : (onBuild other Partition.release).Succeeds before value after)
    (different : other ≠ partition) :
    after.Carries schema partition chunks := by
  obtain ⟨old, new, acts⟩ := acts_of_onBuild succeeds
  exact carries.release acts (by simpa using different)

theorem Carries.releaseProbe
    {other : Nat}
    (succeeds : (releaseProbe other).Succeeds before value after) :
    after.Carries schema partition chunks := by
  obtain ⟨-, kept⟩ | ⟨old, new, acts⟩ := acts_of_onProbe succeeds
  · rw [succeeds_pure] at kept
    exact kept.2 ▸ carries
  · exact carries.release acts (by simp)

theorem Carries.setState
    {other : Nat}
    {state : PartitionState}
    (succeeds : (setState other state).Succeeds before value after) :
    after.Carries schema partition chunks := by
  obtain ⟨contents, holds⟩ := carries.holds
  obtain ⟨held, -, parts⟩ := succeeds_setState succeeds holds
  have area : after.area = before.area := by
    simp only [Partitioned.setState, changeRecord, succeeds_modify] at succeeds
    rw [← succeeds]
  exact ⟨⟨_, held⟩, carries.tracks.keeps (congrFun parts _) (area ▸ .refl _)⟩

theorem Carries.keepNonEmpty
    {children kept : List Nat}
    (succeeds : (keepNonEmpty children).Succeeds before kept after) :
    after.Carries schema partition chunks := by
  induction children generalizing before kept with
  | nil =>
      rw [Partitioned.keepNonEmpty, succeeds_pure] at succeeds
      exact succeeds.2 ▸ carries
  | cons child children inductionHypothesis =>
      simp only [Partitioned.keepNonEmpty, succeeds_bind, succeeds_record_iff] at succeeds
      obtain ⟨record, _, ⟨found, rfl⟩, succeeds⟩ := succeeds
      split at succeeds
      · simp only [succeeds_bind] at succeeds
        obtain ⟨_, _, set, _, _, release, rest⟩ := succeeds
        exact inductionHypothesis ((carries.setState set).releaseProbe release) rest
      · simp only [succeeds_bind, succeeds_pure] at succeeds
        obtain ⟨_, _, rest, _, rfl⟩ := succeeds
        exact inductionHypothesis carries rest

theorem Carries.giveUp
    {source : Nat}
    {children kept : List Nat}
    (succeeds : (do
      onBuild source Partition.release
      Partitioned.releaseProbe source
      Partitioned.setState source .repartitioned
      modify fun input => { input with repartitions := input.repartitions + 1 }
      Partitioned.keepNonEmpty children : Step Partitioned (List Nat)).Succeeds before kept after)
    (apart : source ≠ partition) :
    after.Carries schema partition chunks := by
  simp only [succeeds_bind, succeeds_modify] at succeeds
  obtain ⟨_, first, releaseBuild, _, second, releaseProbe, _, third, set, _, _, rfl, kept⟩ := succeeds
  have left := ((carries.releaseBuild releaseBuild apart).releaseProbe releaseProbe).setState set
  refine Carries.keepNonEmpty ?_ kept
  exact ⟨left.holds, left.tracks⟩

theorem Carries.complete
    {other : Nat}
    (succeeds : (complete other).Succeeds before value after)
    (apart : other ≠ partition) :
    after.Carries schema partition chunks := by
  simp only [Partitioned.complete, releaseBytes, succeeds_bind, succeeds_record_iff, succeeds_modify,
    succeeds_get] at succeeds
  obtain ⟨_, _, ⟨_, rfl⟩, _, first, releaseBuild, _, second, releaseProbe, _, third, set, _, _, rfl,
    _, _, ⟨rfl, rfl⟩, rest⟩ := succeeds
  have left := (carries.releaseBuild releaseBuild apart).releaseProbe releaseProbe
  obtain ⟨holds, tracks⟩ := left.setState set
  split at rest
  · rw [succeeds_pure] at rest
    obtain ⟨_, rfl⟩ := rest
    exact ⟨holds, tracks⟩
  · simp only [succeeds_bind, succeeds_modify] at rest
    obtain ⟨_, _, rfl, rfl⟩ := rest
    exact ⟨holds, tracks⟩

end Carries

/-! ## Splitting -/

/-- Storing the probe rows of a partition in its children is no concern of build sides. -/
theorem sparesBuilds_streamProbe
    (partition : Nat)
    (directory : Directory)
    (key : String)
    (children blocks : List Nat) :
    (streamBlocks (restoreProbeBlock partition) (route appendProbe directory key children)
      blocks).Follows SparesBuilds :=
  follows_streamBlocks (fun _ => sparesBuilds_onProbe (follows_pure _) partition _)
    (follows_route (fun child _ => sparesBuilds_appendProbe child) directory key) blocks

/-- The chunks that were moved stay where they are while the probe rows are dealt out. -/
theorem Moving.carries_streamProbe
    {source number level : Nat}
    {setting built between dealt : Partitioned}
    {part : Partition}
    {stored : List (List Chunk)}
    {side : ProbeSide}
    {value : Unit}
    (moved : setting.Moving source child part stored chunks built)
    (probes : setting.probeSide = some side)
    (known : source < setting.arena.size)
    (counted : (probeBlocks source).Succeeds built number between)
    (streamed : (streamBlocks (restoreProbeBlock source)
      (route appendProbe (setting.directory level) side.key setting.nextChildren)
      (List.range number)).Succeeds between value dealt) :
    dealt.Carries setting.buildSchema child chunks := by
  obtain ⟨contents, holds⟩ := moved.holds
  obtain ⟨_, held, -, fills⟩ := succeeds_streamProbe counted streamed holds
    ((congrFun moved.side? .probe).trans probes) probes (nodup_nextChildren setting)
    (length_nextChildren setting) (notMem_nextChildren known)
  obtain rfl : built = between := by
    simp only [probeBlocks, succeeds_bind, succeeds_record_iff, succeeds_pure] at counted
    obtain ⟨_, _, ⟨_, rfl⟩, _, same⟩ := counted
    exact same
  have builds : SparesBuilds true built dealt :=
    (sparesBuilds_streamProbe _ _ _ _ _ built).of_succeeds streamed
  exact ⟨⟨_, held⟩, moved.tracks.keeps (builds _) fills.keeps⟩

/-- If all rows of a partition belong to one bucket of the next level, splitting the partition moves its
chunks to the child of that bucket. -/
theorem tracks_of_repartition
    {precise : Prop}
    {children : List Nat}
    {contents : Contents}
    (succeeds : (repartition partition).Succeeds before children after)
    (holds : before.Holds precise contents)
    (found : before.arena.records[partition]? = some record)
    (spilled : record.build.spilled = true)
    (declares : before.side? .build = some declared)
    (keyed : declared.Keyed)
    (tracks : before.Tracks declared.schema partition chunks)
    (bounded : bucket < before.params.partitionCount)
    (together : ∀ chunk ∈ chunks, ∀ row ∈ chunk.rows,
      (before.directory (record.level + 1)).bucketOfKey (declared.keyOf row) = bucket) :
    after.Tracks declared.schema (before.arena.size + bucket) chunks := by
  have known : partition < before.arena.size := (Array.getElem?_eq_some_iff.mp found).1
  obtain rfl : ⟨before.buildSchema, before.buildKey⟩ = declared := Option.some.inj declares
  obtain ⟨begun, built, begins, stream, rest⟩ := exists_begins_of_repartition succeeds holds found
  have lists := tracks.of_record found
  obtain ⟨stored, held, blocks, whole⟩ := lists.exists_segments spilled
  have apart : partition ≠ before.arena.size + bucket :=
    Nat.ne_of_lt (Nat.lt_of_lt_of_le known (Nat.le_add_right _ _))
  have moving : before.Moving partition (before.arena.size + bucket) record.build stored [] begun :=
    { holds := ⟨_, begins.holds.relax⟩
      side? := begins.side?
      source := (begins.part? _ known).trans (Arena.part?_build found)
      stored := begins.area ▸ held
      tracks := ⟨_, begins.empty bucket bounded, Partition.tracks_of_made (.inl rfl)
        begins.holds.faithful⟩ }
  -- Every chunk that is read is one of those that the partition lists, so all of them go to one child.
  have moved := moving.stream spilled apart stream fun segment member chunk inside => by
    have listed : chunk ∈ chunks := whole ▸ List.mem_flatten_of_mem member inside
    obtain ⟨fits, full⟩ := lists.proper chunk listed
    have routed := route_of_together appendBuild keyed fits full (nodup_nextChildren before)
      (length_nextChildren before) (getElem?_nextChildren bounded) (together chunk listed)
    exact ⟨routed, fits, full⟩
  rw [← blocks, flatMap_range_getElem?, whole, List.nil_append] at moved
  cases probes : before.probeSide with
  | none =>
      rw [probes] at rest
      exact (Carries.giveUp ⟨moved.holds, moved.tracks⟩ rest apart).tracks
  | some side =>
      rw [probes] at rest
      obtain ⟨number, between, counted, continued⟩ := (succeeds_bind _ _ _ _ _).mp rest
      obtain ⟨_, dealt, streamed, givesUp⟩ := (succeeds_bind _ _ _ _ _).mp continued
      exact (Carries.giveUp (moved.carries_streamProbe probes known counted streamed) givesUp apart).tracks

end Partitioned
end Spillway
