import Mathlib.Logic.Relation
import Spillway.Proofs.Operator.Charging
import Spillway.Proofs.Operator.Repartition
import Spillway.Proofs.Partition.Ownership

/-!
# Changes of partitioned input

Whatever is asked of partitioned input, and wherever it fails, a few kinds of changes come of it, one
after the other: something is done with one side of a partition, a partition is closed, a child is added
above the depth limit, or the books are changed. Only partitions that are meant are changed, and
partitions that can be spilled to make room. What every change keeps is kept by every step.
-/

namespace Spillway

/-- The partition accepts rows and has bytes in memory, so it can be spilled to make room. -/
def PartitionRecord.Evictable (record : PartitionRecord) : Prop :=
  record.state = .opened ∧ record.build.spilled = false ∧ 0 < record.build.memoryBytes

namespace Partitioned

open Step Relation

/-- One change that puts rows into partitions, reads or drops them. Where it belongs to a step that is
met, what is done with the side of a partition is met too. -/
inductive Feed (targets : Nat → Prop) (met : Bool) : Partitioned → Partitioned → Prop
  | build
      {input : Partitioned}
      {partition : Nat}
      {record : PartitionRecord}
      {holding : Holding}
      (found : input.arena.records[partition]? = some record)
      (meant : targets partition ∨ record.Evictable)
      (changes : Partition.Changes met ⟨record.build, input.area⟩ holding) :
      Feed targets met input (input.withBuild partition holding)
  | probe
      {input : Partitioned}
      {partition : Nat}
      {record : PartitionRecord}
      {probe : Partition}
      {holding : Holding}
      (found : input.arena.records[partition]? = some record)
      (has : record.probe = some probe)
      (meant : targets partition)
      (changes : Partition.Changes met ⟨probe, input.area⟩ holding) :
      Feed targets met input (input.withProbe partition holding)
  | books
      {input : Partitioned}
      (ledger : Ledger)
      (partitionsSpilled : Nat)
      (limits : ∀ place, (ledger.account place).limit = (input.ledger.account place).limit) :
      Feed targets met input { input with ledger, partitionsSpilled }

/-- One change of partitioned input. -/
inductive Change (targets : Nat → Prop) (met : Bool) : Partitioned → Partitioned → Prop
  | feed
      {before after : Partitioned}
      (feed : Feed targets met before after) :
      Change targets met before after
  | close
      {input : Partitioned}
      {partition : Nat}
      {state : PartitionState}
      (meant : targets partition)
      (closed : state ≠ .opened) :
      Change targets met input { input with
        arena := input.arena.modify partition fun record => { record with state } }
  | child
      {input : Partitioned}
      {parent level bucket number : Nat}
      {arena : Arena}
      (meant : targets parent)
      (shallow : level < input.params.maxDepth)
      (added : input.arena.add (input.newRecord (some parent) level bucket) = .ok (number, arena)) :
      Change targets met input { input with arena }
  | notes
      {input : Partitioned}
      (pinned : List (Nat × Nat))
      (repartitions : Nat) :
      Change targets met input { input with pinned, repartitions }

/-- Changes that put rows into partitions, read or drop them. -/
def Feeds (targets : Nat → Prop) (met : Bool) : Partitioned → Partitioned → Prop :=
  ReflTransGen (Feed targets met)

/-- Changes of partitioned input. -/
def Evolves (targets : Nat → Prop) (met : Bool) : Partitioned → Partitioned → Prop :=
  ReflTransGen (Change targets met)

variable {targets more : Nat → Prop} {met : Bool} {before between after input : Partitioned}
  {partition : Nat} {record : PartitionRecord} {α : Type}

/-! ## Fewer conditions -/

theorem Feed.mono
    (feed : Feed targets met before after)
    (within : ∀ partition, targets partition → more partition) :
    Feed more met before after := by
  cases feed with
  | build found meant changes => exact .build found (meant.imp_left (within _)) changes
  | probe found has meant changes => exact .probe found has (within _ meant) changes
  | books ledger partitionsSpilled limits => exact .books ledger partitionsSpilled limits

theorem Change.mono
    (change : Change targets met before after)
    (within : ∀ partition, targets partition → more partition) :
    Change more met before after := by
  cases change with
  | feed feed => exact .feed (feed.mono within)
  | close meant closed => exact .close (within _ meant) closed
  | child meant shallow added => exact .child (within _ meant) shallow added
  | notes pinned repartitions => exact .notes pinned repartitions

theorem Feed.weaken (feed : Feed targets true before after) : Feed targets met before after := by
  have weaker : ∀ {before after : Holding}, Partition.Changes true before after →
      Partition.Changes met before after :=
    fun changes => ⟨changes.toTidies, fun _ => changes.counted rfl⟩
  cases feed with
  | build found meant changes => exact .build found meant (weaker changes)
  | probe found has meant changes => exact .probe found has meant (weaker changes)
  | books ledger partitionsSpilled limits => exact .books ledger partitionsSpilled limits

theorem Change.weaken (change : Change targets true before after) : Change targets met before after := by
  cases change with
  | feed feed => exact .feed feed.weaken
  | close meant closed => exact .close meant closed
  | child meant shallow added => exact .child meant shallow added
  | notes pinned repartitions => exact .notes pinned repartitions

theorem Feeds.weaken (feeds : Feeds targets true before after) : Feeds targets met before after :=
  ReflTransGen.mono (fun _ _ => Feed.weaken) _ _ feeds

theorem Evolves.weaken (evolves : Evolves targets true before after) :
    Evolves targets met before after :=
  ReflTransGen.mono (fun _ _ => Change.weaken) _ _ evolves

instance (targets : Nat → Prop) : Composes (Feeds targets) where
  refl _ _ := .refl
  trans one another := one.weaken.trans another

instance (targets : Nat → Prop) : Composes (Evolves targets) where
  refl _ _ := .refl
  trans one another := one.weaken.trans another

theorem Evolves.mono
    (evolves : Evolves targets met before after)
    (within : ∀ partition, targets partition → more partition) :
    Evolves more met before after :=
  ReflTransGen.mono (fun _ _ change => Change.mono change within) _ _ evolves

theorem Feeds.evolves (feeds : Feeds targets met before after) : Evolves targets met before after :=
  ReflTransGen.mono (fun _ _ => Change.feed) _ _ feeds

/-! ## Feeding partitions -/

section Relations

variable {relation : Bool → Partitioned → Partitioned → Prop} [Composes relation]

theorem follows_record : (Partitioned.record partition).Follows relation :=
  fun input => ends_record (fun _ _ => Composes.refl true input) fun _ => Composes.refl false input

theorem follows_checkCancelled : checkCancelled.Follows relation := by
  refine follows_get.bind fun input => ?_
  split
  · exact follows_fail _
  · exact follows_pure _

theorem follows_probeBlocks : (probeBlocks partition).Follows relation :=
  follows_record.bind fun _ => follows_pure _

theorem follows_needsRepartition : (needsRepartition partition).Follows relation :=
  follows_record.bind fun _ => follows_get.bind fun _ => follows_pure _

theorem follows_processingOrder (children : List Nat) :
    (processingOrder children).Follows relation :=
  follows_get.bind fun _ => follows_pure _

theorem follows_deal
    {append : Nat → Chunk → Step Partitioned Unit}
    (parts : List (Nat × Option Chunk))
    (follows : ∀ partition part, (partition, part) ∈ parts → ∀ chunk,
      (append partition chunk).Follows relation) :
    (deal append parts).Follows relation := by
  induction parts with
  | nil => exact follows_pure _
  | cons first rest inductionHypothesis =>
      have later := inductionHypothesis fun partition part member =>
        follows partition part (List.mem_cons_of_mem first member)
      obtain ⟨partition, _ | part⟩ := first
      · exact later
      · exact (follows partition _ List.mem_cons_self part).bind fun _ => later

theorem follows_route
    {append : Nat → Chunk → Step Partitioned Unit}
    {partitions : List Nat}
    (follows : ∀ partition ∈ partitions, ∀ chunk, (append partition chunk).Follows relation)
    (directory : Directory)
    (key : String)
    (chunk : Chunk) :
    (route append directory key partitions chunk).Follows relation :=
  (follows_ofExcept _).bind fun _ => follows_deal _ fun partition _ member =>
    follows partition (List.of_mem_zip member).1

theorem follows_streamBlocks
    {restore : Nat → Step Partitioned (List Chunk)}
    {accept : Chunk → Step Partitioned Unit}
    (restores : ∀ block, (restore block).Follows relation)
    (accepts : ∀ chunk, (accept chunk).Follows relation)
    (blocks : List Nat) :
    (streamBlocks restore accept blocks).Follows relation := by
  induction blocks with
  | nil => exact follows_pure _
  | cons block rest inductionHypothesis =>
      exact follows_checkCancelled.bind fun _ => (restores block).bind fun _ =>
        (Follows.forM fun chunk _ => accepts chunk).bind fun _ => inductionHypothesis

end Relations

/-- What is done with the build side of a partition that is meant, or that can be spilled. -/
theorem ends_onBuild_feeds
    {step : Step Holding α}
    (follows : step.Follows Partition.Changes)
    (meant : ∀ record, input.arena.records[partition]? = some record →
      targets partition ∨ record.Evictable) :
    (onBuild partition step).Ends input (fun _ => Feeds targets true input)
      fun _ => Feeds targets false input := by
  refine ends_onBuild_of (fun record found => ?_) fun _ => .refl
  exact (follows ⟨record.build, input.area⟩).mono
    (fun _ _ changes => .single (.build found (meant record found) changes))
    fun _ _ changes => .single (.build found (meant record found) changes)

theorem follows_onBuild
    {step : Step Holding α}
    (follows : step.Follows Partition.Changes)
    (meant : targets partition) :
    (onBuild partition step).Follows (Feeds targets) :=
  fun _ => ends_onBuild_feeds follows fun _ _ => .inl meant

theorem follows_onProbe
    {absent : Step Partitioned α}
    {step : Step Holding α}
    (otherwise : absent.Follows (Feeds targets))
    (follows : step.Follows Partition.Changes)
    (meant : targets partition) :
    (onProbe partition absent step).Follows (Feeds targets) := by
  refine fun input => ends_onProbe_of (otherwise input) (fun record probe found has => ?_) fun _ => .refl
  exact (follows ⟨probe, input.area⟩).mono
    (fun _ _ changes => .single (.probe found has meant changes))
    fun _ _ changes => .single (.probe found has meant changes)

theorem follows_releaseBytes (bytes : Nat) : (releaseBytes bytes).Follows (Feeds targets) :=
  follows_modify fun input => .single (.books _ input.partitionsSpilled (Ledger.limit_release _ _ _))

theorem follows_tryCharge (bytes : Nat) : (tryCharge bytes).Follows (Feeds targets) := by
  refine fun input => ends_tryCharge_of (fun ledger granted => ?_) fun _ => .refl
  refine .single (.books ledger input.partitionsSpilled ?_)
  rw [Ledger.eq_reserve_of_reserve? granted]
  exact Ledger.limit_reserve _ _ _

theorem ends_spillPartition_feeds
    (meant : ∀ record, input.arena.records[partition]? = some record →
      targets partition ∨ record.Evictable) :
    (spillPartition partition).Ends input (fun _ => Feeds targets true input)
      fun _ => Feeds targets false input := by
  refine (ends_bind _ _).mpr (ends_record (fun record found => ?_) fun _ => .refl)
  rw [ends_ite]
  refine ⟨fun _ => .refl, fun _ => ?_⟩
  refine Ends.follow ((ends_onBuild_feeds Partition.follows_spill meant).mono
    (fun freed between feeds => ⟨?_, feeds⟩) fun _ _ feeds => feeds)
  refine (follows_releaseBytes freed).bind (fun _ => ?_) between
  refine Follows.bind (follows_modify fun input => ?_) fun _ => follows_pure _
  exact .single (.books input.ledger _ fun _ => rfl)

/-- Picking one of two over and over picks one of those that there were. -/
theorem mem_or_eq_of_foldl
    {β : Type}
    {pick : Option β → β → Option β}
    {values : List β}
    {start : Option β}
    {chosen : β}
    (picks : ∀ best value, pick best value = some value ∨ pick best value = best)
    (folded : values.foldl pick start = some chosen) :
    chosen ∈ values ∨ start = some chosen := by
  induction values generalizing start with
  | nil => exact .inr folded
  | cons first others inductionHypothesis =>
      rw [List.foldl_cons] at folded
      obtain later | now := inductionHypothesis folded
      · exact .inl (List.mem_cons_of_mem first later)
      · obtain new | old := picks start first
        · rw [new, Option.some.injEq] at now
          exact .inl (now ▸ List.mem_cons_self)
        · exact .inr (old.symm.trans now)

/-- The partition that is spilled to make room is one that can be spilled. -/
theorem exists_evictable_of_largestOpen?
    {arena : Arena}
    (largest : largestOpen? arena = some partition) :
    ∃ record, arena.records[partition]? = some record ∧ record.Evictable := by
  unfold largestOpen? at largest
  generalize listed : (List.range arena.size).filterMap _ = candidates at largest
  have evictable : ∀ candidate ∈ candidates,
      ∃ record, arena.records[candidate.1]? = some record ∧ record.Evictable := by
    intro candidate member
    rw [← listed, List.mem_filterMap] at member
    obtain ⟨number, _, chosen⟩ := member
    obtain ⟨record, there, chosen⟩ := Option.bind_eq_some_iff.mp chosen
    split at chosen
    case isTrue conditions =>
        cases chosen
        exact ⟨record, there, conditions.1, Bool.not_eq_true _ ▸ conditions.2.1, conditions.2.2⟩
    case isFalse => cases chosen
  obtain ⟨chosen, same, rfl⟩ := Option.map_eq_some_iff.mp largest
  refine evictable chosen ((mem_or_eq_of_foldl (fun best candidate => ?_) same).resolve_right nofun)
  cases best with
  | none => exact .inl rfl
  | some held =>
      dsimp only
      split
      · exact .inl rfl
      · exact .inr rfl

theorem follows_spillLargest : spillLargest.Follows (Feeds targets) := by
  refine follows_get_bind fun input => ?_
  split
  case h_1 victim largest =>
      obtain ⟨record, found, evictable⟩ := exists_evictable_of_largestOpen? largest
      have only : ∀ other, input.arena.records[victim]? = some other → other.Evictable := by
        intro other there
        rw [found, Option.some.injEq] at there
        exact there ▸ evictable
      refine Ends.follow ((ends_spillPartition_feeds fun record there =>
        .inr (only record there)).mono
          (fun _ between feeds => ⟨follows_pure _ between, feeds⟩) fun _ _ feeds => feeds)
  case h_2 => exact .refl

theorem follows_appendCharged
    (meant : targets partition)
    (bytes : Nat)
    (chunk : Chunk) :
    (appendCharged partition bytes chunk).Follows (Feeds targets) := by
  intro input
  unfold appendCharged
  rw [ends_bind, ends_attempt]
  refine (follows_onBuild (Partition.follows_append chunk) meant input).mono (fun _ _ feeds => feeds)
    fun status between feeds => ?_
  exact feeds.tail (.books _ between.partitionsSpilled (Ledger.limit_release _ _ _))

theorem follows_appendBuild
    (meant : targets partition)
    (chunk : Chunk) :
    (appendBuild partition chunk).Follows (Feeds targets) := by
  have append : (onBuild partition (Partition.append chunk)).Follows (Feeds targets) :=
    follows_onBuild (Partition.follows_append chunk) meant
  have charged := follows_appendCharged meant chunk.logicalBytes chunk
  refine follows_record.bind fun target => ?_
  split
  · exact append
  refine (follows_tryCharge _).bind fun fits => ?_
  split
  · exact charged
  refine follows_spillLargest.bind fun _ => follows_record.bind fun target => ?_
  split
  · exact append
  refine (follows_tryCharge _).bind fun fits => ?_
  split
  · exact charged
  · have spill : (spillPartition partition).Follows (Feeds targets) :=
      fun _ => ends_spillPartition_feeds fun _ _ => .inl meant
    exact spill.bind fun _ => append

theorem follows_appendProbe
    (meant : targets partition)
    (chunk : Chunk) :
    (appendProbe partition chunk).Follows (Feeds targets) :=
  follows_get.bind fun _ => follows_onProbe (follows_fail _) (Partition.follows_append chunk) meant

/-- Accepted rows go to the roots. -/
theorem ends_addBuildChunk_feeds
    (meant : ∀ root < input.params.partitionCount, targets root)
    (chunk : Chunk) :
    (addBuildChunk chunk).Ends input (fun _ => Feeds targets true input)
      fun _ => Feeds targets false input := by
  unfold addBuildChunk checkCancelled
  rw [ends_bind, ends_bind, ends_get, ends_ite]
  refine ⟨fun _ => .refl, fun _ => ?_⟩
  rw [ends_pure, ends_bind, ends_get]
  exact follows_route (fun root member => follows_appendBuild (meant root (List.mem_range.mp member)))
    _ _ chunk input

theorem follows_restoreBuildBlock
    (meant : targets partition)
    (block : Nat) :
    (restoreBuildBlock partition block).Follows (Feeds targets) :=
  follows_onBuild (Partition.follows_restoreBlock block) meant

theorem follows_restoreProbeBlock
    (meant : targets partition)
    (block : Nat) :
    (restoreProbeBlock partition block).Follows (Feeds targets) :=
  follows_onProbe (follows_pure _) (Partition.follows_restoreBlock block) meant

theorem follows_releaseProbe
    (meant : targets partition) :
    (releaseProbe partition).Follows (Feeds targets) :=
  follows_onProbe (follows_pure _) Partition.follows_release meant

/-! ## Reading -/

/-- Putting back the build side that was there changes no partition. -/
theorem quiet_withBuild
    {holding : Holding}
    (found : input.arena.records[partition]? = some record)
    (same : holding.partition = record.build)
    (keeps : input.area.store.Keeps holding.area.store []) :
    input.Quiet (input.withBuild partition holding) where
  outline := outline_modify _ _ _ fun _ => rfl
  part? := by
    have put : (input.withBuild partition holding).arena.part? =
        Function.update input.arena.part? (.build, partition) (some holding.partition) :=
      Arena.part?_modify found rfl fun other different => by
        cases other with
        | build => exact absurd rfl different
        | probe => rfl
    rw [put, same, ← Arena.part?_build found, Function.update_eq_self]
  keeps

/-- Putting back the probe side that was there changes no partition. -/
theorem quiet_withProbe
    {holding : Holding}
    (found : input.arena.records[partition]? = some record)
    (same : record.probe = some holding.partition)
    (keeps : input.area.store.Keeps holding.area.store []) :
    input.Quiet (input.withProbe partition holding) where
  outline := outline_modify _ _ _ fun _ => rfl
  part? := by
    have put : (input.withProbe partition holding).arena.part? =
        Function.update input.arena.part? (.probe, partition) (some holding.partition) :=
      Arena.part?_modify found rfl fun other different => by
        cases other with
        | build => rfl
        | probe => exact absurd rfl different
    rw [put, ← same, ← Arena.part?_probe found, Function.update_eq_self]
  keeps

instance : Composes fun _ : Bool => Quiet where
  refl _ := Quiet.refl
  trans := Quiet.trans

theorem quiet_onBuild
    {step : Step Holding α}
    (reads : step.Follows Partition.Reads) :
    (onBuild partition step).Follows fun _ => Quiet := by
  refine fun input => ends_onBuild_of (fun record found => ?_) fun _ => .refl _
  exact (reads _).mono (fun _ _ read => quiet_withBuild found read.1 read.2.keeps)
    fun _ _ read => quiet_withBuild found read.1 read.2.keeps

theorem quiet_onProbe
    {absent : Step Partitioned α}
    {step : Step Holding α}
    (otherwise : absent.Follows fun _ => Quiet)
    (reads : step.Follows Partition.Reads) :
    (onProbe partition absent step).Follows fun _ => Quiet := by
  refine fun input => ends_onProbe_of (otherwise input) (fun record probe found has => ?_) fun _ => .refl _
  have quiet : ∀ {holding : Holding}, Partition.Reads true ⟨probe, input.area⟩ holding →
      input.Quiet (input.withProbe partition holding) :=
    fun read => quiet_withProbe found (has.trans (congrArg some read.1.symm)) read.2.keeps
  exact (reads _).mono (fun _ _ read => quiet read) fun _ _ read => quiet read

/-! ## What changes keep -/

theorem getElem?_modify
    {arena : Arena}
    (found : arena.records[partition]? = some record)
    (other : Nat)
    (change : PartitionRecord → PartitionRecord) :
    (arena.modify other change).records[partition]? =
      some (if other = partition then change record else record) := by
  rw [Arena.modify, Array.getElem?_modify, found]
  split <;> rfl

theorem exists_of_getElem?_modify
    {arena : Arena}
    {other : Nat}
    {change : PartitionRecord → PartitionRecord}
    (found : (arena.modify other change).records[partition]? = some record) :
    ∃ old, arena.records[partition]? = some old ∧
      record = if other = partition then change old else old := by
  cases was : arena.records[partition]? with
  | none => simp [Arena.modify, Array.getElem?_modify, was] at found
  | some old =>
      rw [getElem?_modify was, Option.some.injEq] at found
      exact ⟨old, rfl, found.symm⟩

/-- What is appended to an arena leaves what was there. -/
theorem getElem?_push_of_found
    {arena : Arena}
    (found : arena.records[partition]? = some record)
    (child : PartitionRecord) :
    (arena.push child).records[partition]? = some record := by
  rw [Arena.push, Array.getElem?_push, if_neg, found]
  rintro rfl
  simp at found

/-- Partitions that are fed stay where they are, and those that are not meant stay as they are unless
they can be spilled. -/
theorem Feed.exists_record
    (feed : Feed targets met before after)
    (found : before.arena.records[partition]? = some record) :
    ∃ new, after.arena.records[partition]? = some new ∧ new.place = record.place ∧
      (¬ targets partition → ¬ record.Evictable → new = record) := by
  cases feed with
  | @build other old holding there meant _ =>
      refine ⟨_, getElem?_modify found other _, ?_, fun apart unevictable => ?_⟩
      · split <;> rfl
      · rw [if_neg]
        rintro rfl
        rw [found, Option.some.injEq] at there
        exact meant.elim apart (there ▸ unevictable)
  | @probe other old probe holding there has meant _ =>
      refine ⟨_, getElem?_modify found other _, ?_, fun apart _ => ?_⟩
      · split <;> rfl
      · rw [if_neg]
        rintro rfl
        exact apart meant
  | books => exact ⟨record, found, rfl, fun _ _ => rfl⟩

theorem Change.exists_record
    (change : Change targets met before after)
    (found : before.arena.records[partition]? = some record) :
    ∃ new, after.arena.records[partition]? = some new ∧ new.level = record.level ∧
      (¬ targets partition → new.place = record.place ∧ (¬ record.Evictable → new = record)) := by
  cases change with
  | feed feed =>
      obtain ⟨new, there, place, same⟩ := feed.exists_record found
      exact ⟨new, there, congrArg PartitionPlace.level place, fun apart => ⟨place, same apart⟩⟩
  | @close other state meant _ =>
      refine ⟨_, getElem?_modify found other _, ?_, fun apart => ?_⟩
      · split <;> rfl
      · have different : other ≠ partition := fun same => apart (same ▸ meant)
        rw [if_neg different]
        exact ⟨rfl, fun _ => rfl⟩
  | @child parent level bucket number arena meant _ added =>
      have linked := getElem?_modify found parent fun above =>
        { above with children := above.children ++ [before.arena.size] }
      have pushed := getElem?_push_of_found linked (before.newRecord (some parent) level bucket)
      rw [← (Arena.eq_of_add rfl added).2] at pushed
      refine ⟨_, pushed, ?_, fun apart => ?_⟩
      · split <;> rfl
      · have different : parent ≠ partition := fun same => apart (same ▸ meant)
        rw [if_neg different]
        exact ⟨rfl, fun _ => rfl⟩
  | notes pinned repartitions => exact ⟨record, found, rfl, fun _ => ⟨rfl, fun _ => rfl⟩⟩

theorem Feed.size_eq (feed : Feed targets met before after) : after.arena.size = before.arena.size := by
  cases feed <;> simp [withBuild, withProbe]

theorem Change.size_le
    (change : Change targets met before after) :
    before.arena.size ≤ after.arena.size := by
  cases change with
  | feed feed => exact Nat.le_of_eq feed.size_eq.symm
  | close meant closed => simp
  | child meant shallow added => exact (Arena.of_add rfl added).2.1 ▸ Nat.le_succ _
  | notes pinned repartitions => exact Nat.le_refl _

/-- What partitioned input was made for. -/
structure Setting where
  operator : String
  params : Params
  buildSchema : Schema
  buildKey : String
  probeSide : Option ProbeSide
  account : Nat
  cancelledAt : Arena → SpillArea → Bool

/-- What the input was made for. -/
def setting (input : Partitioned) : Setting where
  operator := input.operator
  params := input.params
  buildSchema := input.buildSchema
  buildKey := input.buildKey
  probeSide := input.probeSide
  account := input.account
  cancelledAt := input.cancelledAt

theorem Change.setting_eq
    (change : Change targets met before after) :
    after.setting = before.setting := by
  cases change with
  | feed feed => cases feed <;> rfl
  | _ => rfl

theorem Change.params_eq
    (change : Change targets met before after) :
    after.params = before.params :=
  congrArg Setting.params change.setting_eq

theorem Change.limit_eq
    (change : Change targets met before after) :
    (after.ledger.account after.account).limit = (before.ledger.account before.account).limit := by
  cases change with
  | feed feed =>
      cases feed with
      | books _ _ limits => exact limits _
      | _ => rfl
  | _ => rfl

theorem Change.later
    (change : Change targets met before after) :
    before.area.store.Later after.area.store := by
  cases change with
  | feed feed =>
      cases feed with
      | build found meant changes => exact changes.later
      | probe found has meant changes => exact changes.later
      | books => exact (Store.Same.refl _).toLater
  | _ => exact (Store.Same.refl _).toLater

theorem Change.fresh
    (change : Change targets met before after)
    (fresh : before.area.store.Fresh) :
    after.area.store.Fresh := by
  cases change with
  | feed feed =>
      cases feed with
      | build found meant changes => exact changes.fresh fresh
      | probe found has meant changes => exact changes.fresh fresh
      | books => exact fresh
  | _ => exact fresh

/-- A partition was there before, at the same level and with as many sides, or it is new, above the depth
limit and has the sides that are declared. -/
theorem Change.of_record
    (change : Change targets met before after)
    (found : after.arena.records[partition]? = some record) :
    (∃ old, before.arena.records[partition]? = some old ∧ record.level = old.level ∧
      record.probe.isSome = old.probe.isSome ∧
      (met = true → old.build.Counted → record.build.Counted)) ∨
        (record.level < before.params.maxDepth ∧
          record.probe.isSome = before.probeSide.isSome ∧ record.build.Counted) := by
  cases change with
  | feed feed =>
      cases feed with
      | @build other changed holding there meant changes =>
          obtain ⟨old, was, rfl⟩ := exists_of_getElem?_modify found
          refine .inl ⟨old, was, ?_, ?_, fun met counted => ?_⟩
          · split <;> rfl
          · split <;> rfl
          · split
            case isTrue same =>
                subst same
                rw [was, Option.some.injEq] at there
                exact changes.counted met (there ▸ counted)
            case isFalse => exact counted
      | @probe other changed probe holding there has meant changes =>
          obtain ⟨old, was, rfl⟩ := exists_of_getElem?_modify found
          refine .inl ⟨old, was, ?_, ?_, fun _ counted => ?_⟩
          · split <;> rfl
          · split
            case isTrue same =>
                subst same
                rw [was, Option.some.injEq] at there
                rw [there, has]
                rfl
            case isFalse => rfl
          · split <;> exact counted
      | books => exact .inl ⟨record, found, rfl, rfl, fun _ => id⟩
  | close meant closed =>
      obtain ⟨old, was, rfl⟩ := exists_of_getElem?_modify found
      refine .inl ⟨old, was, ?_, ?_, fun _ counted => ?_⟩
      · split <;> rfl
      · split <;> rfl
      · split <;> exact counted
  | @child parent level bucket number arena meant shallow added =>
      dsimp only at found
      rw [(Arena.eq_of_add rfl added).2, Arena.push, Array.getElem?_push] at found
      split at found
      case isTrue =>
          cases found
          exact .inr ⟨shallow, Option.isSome_map .., fun _ => rfl⟩
      case isFalse =>
          obtain ⟨old, was, rfl⟩ := exists_of_getElem?_modify found
          refine .inl ⟨old, was, ?_, ?_, fun _ counted => ?_⟩
          · split <;> rfl
          · split <;> rfl
          · split <;> exact counted
  | notes pinned repartitions => exact .inl ⟨record, found, rfl, rfl, fun _ => id⟩

theorem Evolves.size_le
    (evolves : Evolves targets met before after) :
    before.arena.size ≤ after.arena.size := by
  induction evolves with
  | refl => exact Nat.le_refl _
  | tail _ change inductionHypothesis => exact Nat.le_trans inductionHypothesis change.size_le

theorem Evolves.setting_eq
    (evolves : Evolves targets met before after) :
    after.setting = before.setting := by
  induction evolves with
  | refl => rfl
  | tail _ change inductionHypothesis => exact change.setting_eq.trans inductionHypothesis

theorem Evolves.params_eq
    (evolves : Evolves targets met before after) :
    after.params = before.params :=
  congrArg Setting.params evolves.setting_eq

theorem Evolves.limit_eq
    (evolves : Evolves targets met before after) :
    (after.ledger.account after.account).limit = (before.ledger.account before.account).limit := by
  induction evolves with
  | refl => rfl
  | tail _ change inductionHypothesis => exact change.limit_eq.trans inductionHypothesis

theorem Evolves.later
    (evolves : Evolves targets met before after) :
    before.area.store.Later after.area.store := by
  induction evolves with
  | refl => exact (Store.Same.refl _).toLater
  | tail _ change inductionHypothesis => exact inductionHypothesis.trans change.later

theorem Evolves.fresh
    (evolves : Evolves targets met before after)
    (fresh : before.area.store.Fresh) :
    after.area.store.Fresh := by
  induction evolves with
  | refl => exact fresh
  | tail _ change inductionHypothesis => exact change.fresh inductionHypothesis

/-- A partition keeps its level, and one that is not meant stays where it is. It stays as it is unless it
can be spilled. -/
theorem Evolves.exists_record
    (evolves : Evolves targets met before after)
    (found : before.arena.records[partition]? = some record) :
    ∃ new, after.arena.records[partition]? = some new ∧ new.level = record.level ∧
      (¬ targets partition → new.place = record.place ∧ (¬ record.Evictable → new = record)) := by
  induction evolves with
  | refl => exact ⟨record, found, rfl, fun _ => ⟨rfl, fun _ => rfl⟩⟩
  | tail _ change inductionHypothesis =>
      obtain ⟨middle, there, level, apart⟩ := inductionHypothesis
      obtain ⟨new, here, sameLevel, stays⟩ := change.exists_record there
      refine ⟨new, here, sameLevel.trans level, fun unmeant => ?_⟩
      obtain ⟨place, same⟩ := apart unmeant
      obtain ⟨samePlace, still⟩ := stays unmeant
      refine ⟨samePlace.trans place, fun unevictable => ?_⟩
      have middleSame := same unevictable
      subst middleSame
      exact still unevictable

theorem Feeds.exists_record
    (feeds : Feeds targets met before after)
    (found : before.arena.records[partition]? = some record) :
    ∃ new, after.arena.records[partition]? = some new ∧ new.place = record.place := by
  induction feeds with
  | refl => exact ⟨record, found, rfl⟩
  | tail _ feed inductionHypothesis =>
      obtain ⟨middle, there, place⟩ := inductionHypothesis
      obtain ⟨new, here, same, _⟩ := feed.exists_record there
      exact ⟨new, here, same.trans place⟩

theorem Feeds.size_eq
    (feeds : Feeds targets met before after) :
    after.arena.size = before.arena.size := by
  induction feeds with
  | refl => rfl
  | tail _ feed inductionHypothesis => exact feed.size_eq.trans inductionHypothesis

theorem Feeds.repartitions_eq
    (feeds : Feeds targets met before after) :
    after.repartitions = before.repartitions := by
  induction feeds with
  | refl => rfl
  | tail _ feed inductionHypothesis => exact Eq.trans (by cases feed <;> rfl) inductionHypothesis

theorem Feeds.pinned_eq
    (feeds : Feeds targets met before after) :
    after.pinned = before.pinned := by
  induction feeds with
  | refl => rfl
  | tail _ feed inductionHypothesis => exact Eq.trans (by cases feed <;> rfl) inductionHypothesis

/-- Every partition is above the depth limit. -/
def Shallow (input : Partitioned) : Prop :=
  ∀ (partition : Nat) (record : PartitionRecord),
    input.arena.records[partition]? = some record → record.level < input.params.maxDepth

/-- Every build side that has anything has counted rows. -/
def Counts (input : Partitioned) : Prop :=
  ∀ (partition : Nat) (record : PartitionRecord),
    input.arena.records[partition]? = some record → record.build.Counted

theorem Evolves.shallow
    (evolves : Evolves targets met before after)
    (shallow : before.Shallow) :
    after.Shallow := by
  induction evolves with
  | refl => exact shallow
  | tail evolved change inductionHypothesis =>
      intro partition record found
      rw [change.params_eq]
      obtain ⟨old, was, level, _, _⟩ | ⟨above, _, _⟩ := change.of_record found
      · exact level ▸ inductionHypothesis partition old was
      · exact above

/-- In steps that are met rows are counted where they are put. -/
theorem Evolves.counts
    (evolves : Evolves targets true before after)
    (counts : before.Counts) :
    after.Counts := by
  induction evolves with
  | refl => exact counts
  | tail evolved change inductionHypothesis =>
      intro partition record found
      obtain ⟨old, was, _, _, counted⟩ | ⟨_, _, counted⟩ := change.of_record found
      · exact counted rfl (inductionHypothesis partition old was)
      · exact counted

/-- Every partition has a probe side if one is declared. -/
def Probed (input : Partitioned) : Prop :=
  ∀ (partition : Nat) (record : PartitionRecord),
    input.arena.records[partition]? = some record → record.probe.isSome = input.probeSide.isSome

theorem Evolves.probed
    (evolves : Evolves targets met before after)
    (probed : before.Probed) :
    after.Probed := by
  induction evolves with
  | refl => exact probed
  | @tail between last evolved change inductionHypothesis =>
      intro partition record found
      have declared : last.probeSide = between.probeSide :=
        congrArg Setting.probeSide change.setting_eq
      rw [declared]
      obtain ⟨old, was, _, sides, _⟩ | ⟨_, sides, _⟩ := change.of_record found
      · exact sides.trans (inductionHypothesis partition old was)
      · exact sides

end Partitioned
end Spillway
