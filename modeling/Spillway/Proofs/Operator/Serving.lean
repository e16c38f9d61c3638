import Spillway.Proofs.Operator.Closing

/-!
# Partitioned input that is served

While the store serves every call and nobody cancels the query, rows can be appended to partitions,
spilled, dealt out and read back, one lemma for each step. A spilled partition is then split unless that
would lead below the depth limit or the arena is full.
-/

namespace Spillway

/-- A chunk of a side can be dealt out if the side has a key. -/
theorem ProbeSide.Keyed.exists_split
    {side : ProbeSide}
    {chunk : Chunk}
    (keyed : side.Keyed)
    (fits : chunk.schema = side.schema)
    (directory : Directory) :
    ∃ parts, directory.split chunk side.key = .ok parts := by
  obtain ⟨position, located⟩ := keyed.keyPosition fits
  unfold Directory.split
  split
  · exact ⟨_, rfl⟩
  · rw [located]
    exact ⟨_, rfl⟩

/-- Rows are dealt out by a key only. -/
theorem ProbeSide.Keyed.of_split
    {side : ProbeSide}
    {chunk : Chunk}
    {directory : Directory}
    {parts : List (Option Chunk)}
    (splits : directory.split chunk side.key = .ok parts)
    (some : chunk.isEmpty = false)
    (fits : chunk.schema = side.schema) :
    side.Keyed := by
  rw [Directory.split, some, if_neg Bool.false_ne_true, bind_eq_ok_iff] at splits
  obtain ⟨_, located, -⟩ := splits
  exact .of_keyPosition located fits

namespace Partitioned

open Step

variable {precise : Prop} {targets : Nat → Prop} {met : Bool} {before after input : Partitioned}
  {partition : Nat} {record : PartitionRecord} {contents : Contents} {α : Type}

/-- The store serves every call, and nobody cancels the query. -/
structure Undisturbed (input : Partitioned) : Prop where
  reliable : input.area.store.Reliable
  uncancelled : ∀ arena area, input.cancelledAt arena area = false

theorem Evolves.undisturbed
    (evolves : Evolves targets met before after)
    (undisturbed : before.Undisturbed) :
    after.Undisturbed where
  reliable := undisturbed.reliable.later evolves.later (evolves.fresh undisturbed.reliable.fresh)
  uncancelled := by
    have same : after.cancelledAt = before.cancelledAt :=
      congrArg Setting.cancelledAt evolves.setting_eq
    exact same ▸ undisturbed.uncancelled

theorem Undisturbed.serves_checkCancelled
    (undisturbed : input.Undisturbed) :
    checkCancelled.Serves input := by
  have goesOn : checkCancelled.Succeeds input () input :=
    succeeds_checkCancelled.mpr ⟨undisturbed.uncancelled _ _, rfl⟩
  exact goesOn.serves

/-- Nothing is in the way of what is asked: every partition is above the depth limit and has the sides
that are declared, and the account has the limit that the operator is sized with. -/
structure Sound (input : Partitioned) : Prop extends Undisturbed input where
  probed : input.Probed
  shallow : input.Shallow
  limit : (input.ledger.account input.account).limit = input.params.memLimit

theorem Evolves.sound
    (evolves : Evolves targets met before after)
    (sound : before.Sound) :
    after.Sound where
  toUndisturbed := evolves.undisturbed sound.toUndisturbed
  probed := evolves.probed sound.probed
  shallow := evolves.shallow sound.shallow
  limit := by rw [evolves.limit_eq, evolves.params_eq, sound.limit]

/-- Rows can be appended to the given partitions. -/
structure Ready
    (targets : Nat → Prop)
    (input : Partitioned) : Prop extends Undisturbed input where
  probed : input.Probed
  known : ∀ partition, targets partition → partition < input.arena.size

theorem Evolves.ready
    {more : Nat → Prop}
    (evolves : Evolves more met before after)
    (ready : before.Ready targets) :
    after.Ready targets where
  toUndisturbed := evolves.undisturbed ready.toUndisturbed
  probed := evolves.probed ready.probed
  known partition meant := Nat.lt_of_lt_of_le (ready.known partition meant) evolves.size_le

theorem Ready.exists_record
    (ready : input.Ready targets)
    (meant : targets partition) :
    ∃ record, input.arena.records[partition]? = some record :=
  Arena.exists_record_of_lt (ready.known partition meant)

/-- Feeding partitions leaves all of them ready. -/
theorem upholds_ready
    {step : Step Partitioned α}
    (follows : step.Follows (Feeds fun _ => True))
    (serves : ∀ input, input.Ready targets → step.Serves input) :
    step.Upholds (Ready targets) :=
  follows.upholds serves fun _ _ feeds => feeds.evolves.ready

/-! ## Appending -/

theorem serves_spillPartition
    (reliable : input.area.store.Reliable)
    (found : input.arena.records[partition]? = some record) :
    (spillPartition partition).Serves input := by
  rw [spillPartition, Serves, ends_bind, ends_record_of found, ends_ite]
  refine ⟨fun _ => trivial, fun _ => ?_⟩
  rw [ends_bind, ends_onBuild found]
  exact (Partition.serves_spill reliable).mono (fun _ _ _ => trivial) fun _ _ => id

theorem serves_spillLargest (reliable : input.area.store.Reliable) : spillLargest.Serves input := by
  rw [spillLargest, Serves, ends_bind, ends_get]
  split
  case h_1 victim largest =>
      obtain ⟨record, found, _⟩ := exists_evictable_of_largestOpen? largest
      rw [ends_bind]
      exact (serves_spillPartition reliable found).mono (fun _ _ _ => trivial) fun _ _ => id
  case h_2 => trivial

theorem serves_tryCharge (bytes : Nat) : (tryCharge bytes).Serves input :=
  ends_tryCharge_of (fun _ _ => trivial) fun _ => trivial

section Append

variable (meant : targets partition)
include meant

theorem upholds_record : (Partitioned.record partition).Upholds (Ready targets) := by
  intro input ready
  obtain ⟨record, found⟩ := ready.exists_record meant
  exact (ends_record_of found).mpr ready

theorem upholds_append (chunk : Chunk) :
    (onBuild partition (Partition.append chunk)).Upholds (Ready targets) := by
  refine upholds_ready (follows_onBuild (Partition.follows_append chunk) trivial) fun input ready => ?_
  obtain ⟨record, found⟩ := ready.exists_record meant
  exact (ends_onBuild found _).mpr (Partition.serves_append (by exact ready.reliable) chunk)

theorem upholds_appendCharged
    (bytes : Nat)
    (chunk : Chunk) :
    (appendCharged partition bytes chunk).Upholds (Ready targets) := by
  intro input ready
  rw [appendCharged, ends_bind, ends_attempt]
  exact (upholds_append meant chunk input ready).mono (fun _ _ ready => ready) fun _ _ => False.elim

theorem upholds_appendBuild (chunk : Chunk) : (appendBuild partition chunk).Upholds (Ready targets) := by
  have append := upholds_append meant chunk
  have charged := upholds_appendCharged meant chunk.logicalBytes chunk
  have charge : (tryCharge chunk.logicalBytes).Upholds (Ready targets) :=
    upholds_ready (follows_tryCharge _) fun _ _ => serves_tryCharge _
  have makesRoom : spillLargest.Upholds (Ready targets) :=
    upholds_ready follows_spillLargest fun _ ready => serves_spillLargest ready.reliable
  have spill : (spillPartition partition).Upholds (Ready targets) := by
    refine upholds_ready (fun _ => ends_spillPartition_feeds fun _ _ => .inl trivial)
      fun input ready => ?_
    obtain ⟨record, found⟩ := ready.exists_record meant
    exact serves_spillPartition ready.reliable found
  refine (upholds_record meant).bind fun target => ?_
  split
  · exact append
  refine charge.bind fun fits => ?_
  split
  · exact charged
  refine makesRoom.bind fun _ => (upholds_record meant).bind fun target => ?_
  split
  · exact append
  refine charge.bind fun fits => ?_
  split
  · exact charged
  · exact spill.bind fun _ => append

/-- Rows can be appended to probe sides if there are any. -/
theorem upholds_appendProbe (chunk : Chunk) :
    (appendProbe partition chunk).Upholds fun input =>
      input.Ready targets ∧ input.probeSide.isSome = true := by
  have follows : (appendProbe partition chunk).Follows (Feeds fun _ => True) :=
    follows_appendProbe trivial chunk
  refine follows.upholds (fun input both => ?_)
    fun before after feeds both => ⟨feeds.evolves.ready both.1, ?_⟩
  · obtain ⟨ready, declared⟩ := both
    obtain ⟨record, found⟩ := ready.exists_record meant
    rw [appendProbe, Serves, ends_bind, ends_get, ends_onProbe found]
    cases has : record.probe with
    | none => simp [← ready.probed _ _ found, has] at declared
    | some probe => exact Partition.serves_append (by exact ready.reliable) chunk
  · have same : after.probeSide = before.probeSide :=
      congrArg Setting.probeSide feeds.evolves.setting_eq
    rw [same]
    exact both.2

end Append

/-! ## Dealing out -/

variable {Invariant : Partitioned → Prop} {partitions : List Nat} {declared : ProbeSide} {chunk : Chunk}

theorem upholds_deal
    {append : Nat → Chunk → Step Partitioned Unit}
    (parts : List (Nat × Option Chunk))
    (upholds : ∀ partition part, (partition, part) ∈ parts → ∀ chunk,
      (append partition chunk).Upholds Invariant) :
    (deal append parts).Upholds Invariant := by
  induction parts with
  | nil => exact upholds_pure _
  | cons pair rest inductionHypothesis =>
      have others := inductionHypothesis fun partition part member =>
        upholds partition part (List.mem_cons_of_mem _ member)
      obtain ⟨partition, none | part⟩ := pair
      · exact others
      · exact (upholds partition _ List.mem_cons_self part).bind fun _ => others

theorem upholds_route
    {append : Nat → Chunk → Step Partitioned Unit}
    (upholds : ∀ partition ∈ partitions, ∀ chunk, (append partition chunk).Upholds Invariant)
    (keyed : declared.Keyed)
    (fits : chunk.schema = declared.schema)
    (directory : Directory) :
    (route append directory declared.key partitions chunk).Upholds Invariant := by
  obtain ⟨parts, dealt⟩ := keyed.exists_split fits directory
  rw [route, dealt]
  exact upholds_deal _ fun partition _ member => upholds partition (List.of_mem_zip member).1

/-- Build rows that have a key are dealt out to the roots. -/
theorem serves_addBuildChunk
    (ready : input.Ready (· ∈ input.roots))
    (declares : input.side? .build = some declared)
    (keyed : declared.Keyed)
    (fits : chunk.schema = declared.schema) :
    (addBuildChunk chunk).Serves input := by
  obtain rfl : ⟨input.buildSchema, input.buildKey⟩ = declared := Option.some.inj declares
  refine ready.toUndisturbed.serves_checkCancelled.bind fun _ between checked => ?_
  obtain ⟨-, rfl⟩ := succeeds_checkCancelled.mp checked
  exact (upholds_route (fun root member part => upholds_appendBuild member part) keyed fits
    (input.directory 0)).serves ready

theorem serves_restoreBuildBlock
    {source : Partition}
    {stored : List (List Chunk)}
    {block : Nat}
    (reliable : input.area.store.Reliable)
    (found : input.arena.part? (.build, partition) = some source)
    (held : source.Stored input.area.store stored)
    (inside : block < (source.segments stored).length) :
    (restoreBuildBlock partition block).Serves input := by
  obtain ⟨record, there, rfl⟩ := Arena.exists_record_of_part?_build found
  have readable : (⟨record.build, input.area⟩ : Holding).area.store.Readable := reliable.readable
  obtain ⟨after, read⟩ := Partition.exists_succeeds_restoreBlock readable held inside
  exact (ends_onBuild there _).mpr read.serves

theorem serves_restoreProbeBlock
    {source : Partition}
    {stored : List (List Chunk)}
    {block : Nat}
    (reliable : input.area.store.Reliable)
    (found : input.arena.part? (.probe, partition) = some source)
    (held : source.Stored input.area.store stored)
    (inside : block < (source.segments stored).length) :
    (restoreProbeBlock partition block).Serves input := by
  obtain ⟨record, there, has⟩ := Option.bind_eq_some_iff.mp found
  have readable : (⟨source, input.area⟩ : Holding).area.store.Readable := reliable.readable
  obtain ⟨after, read⟩ := Partition.exists_succeeds_restoreBlock readable held inside
  rw [restoreProbeBlock, Serves, ends_onProbe there, show record.probe = some source from has]
  exact read.serves

/-- Blocks that can be read are dealt out as long as what is read fits. -/
theorem upholds_streamBlocks
    (declared : ProbeSide)
    {restore : Nat → Step Partitioned (List Chunk)}
    {accept : Chunk → Step Partitioned Unit}
    {blocks : List Nat}
    (undisturbed : ∀ input, Invariant input → input.Undisturbed)
    (restores : ∀ block ∈ blocks, ∀ input, Invariant input → (restore block).Ends input
      (fun chunks after => Invariant after ∧ ∀ chunk ∈ chunks, chunk.schema = declared.schema)
      fun _ _ => False)
    (accepts : ∀ chunk, chunk.schema = declared.schema → (accept chunk).Upholds Invariant) :
    (streamBlocks restore accept blocks).Upholds Invariant := by
  induction blocks with
  | nil => exact upholds_pure _
  | cons block blocks inductionHypothesis =>
      intro input invariant
      rw [streamBlocks, ends_bind]
      refine ((undisturbed input invariant).serves_checkCancelled.and_succeeds).mono
        (fun _ between checked => ?_) fun _ _ => id
      obtain ⟨-, rfl⟩ := succeeds_checkCancelled.mp checked.1
      rw [ends_bind]
      refine (restores block List.mem_cons_self input invariant).mono (fun chunks read restored => ?_)
        fun _ _ => id
      obtain ⟨invariant, fitting⟩ := restored
      have rest := inductionHypothesis fun other member =>
        restores other (List.mem_cons_of_mem block member)
      exact ((Upholds.forM fun chunk member => accepts chunk (fitting chunk member)).bind
        fun _ => rest) read invariant

theorem serves_keepNonEmpty
    {children : List Nat}
    (known : ∀ child ∈ children, child < input.arena.size) :
    (keepNonEmpty children).Serves input := by
  induction children generalizing input with
  | nil => trivial
  | cons child rest inductionHypothesis =>
      obtain ⟨first, later⟩ := List.forall_mem_cons.mp known
      obtain ⟨record, found⟩ := Arena.exists_record_of_lt first
      rw [keepNonEmpty, Serves, ends_bind, ends_record_of found, ends_ite]
      refine ⟨fun _ => ?_, fun _ => ?_⟩
      · rw [ends_bind, setState, changeRecord, ends_modify, ends_bind]
        refine (ends_releaseProbe_cleared (getElem?_modify_state found .completed)).mono
          (fun _ between released => ?_) fun _ _ => id
        refine inductionHypothesis fun other member => ?_
        rw [released.1.size_eq, Arena.size_modify]
        exact later other member
      · rw [ends_bind]
        exact (inductionHypothesis later).mono (fun _ _ _ => trivial) fun _ _ => id

/-- One side of a partition is dealt out to children that are ready. -/
structure Dealing
    (setting : Partitioned)
    (slot : Slot)
    (source : Partition)
    (children : List Nat)
    (input : Partitioned) : Prop where
  ready : input.Ready (· ∈ children)
  holds : ∃ contents, input.Holds False contents
  side? : input.side? = setting.side?
  source : input.arena.part? slot = some source

section Dealing

variable {setting : Partitioned} {slot : Slot} {source : Partition} {children : List Nat} {number : Nat}

/-- Any block of what is dealt out can be read, as chunks that fit. -/
theorem Dealing.ends_restore
    {restore : Nat → Step Partitioned (List Chunk)}
    {block : Nat}
    (dealing : Dealing setting slot source children input)
    (declares : setting.side? slot.1 = some declared)
    (spilled : source.spilled = true)
    (inside : block < source.blockCount)
    (restores : Restores slot restore)
    (follows : (restore block).Follows (Feeds fun _ => True))
    (serves : ∀ {stored}, source.Stored input.area.store stored →
      block < (source.segments stored).length → (restore block).Serves input) :
    (restore block).Ends input
      (fun chunks after => Dealing setting slot source children after ∧
        ∀ chunk ∈ chunks, chunk.schema = declared.schema)
      fun _ _ => False := by
  obtain ⟨contents, holds⟩ := dealing.holds
  obtain ⟨side, same, held⟩ := holds.holds slot source dealing.source
  rw [dealing.side?, declares, Option.some.injEq] at same
  subst same
  obtain ⟨stored, stores, _, suits⟩ := held.toStores.exists_segments spilled
  rw [← Partition.length_segments stores] at inside
  refine ((serves stores inside).ends ((follows input).and (ends_outcome _ input))).mono
    (fun chunks after read => ?_) fun _ _ => id
  obtain ⟨feeds, succeeds⟩ := read
  obtain ⟨read, quiet⟩ := restores succeeds dealing.source stores
  refine ⟨⟨feeds.evolves.ready dealing.ready, ⟨contents, quiet.holds holds⟩, ?_, ?_⟩,
    fun chunk member => (suits chunks (List.mem_of_getElem? read) chunk member).schema_eq⟩
  · exact (side?_of_outline quiet.outline).trans dealing.side?
  · rw [quiet.part?]
    exact dealing.source

/-- Chunks that fit can be dealt out to the children, and that leaves what is dealt out as it is. -/
theorem Dealing.ends_route
    {append : Nat → Chunk → Step Partitioned Unit}
    (dealing : Dealing setting slot source children input)
    (declares : setting.side? slot.1 = some declared)
    (spilled : source.spilled = true)
    (fits : chunk.schema = declared.schema)
    (distinct : children.Nodup)
    (matching : children.length = setting.params.partitionCount)
    (apart : slot.2 ∉ children)
    (level : Nat)
    (appends : Appends slot.1 append)
    (follows : ∀ child ∈ children, ∀ chunk, (append child chunk).Follows (Feeds fun _ => True))
    (serves : (route append (setting.directory level) declared.key children chunk).Serves input) :
    (route append (setting.directory level) declared.key children chunk).Ends input
      (fun _ => Dealing setting slot source children) fun _ _ => False := by
  obtain ⟨contents, holds⟩ := dealing.holds
  refine (serves.ends ((follows_route follows _ _ chunk input).and (ends_outcome _ input))).mono
    (fun _ after dealt => ?_) fun _ _ => id
  obtain ⟨feeds, succeeds⟩ := dealt
  obtain ⟨filled, held, -, fills⟩ := succeeds_route succeeds appends holds
    ((congrFun dealing.side? _).trans declares) declares rfl ⟨fits, False.elim⟩ distinct matching
  have outside : slot ∉ children.map fun child => (slot.1, child) := by
    rintro member
    obtain ⟨child, inside, same⟩ := List.mem_map.mp member
    exact apart (same ▸ inside)
  exact ⟨feeds.evolves.ready dealing.ready, ⟨_, held⟩,
    (side?_of_outline fills.outline).trans dealing.side?,
    fills.steady slot source outside dealing.source spilled⟩

/-- Whatever was dealt out to the children, a partition can be given up. -/
theorem Dealing.serves_giveUp
    {side : Side}
    (dealing : Dealing setting (side, partition) source children input) :
    (do
      onBuild partition Partition.release
      releaseProbe partition
      setState partition .repartitioned
      modify fun input => { input with repartitions := input.repartitions + 1 }
      keepNonEmpty children : Step Partitioned (List Nat)).Serves input := by
  obtain ⟨record, found, -⟩ := Option.bind_eq_some_iff.mp dealing.source
  refine ends_giveUp found (.inr rfl) fun after _ _ _ same => ?_
  rw [ends_bind, ends_modify]
  exact serves_keepNonEmpty fun child member => same ▸ dealing.ready.known child member

variable (spilled : source.spilled = true) (distinct : children.Nodup)
  (matching : children.length = setting.params.partitionCount) (apart : number ∉ children)
include spilled distinct matching apart

theorem upholds_dealBuild
    (keyed : ProbeSide.Keyed ⟨setting.buildSchema, setting.buildKey⟩)
    (level : Nat) :
    (streamBlocks (restoreBuildBlock number)
      (route appendBuild (setting.directory level) setting.buildKey children)
      (List.range source.blockCount)).Upholds
      (Dealing setting (.build, number) source children) := by
  refine upholds_streamBlocks ⟨setting.buildSchema, setting.buildKey⟩
    (fun _ dealing => dealing.ready.toUndisturbed) (fun block member input dealing => ?_)
    fun chunk fits input dealing => ?_
  · refine dealing.ends_restore rfl spilled (List.mem_range.mp member)
      (restores_restoreBuildBlock number) (follows_restoreBuildBlock trivial block)
      fun stores inside => ?_
    exact serves_restoreBuildBlock dealing.ready.reliable dealing.source stores inside
  · refine dealing.ends_route rfl spilled fits distinct matching apart level appends_appendBuild
      (fun child member chunk => follows_appendBuild trivial chunk) ?_
    exact (upholds_route (fun child member chunk => upholds_appendBuild member chunk) keyed fits
      (setting.directory level)).serves dealing.ready

theorem upholds_dealProbe
    (declares : setting.probeSide = some declared)
    (keyed : declared.Keyed)
    (level : Nat) :
    (streamBlocks (restoreProbeBlock number)
      (route appendProbe (setting.directory level) declared.key children)
      (List.range source.blockCount)).Upholds
      (Dealing setting (.probe, number) source children) := by
  refine upholds_streamBlocks declared (fun _ dealing => dealing.ready.toUndisturbed)
    (fun block member input dealing => ?_) fun chunk fits input dealing => ?_
  · refine dealing.ends_restore declares spilled (List.mem_range.mp member)
      (restores_restoreProbeBlock number) (follows_restoreProbeBlock trivial block)
      fun stores inside => ?_
    exact serves_restoreProbeBlock dealing.ready.reliable dealing.source stores inside
  · refine dealing.ends_route declares spilled fits distinct matching apart level appends_appendProbe
      (fun child member chunk => follows_appendProbe trivial chunk) ?_
    refine (upholds_route (fun child member chunk => upholds_appendProbe member chunk) keyed fits
      (setting.directory level)).serves ⟨dealing.ready, ?_⟩
    have same : input.probeSide = some declared := (congrFun dealing.side? .probe).trans declares
    rw [same]
    rfl

end Dealing

theorem succeeds_probeBlocks
    {probe : Partition}
    (found : input.arena.records[partition]? = some record)
    (has : record.probe = some probe) :
    (probeBlocks partition).Succeeds input probe.blockCount input := by
  unfold probeBlocks
  rw [succeeds_bind]
  refine ⟨record, input, succeeds_record_iff.mpr ⟨found, rfl⟩, ?_⟩
  rw [has]
  exact (succeeds_pure _ _ _ _).mpr ⟨rfl, rfl⟩

/-- A partition of a join has a probe side, and that can be dealt out too. -/
theorem Dealing.exists_probe
    {setting : Partitioned}
    {slot : Slot}
    {source : Partition}
    {children : List Nat}
    {declared : ProbeSide}
    (dealing : Dealing setting slot source children input)
    (found : input.arena.records[partition]? = some record)
    (declares : setting.probeSide = some declared) :
    ∃ probe, (probeBlocks partition).Succeeds input probe.blockCount input ∧ probe.spilled = true ∧
      Dealing setting (.probe, partition) probe children input := by
  obtain ⟨contents, holds⟩ := dealing.holds
  have has := dealing.ready.probed _ _ found
  have same : input.probeSide = some declared := (congrFun dealing.side? .probe).trans declares
  rw [same, Option.isSome_some, Option.isSome_iff_exists] at has
  obtain ⟨probe, has⟩ := has
  have source := (Arena.part?_probe found).trans has
  exact ⟨probe, succeeds_probeBlocks found has, holds.spilled _ _ source,
    ⟨dealing.ready, dealing.holds, dealing.side?, source⟩⟩

/-! ## Splitting -/

/-- Children of a partition are added as long as the arena has room. -/
theorem ends_addChildren_room
    {parent level : Nat}
    (found : input.arena.records[parent]? = some record)
    (deeper : record.level + 1 = level)
    (buckets : List Nat) :
    (addChildren parent level buckets).Ends input (fun _ _ => True)
      fun status after => status = ArenaFault.full.status ∧ Arena.capacity ≤ after.arena.size ∧
        after.arena.size < input.arena.size + buckets.length := by
  induction buckets generalizing input record with
  | nil => trivial
  | cons bucket buckets inductionHypothesis =>
      have above : input.arena.record parent = .ok record := Arena.record_eq_ok_iff.mpr found
      rw [addChildren, ends_bind, ends_get, ends_bind]
      by_cases full : Arena.capacity ≤ input.arena.size
      · have refused : input.arena.add (input.newRecord (some parent) level bucket) = .error .full := by
          rw [Arena.add, if_pos full]
          rfl
        have fails : (onArena fun arena => arena.add (input.newRecord (some parent) level bucket)).outcome
            input = (.error ArenaFault.full.status, input) := by
          simp [onArena, outcome, ExceptT.run, StateT.run, refused]
        exact .of_error fails ⟨rfl, full, by simp⟩
      · obtain ⟨number, grown, added⟩ : ∃ number grown,
            input.arena.add (input.newRecord (some parent) level bucket) = .ok (number, grown) := by
          simp [Arena.add, full, newRecord, above, deeper]
        have succeeds : (onArena fun arena =>
            arena.add (input.newRecord (some parent) level bucket)).Succeeds input number
              { input with arena := grown } :=
          succeeds_onArena_iff.mpr ⟨grown, added, rfl⟩
        have linked := getElem?_push_of_found (getElem?_modify found parent fun above =>
          { above with children := above.children ++ [input.arena.size] })
          (input.newRecord (some parent) level bucket)
        rw [← (Arena.eq_of_add rfl added).2, if_pos rfl] at linked
        have more : grown.size = input.arena.size + 1 := (Arena.of_add rfl added).2.1
        refine .of_ok succeeds ?_
        rw [ends_bind]
        refine (inductionHypothesis linked (by exact deeper)).mono (fun _ _ _ => trivial)
          fun _ after refused => ⟨refused.1, refused.2.1, ?_⟩
        have short := refused.2.2
        rw [List.length_cons]
        dsimp only at short
        omega

/-- The arena became full before there was a child for each bucket. -/
structure Overflows (before after : Partitioned) : Prop where
  full : Arena.capacity ≤ after.arena.size
  short : after.arena.size < before.arena.size + before.params.partitionCount

/-- A partition that is split gets its children, unless the arena becomes full. -/
theorem ends_addChildren_begins
    (undisturbed : input.Undisturbed)
    (probed : input.Probed)
    (holds : input.Holds precise contents)
    (found : input.arena.records[partition]? = some record)
    (shallow : record.level + 1 < input.params.maxDepth) :
    (addChildren partition (record.level + 1) (List.range input.params.partitionCount)).Ends
      { input with
        arena := input.arena.modify partition fun record => { record with state := .pinned } }
      (fun children begun => children = input.nextChildren ∧
        input.Begins precise begun partition record.place contents ∧ begun.Ready (· ∈ input.nextChildren))
      fun status after => status = ArenaFault.full.status ∧ Overflows input after := by
  have own := Family.self partition input.arena.size
  have mark : Evolves (Family partition input.arena.size) true input { input with
      arena := input.arena.modify partition fun record => { record with state := .pinned } } :=
    .single (.close own (by decide))
  have marks : (setState partition .pinned).Succeeds input () { input with
      arena := input.arena.modify partition fun record => { record with state := .pinned } } := rfl
  refine Ends.mono (((ends_addChildren_room (getElem?_modify_state found .pinned) (by rfl) _).and
    (ends_addChildren_evolves own (by exact shallow) _)).and (ends_outcome _ _))
    (fun children begun added => ?_) fun _ _ refused => ⟨refused.1.1.1, refused.1.1.2.1, ?_⟩
  case refine_2 =>
    have short := refused.1.1.2.2
    rwa [Arena.size_modify, List.length_range] at short
  obtain ⟨⟨-, adds, -⟩, succeeds⟩ := added
  obtain ⟨same, begins⟩ := begins_of_succeeds record.place marks succeeds holds
  have evolves : Evolves (Family partition input.arena.size) true input begun := mark.trans adds
  refine ⟨same, begins, evolves.undisturbed undisturbed, evolves.probed probed, fun child member => ?_⟩
  obtain ⟨bucket, bounded, rfl⟩ := mem_nextChildren.mp member
  rw [begins.size]
  exact Nat.add_lt_add_left bounded _

/-- A spilled partition is split, unless the split would lead below the depth limit or the arena becomes
full. -/
theorem ends_repartition_served
    (undisturbed : input.Undisturbed)
    (probed : input.Probed)
    (holds : input.Holds precise contents)
    (keyed : ∀ side declared, input.side? side = some declared → declared.Keyed)
    (found : input.arena.records[partition]? = some record)
    (spilled : record.build.spilled = true) :
    (repartition partition).Ends input
      (fun _ _ => record.level + 1 < input.params.maxDepth)
      fun status after =>
        (input.params.maxDepth ≤ record.level + 1 ∧
          status = (Fault.tooDeep input.operator partition record.level input.params.maxDepth
            record.build.rowCount record.build.estimatedSize input.params.memLimit).status ∧
          after = input) ∨
        (record.level + 1 < input.params.maxDepth ∧ status = ArenaFault.full.status ∧
          Overflows input after) := by
  have distinct := nodup_nextChildren input
  have matching := length_nextChildren input
  have apart : partition ∉ input.nextChildren :=
    notMem_nextChildren (Array.getElem?_eq_some_iff.mp found).1
  rw [repartition, ends_bind, ends_record_of found, ends_bind, ends_get]
  dsimp only
  rw [ends_ite]
  refine ⟨fun deep => .inl ⟨deep, rfl, rfl⟩, fun shallow => ?_⟩
  rw [Nat.not_le] at shallow
  rw [ends_bind, setState, changeRecord, ends_modify, ends_bind]
  refine (ends_addChildren_begins undisturbed probed holds found shallow).mono
    (fun children begun added => ?_) fun _ _ refused => .inr ⟨shallow, refused⟩
  obtain ⟨rfl, begins, ready⟩ := added
  have source := (begins.part? _ (Array.getElem?_eq_some_iff.mp found).1).trans (Arena.part?_build found)
  obtain ⟨dealt, there, build⟩ := Arena.exists_record_of_part?_build source
  rw [ends_bind, ends_record_of there, build, ends_bind]
  refine Ends.mono (upholds_dealBuild spilled distinct matching apart (keyed .build _ rfl) _ begun
    ⟨ready, ⟨_, begins.holds.relax⟩, begins.side?, source⟩) (fun _ filled dealing => ?_) fun _ _ => False.elim
  split
  · exact dealing.serves_giveUp.mono (fun _ _ _ => shallow) fun _ _ => False.elim
  · next declares =>
    obtain ⟨now, here, -⟩ := Option.bind_eq_some_iff.mp dealing.source
    obtain ⟨probe, blocks, stored, probing⟩ := dealing.exists_probe here declares
    rw [ends_bind]
    refine .of_ok blocks ?_
    rw [ends_bind]
    exact (upholds_dealProbe stored distinct matching apart declares (keyed .probe _ declares) _ filled
      probing).mono (fun _ _ dealing =>
        dealing.serves_giveUp.mono (fun _ _ _ => shallow) fun _ _ => False.elim) fun _ _ => False.elim

/-! ## Loading and completing -/

theorem serves_loadBuild
    (reliable : input.area.store.Reliable)
    (holds : input.Holds precise contents)
    (found : input.arena.records[partition]? = some record) :
    (loadBuild partition).Serves input := by
  have marked := getElem?_modify_state found .pinned
  rw [loadBuild, Serves, ends_bind, setState, changeRecord, ends_modify, ends_bind,
    ends_record_of marked, ends_ite]
  refine ⟨fun _ => trivial, fun _ => ?_⟩
  obtain ⟨declared, _, held⟩ := holds.holds _ _ (Arena.part?_build found)
  have readable : (⟨record.build, input.area⟩ : Holding).area.store.Readable := reliable.readable
  obtain ⟨chunks, after, reloads⟩ := Partition.exists_succeeds_reload readable held.toStores
  rw [ends_bind, ends_onBuild marked]
  exact .of_ok reloads trivial

theorem serves_complete
    (found : input.arena.records[partition]? = some record) :
    (complete partition).Serves input :=
  (ends_complete input).mono (fun _ _ _ => trivial) fun _ _ failed =>
    Option.some_ne_none _ (found.symm.trans failed.2)

end Partitioned
end Spillway
