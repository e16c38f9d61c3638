import Spillway.Proofs.Operator.Changes

/-!
# Closing and splitting partitions

A partition that is completed, or split, gives up the rows and the blocks of both sides and accepts no
rows after that. A split leaves new partitions that do, one level deeper; those of them that got no build
rows are closed at once.
-/

namespace Spillway

/-- The partition was closed and has given up its rows and its blocks. -/
structure PartitionRecord.Done (record : PartitionRecord) : Prop where
  closed : record.state = .completed ∨ record.state = .repartitioned
  build : record.build.Cleared
  probe : ∀ probe, record.probe = some probe → probe.Cleared

theorem PartitionRecord.Done.not_opened
    {record : PartitionRecord}
    (done : record.Done) :
    record.state ≠ .opened := by
  obtain closed | closed := done.closed <;> simp [closed]

namespace Partitioned

open Step Relation

variable {targets : Nat → Prop} {input : Partitioned} {partition : Nat} {record : PartitionRecord}
  {α : Type}

/-! ## States and new partitions -/

theorem follows_evolves
    {step : Step Partitioned α}
    (follows : step.Follows (Feeds targets)) :
    step.Follows (Evolves targets) :=
  follows.mono fun _ _ _ => Feeds.evolves

/-- One partition. -/
def Only (partition other : Nat) : Prop :=
  other = partition

theorem Only.self (partition : Nat) : Only partition partition :=
  rfl

/-- Children are new partitions, in the order of their buckets, and accept rows. All others stay where
they are. -/
theorem ends_addChildren_evolves
    {parent level : Nat}
    (meant : targets parent)
    (shallow : level < input.params.maxDepth)
    (buckets : List Nat) :
    (addChildren parent level buckets).Ends input
      (fun children after => Evolves targets true input after ∧
        children = List.range' input.arena.size buckets.length ∧
        after.arena.size = input.arena.size + buckets.length ∧ after.pinned = input.pinned ∧
        (∀ partition place, input.arena.place? partition = some place →
          after.arena.place? partition = some place) ∧
        ∀ child ∈ children, ∃ place, after.arena.place? child = some place ∧ place.state = .opened)
      fun _ after => Evolves targets false input after := by
  induction buckets generalizing input with
  | nil => exact ⟨.refl, rfl, rfl, rfl, fun _ _ => id, by simp⟩
  | cons bucket buckets inductionHypothesis =>
      rw [addChildren, ends_bind, ends_get, ends_bind]
      refine ends_onArena (fun child arena added => ?_) fun _ => .refl
      obtain ⟨rfl, size, _, places⟩ := Arena.of_add rfl added
      rw [ends_bind]
      refine (@inductionHypothesis { input with arena } shallow).mono
        (fun children after grown => ?_) fun _ _ grown => .head (.child meant shallow added) grown
      obtain ⟨evolves, rfl, grown, pinned, stays, opened⟩ := grown
      dsimp only at grown stays
      have first : arena.place? input.arena.size = some
          (input.newRecord (some parent) level bucket).place := by rw [places, if_pos rfl]
      refine ⟨.head (.child meant shallow added) evolves, ?_, ?_, pinned, fun partition place was => ?_, ?_⟩
      · rw [List.length_cons, List.range'_succ, size]
      · rw [grown, size, List.length_cons]
        omega
      · refine stays partition place ?_
        rw [places, if_neg, was]
        rintro rfl
        simp [Arena.place?, Arena.size] at was
      · exact List.forall_mem_cons.mpr ⟨⟨_, stays _ _ first, rfl⟩, opened⟩

/-! ## Giving up partitions -/

theorem getElem?_withProbe
    (found : input.arena.records[partition]? = some record)
    (holding : Holding) :
    (input.withProbe partition holding).arena.records[partition]? =
      some { record with probe := some holding.partition } := by
  simp [withProbe, Arena.modify, Array.getElem?_modify, found]

theorem getElem?_modify_state
    {arena : Arena}
    (found : arena.records[partition]? = some record)
    (state : PartitionState) :
    (arena.modify partition fun record => { record with state }).records[partition]? =
      some { record with state } := by
  simp [Arena.modify, Array.getElem?_modify, found]

/-- Giving up the build side of a partition clears it. -/
theorem ends_releaseBuild
    (found : input.arena.records[partition]? = some record) :
    (onBuild partition Partition.release).Ends input
      (fun _ after => Feeds (Only partition) true input after ∧
        ∃ build, after.arena.records[partition]? = some { record with build } ∧ build.Cleared)
      fun _ _ => False := by
  rw [ends_onBuild found]
  refine (Partition.ends_release_cleared _).mono (fun _ holding released => ?_) fun _ _ => id
  obtain ⟨changes, cleared⟩ := released
  refine ⟨.single (.build found (.inl rfl) changes), _, getElem?_withBuild found holding, ?_⟩
  rw [cleared]
  rfl

/-- Giving up the probe side of a partition clears it, if there is one. -/
theorem ends_releaseProbe_cleared
    (found : input.arena.records[partition]? = some record) :
    (releaseProbe partition).Ends input
      (fun _ after => Feeds (Only partition) true input after ∧
        ∃ probe, after.arena.records[partition]? = some { record with probe } ∧
          ∀ partition, probe = some partition → partition.Cleared)
      fun _ _ => False := by
  rw [releaseProbe, ends_onProbe found]
  cases has : record.probe with
  | none =>
      refine ⟨.refl, none, ?_, by simp⟩
      rw [found, ← has]
  | some probe =>
      refine (Partition.ends_release_cleared _).mono (fun _ holding released => ?_) fun _ _ => id
      obtain ⟨changes, cleared⟩ := released
      refine ⟨.single (.probe found has rfl changes), _, getElem?_withProbe found holding, ?_⟩
      rintro _ ⟨⟩
      rw [cleared]
      rfl

/-- A partition that gives up both sides and is closed is done with. -/
theorem ends_giveUp
    {state : PartitionState}
    {next : Step Partitioned α}
    {ok : α → Partitioned → Prop}
    {failed : Status → Partitioned → Prop}
    (found : input.arena.records[partition]? = some record)
    (closed : state = .completed ∨ state = .repartitioned)
    (goesOn : ∀ after, Evolves (Only partition) true input after →
      (∃ record, after.arena.records[partition]? = some record ∧ record.state = state ∧ record.Done) →
      after.pinned = input.pinned → after.arena.size = input.arena.size →
      next.Ends after ok failed) :
    (do
      onBuild partition Partition.release
      releaseProbe partition
      setState partition state
      next : Step Partitioned α).Ends input ok failed := by
  have notOpened : state ≠ .opened := by obtain rfl | rfl := closed <;> decide
  rw [ends_bind]
  refine (ends_releaseBuild found).mono (fun _ first built => ?_) fun _ _ => False.elim
  obtain ⟨built, build, there, empty⟩ := built
  rw [ends_bind]
  refine (ends_releaseProbe_cleared there).mono (fun _ second probed => ?_) fun _ _ => False.elim
  obtain ⟨probed, probe, here, cleared⟩ := probed
  rw [ends_bind, setState, changeRecord, ends_modify]
  refine goesOn _ ((built.evolves.trans probed.evolves).tail (.close rfl notOpened))
    ⟨_, getElem?_modify_state here state, rfl, ⟨closed, empty, cleared⟩⟩
    (probed.pinned_eq.trans built.pinned_eq) ?_
  exact (Arena.size_modify _ _ _).trans (probed.size_eq.trans built.size_eq)

/-- The children with counted build rows are kept where they are, and the others closed. -/
structure Sifts
    (children kept : List Nat)
    (before after : Partitioned) : Prop where
  evolves : Evolves (· ∈ children) true before after
  within : kept.Sublist children
  keeps : ∀ child ∈ kept, ∀ old, before.arena.records[child]? = some old →
    ∃ new, after.arena.records[child]? = some new ∧ new.place = old.place
  closes : ∀ child ∈ children, child ∉ kept → ∃ record, after.arena.records[child]? = some record ∧
    record.state = .completed ∧ record.build.rowCount = 0 ∧
    ∀ probe, record.probe = some probe → probe.Cleared
  size : after.arena.size = before.arena.size
  pinned : after.pinned = before.pinned

section Sifts

variable {child : Nat} {rest kept : List Nat} {first : Partitioned}

/-- A child that was closed before the others were sifted is left alone by that. -/
theorem Sifts.cons_of_closed
    (sifts : Sifts rest kept first after)
    (fresh : child ∉ rest)
    (evolves : Evolves (Only child) true input first)
    (size : first.arena.size = input.arena.size)
    (pinned : first.pinned = input.pinned)
    (found : first.arena.records[child]? = some record)
    (completed : record.state = .completed)
    (empty : record.build.rowCount = 0)
    (cleared : ∀ probe, record.probe = some probe → probe.Cleared) :
    Sifts (child :: rest) kept input after where
  evolves := (evolves.mono fun _ same => same ▸ List.mem_cons_self).trans
    (sifts.evolves.mono fun _ => List.mem_cons_of_mem child)
  within := sifts.within.cons child
  keeps := by
    intro other member old was
    have different : other ≠ child := by
      rintro rfl
      exact fresh (sifts.within.subset member)
    obtain ⟨middle, between, _, place⟩ := evolves.exists_record was
    obtain ⟨new, found, same⟩ := sifts.keeps other member middle between
    exact ⟨new, found, same.trans (place different).1⟩
  closes := by
    intro other member outside
    obtain rfl | inside := List.mem_cons.mp member
    · obtain ⟨_, here, _, stays⟩ := sifts.evolves.exists_record found
      obtain rfl := (stays fresh).2 fun evictable => absurd (completed.symm.trans evictable.1) (by decide)
      exact ⟨_, here, completed, empty, cleared⟩
    · exact sifts.closes other inside outside
  size := sifts.size.trans size
  pinned := sifts.pinned.trans pinned

theorem Sifts.cons_of_kept
    (sifts : Sifts rest kept input after)
    (fresh : child ∉ rest) :
    Sifts (child :: rest) (child :: kept) input after where
  evolves := sifts.evolves.mono fun _ => List.mem_cons_of_mem child
  within := sifts.within.cons_cons child
  keeps := by
    intro other member old was
    obtain rfl | inside := List.mem_cons.mp member
    · obtain ⟨new, there, _, stays⟩ := sifts.evolves.exists_record was
      exact ⟨new, there, (stays fresh).1⟩
    · exact sifts.keeps other inside old was
  closes := by
    intro other member outside
    obtain rfl | inside := List.mem_cons.mp member
    · exact absurd List.mem_cons_self outside
    · exact sifts.closes other inside fun kept => outside (List.mem_cons_of_mem _ kept)
  size := sifts.size
  pinned := sifts.pinned

end Sifts

theorem ends_keepNonEmpty
    {children : List Nat}
    (distinct : children.Nodup)
    (input : Partitioned) :
    (keepNonEmpty children).Ends input (fun kept after => Sifts children kept input after)
      fun _ after => Evolves (· ∈ children) false input after := by
  induction children generalizing input with
  | nil => exact ⟨.refl, .slnil, by simp, by simp, rfl, rfl⟩
  | cons child rest inductionHypothesis =>
      rw [List.nodup_cons] at distinct
      have later : ∀ partition ∈ rest, partition ∈ child :: rest :=
        fun _ member => List.mem_cons_of_mem child member
      refine (ends_bind _ _).mpr (ends_record (fun record found => ?_) fun _ => .refl)
      rw [ends_ite]
      refine ⟨fun empty => ?_, fun some => ?_⟩
      · have mark : Evolves (Only child) true input { input with
            arena := input.arena.modify child fun record => { record with state := .completed } } :=
          .single (.close rfl (by decide))
        rw [ends_bind, setState, changeRecord, ends_modify, ends_bind]
        refine (ends_releaseProbe_cleared (getElem?_modify_state found .completed)).mono
          (fun _ between released => ?_) fun _ _ => False.elim
        obtain ⟨probed, probe, there, cleared⟩ := released
        have closes : Evolves (Only child) true input between := mark.trans probed.evolves
        refine (inductionHypothesis distinct.2 between).mono (fun kept after sifts => ?_)
          fun _ _ evolves => Composes.trans (closes.mono fun _ same => same ▸ List.mem_cons_self)
            (evolves.mono later)
        exact sifts.cons_of_closed distinct.1 closes (probed.size_eq.trans (Arena.size_modify _ _ _))
          probed.pinned_eq there rfl (by simpa [Partition.isEmpty] using empty) cleared
      · rw [ends_bind]
        exact (inductionHypothesis distinct.2 input).mono (fun _ _ sifts => sifts.cons_of_kept distinct.1)
          fun _ _ evolves => evolves.mono later

/-! ## Splitting partitions -/

/-- A partition and those that are new in an arena that had so many. -/
def Family (partition size : Nat) (other : Nat) : Prop :=
  other = partition ∨ size ≤ other

theorem Family.self (partition size : Nat) : Family partition size partition :=
  .inl rfl

theorem mem_of_range'
    {size count child : Nat}
    (member : child ∈ List.range' size count) :
    size ≤ child ∧ child < size + count :=
  List.mem_range'_1.mp member

/-- A partition was split: it is done with, and of its children, which are new, some are left that
accept rows. The others are closed and have no counted build rows. -/
structure Splits
    (partition : Nat)
    (kept : List Nat)
    (before after : Partitioned) : Prop where
  evolves : Evolves (Family partition before.arena.size) true before after
  done : ∃ record, after.arena.records[partition]? = some record ∧ record.state = .repartitioned ∧
    record.Done
  distinct : kept.Nodup
  opened : ∀ child ∈ kept, before.arena.size ≤ child ∧
    ∃ record, after.arena.records[child]? = some record ∧ record.state = .opened
  closed : ∀ child, before.arena.size ≤ child → child < after.arena.size → child ∉ kept →
    ∃ record, after.arena.records[child]? = some record ∧ record.state = .completed ∧
      record.build.rowCount = 0 ∧ ∀ probe, record.probe = some probe → probe.Cleared
  pinned : after.pinned = before.pinned

/-- A partition that was read before is split. -/
theorem Splits.of_feeds
    {kept : List Nat}
    {between after : Partitioned}
    (splits : Splits partition kept between after)
    (feeds : Feeds (Only partition) true input between) :
    Splits partition kept input after where
  evolves := (feeds.evolves.mono fun _ => .inl).trans (feeds.size_eq ▸ splits.evolves)
  done := splits.done
  distinct := splits.distinct
  opened := feeds.size_eq ▸ splits.opened
  closed := feeds.size_eq ▸ splits.closed
  pinned := splits.pinned.trans feeds.pinned_eq

theorem exists_of_place?
    {arena : Arena}
    {place : PartitionPlace}
    (found : arena.place? partition = some place) :
    ∃ record, arena.records[partition]? = some record ∧ record.place = place :=
  Option.map_eq_some_iff.mp found

/-- Giving up a partition and its children without build rows, after its rows were dealt out. -/
theorem ends_giveUp_split
    {size count : Nat}
    (found : input.arena.records[partition]? = some record)
    (old : partition < size)
    (grown : input.arena.size = size + count)
    (opened : ∀ child ∈ List.range' size count, ∃ record,
      input.arena.records[child]? = some record ∧ record.state = .opened) :
    (do
      onBuild partition Partition.release
      releaseProbe partition
      setState partition .repartitioned
      modify fun input => { input with repartitions := input.repartitions + 1 }
      keepNonEmpty (List.range' size count) : Step Partitioned (List Nat)).Ends input
      (fun kept after => Evolves (Family partition size) true input after ∧
        (∃ record, after.arena.records[partition]? = some record ∧ record.state = .repartitioned ∧
          record.Done) ∧ kept.Nodup ∧
        (∀ child ∈ kept, size ≤ child ∧
          ∃ record, after.arena.records[child]? = some record ∧ record.state = .opened) ∧
        (∀ child, size ≤ child → child < after.arena.size → child ∉ kept →
          ∃ record, after.arena.records[child]? = some record ∧ record.state = .completed ∧
            record.build.rowCount = 0 ∧ ∀ probe, record.probe = some probe → probe.Cleared) ∧
        after.pinned = input.pinned)
      fun _ after => Evolves (Family partition size) false input after := by
  refine ends_giveUp found (.inr rfl) fun between gives done pinned same => ?_
  rw [ends_bind, ends_modify]
  have noted : Evolves (Family partition size) true input _ :=
    (gives.mono fun _ => .inl).tail (.notes between.pinned (between.repartitions + 1))
  refine (ends_keepNonEmpty List.nodup_range' _).mono (fun kept after sifts => ?_)
    fun _ after evolves => Composes.trans noted (evolves.mono fun _ member => .inr (mem_of_range' member).1)
  obtain ⟨closed, there, state, finished⟩ := done
  have apart : partition ∉ List.range' size count :=
    fun member => Nat.not_le_of_lt old (mem_of_range' member).1
  obtain ⟨_, here, _, stays⟩ := sifts.evolves.exists_record there
  have unchanged := (stays apart).2 fun evictable => finished.not_opened evictable.1
  subst unchanged
  refine ⟨noted.trans (sifts.evolves.mono fun _ member => .inr (mem_of_range' member).1),
    ⟨_, here, state, finished⟩, sifts.within.nodup List.nodup_range', fun child member => ?_,
    fun child new known outside => ?_, sifts.pinned.trans pinned⟩
  · have inside := sifts.within.subset member
    obtain ⟨first, was, accepts⟩ := opened child inside
    have different : child ≠ partition := fun same => apart (same ▸ inside)
    obtain ⟨second, still, _, place⟩ := gives.exists_record was
    obtain ⟨last, found, same⟩ := sifts.keeps child member second still
    have state : last.state = first.state :=
      congrArg PartitionPlace.state (same.trans (place different).1)
    exact ⟨(mem_of_range' inside).1, last, found, state.trans accepts⟩
  · refine sifts.closes child (List.mem_range'_1.mpr ⟨new, ?_⟩) outside
    rw [sifts.size] at known
    exact grown ▸ same ▸ known

/-- A partition was closed, and children of it were added that accept rows. -/
structure Opens
    (partition : Nat)
    (children : List Nat)
    (before after : Partitioned) : Prop where
  evolves : Evolves (Family partition before.arena.size) true before after
  old : partition < before.arena.size
  numbers : children = List.range' before.arena.size before.params.partitionCount
  size : after.arena.size = before.arena.size + before.params.partitionCount
  pinned : after.pinned = before.pinned
  source : ∃ record, after.arena.records[partition]? = some record
  opened : ∀ child ∈ children, ∃ place, after.arena.place? child = some place ∧ place.state = .opened

theorem ends_openChildren
    {level : Nat}
    (found : input.arena.records[partition]? = some record)
    (shallow : level < input.params.maxDepth) :
    (do
      setState partition .pinned
      addChildren partition level (List.range input.params.partitionCount) :
        Step Partitioned (List Nat)).Ends input
      (fun children after => Opens partition children input after)
      fun _ after => Evolves (Family partition input.arena.size) false input after := by
  have own := Family.self partition input.arena.size
  have mark : Evolves (Family partition input.arena.size) true input { input with
      arena := input.arena.modify partition fun record => { record with state := .pinned } } :=
    .single (.close own (by decide))
  have marked := getElem?_modify_state found .pinned
  rw [ends_bind, setState, changeRecord, ends_modify]
  refine Ends.mono (ends_addChildren_evolves own (by exact shallow) _)
    (fun children after added => ?_) fun _ _ evolves => Composes.trans mark evolves
  obtain ⟨adds, numbers, size, pinned, stays, opened⟩ := added
  rw [Arena.size_modify, List.length_range] at numbers size
  obtain ⟨dealt, there, _⟩ := exists_of_place? (stays _ _ (Arena.place?_of_record marked))
  exact ⟨mark.trans adds, (Array.getElem?_eq_some_iff.mp found).1, numbers, size, pinned,
    ⟨dealt, there⟩, opened⟩

theorem Opens.family
    {children : List Nat}
    {after : Partitioned}
    (opens : Opens partition children input after) :
    ∀ child ∈ children, Family partition input.arena.size child :=
  fun _ member => .inr (mem_of_range' (opens.numbers ▸ member)).1

/-- After rows were dealt out to the children of a partition, it is given up. -/
theorem Opens.ends_giveUp
    {children : List Nat}
    {opened dealt : Partitioned}
    (opens : Opens partition children input opened)
    (feeds : Feeds (Family partition input.arena.size) true opened dealt) :
    (do
      onBuild partition Partition.release
      releaseProbe partition
      setState partition .repartitioned
      modify fun input => { input with repartitions := input.repartitions + 1 }
      keepNonEmpty children : Step Partitioned (List Nat)).Ends dealt
      (fun kept after => Splits partition kept input after)
      fun _ after => Evolves (Family partition input.arena.size) false input after := by
  have before := opens.evolves.trans feeds.evolves
  obtain ⟨_, there⟩ := opens.source
  obtain ⟨record, here, _⟩ := feeds.exists_record there
  rw [opens.numbers]
  refine (ends_giveUp_split here opens.old (feeds.size_eq.trans opens.size) fun child member => ?_).mono
    (fun kept after gave => ?_) fun _ _ evolves => Composes.trans before evolves
  · obtain ⟨place, placed, accepts⟩ := opens.opened child (opens.numbers ▸ member)
    obtain ⟨first, was, rfl⟩ := exists_of_place? placed
    obtain ⟨second, now, same⟩ := feeds.exists_record was
    exact ⟨second, now, (congrArg PartitionPlace.state same).trans accepts⟩
  · obtain ⟨evolves, done, distinct, accepting, closed, last⟩ := gave
    exact ⟨before.trans evolves, done, distinct, accepting, closed,
      last.trans (feeds.pinned_eq.trans opens.pinned)⟩

section Dealing

variable {children : List Nat} (own : targets partition) (new : ∀ child ∈ children, targets child)
include own new

theorem follows_dealBuild
    (directory : Directory)
    (key : String)
    (blocks : List Nat) :
    (streamBlocks (restoreBuildBlock partition) (route appendBuild directory key children)
      blocks).Follows (Feeds targets) :=
  follows_streamBlocks (follows_restoreBuildBlock own)
    (follows_route (fun child member => follows_appendBuild (new child member)) _ _) blocks

theorem follows_dealProbe
    (directory : Directory)
    (key : String)
    (blocks : List Nat) :
    (streamBlocks (restoreProbeBlock partition) (route appendProbe directory key children)
      blocks).Follows (Feeds targets) :=
  follows_streamBlocks (follows_restoreProbeBlock own)
    (follows_route (fun child member => follows_appendProbe (new child member)) _ _) blocks

end Dealing

/-- The rows of a partition are dealt out to its children, and then it is given up. -/
theorem ends_repartition_splits (input : Partitioned) :
    (repartition partition).Ends input (fun kept after => Splits partition kept input after)
      fun _ after => Evolves (Family partition input.arena.size) false input after := by
  refine (ends_bind _ _).mpr (ends_record (fun before found => ?_) fun _ => .refl)
  rw [ends_bind, ends_get]
  dsimp only
  rw [ends_ite]
  refine ⟨fun _ => .refl, fun shallow => ?_⟩
  rw [← bind_assoc, ends_bind]
  refine (ends_openChildren found (Nat.lt_of_not_le shallow)).mono (fun children grown opens => ?_)
    fun _ _ evolves => evolves
  obtain ⟨_, there⟩ := opens.source
  have own := Family.self partition input.arena.size
  rw [ends_bind, ends_record_of there, ends_bind]
  refine (follows_dealBuild own opens.family _ _ _ grown).mono (fun _ filled feeds => ?_)
    fun _ _ feeds => Composes.trans opens.evolves feeds.evolves
  split
  · exact opens.ends_giveUp feeds
  · rename_i side _
    rw [← bind_assoc, ends_bind]
    refine (follows_probeBlocks.bind
      (fun blocks => follows_dealProbe own opens.family (input.directory (before.level + 1)) side.key
        (List.range blocks)) filled).mono (fun _ stored more => opens.ends_giveUp (feeds.trans more))
      fun _ _ more => Composes.trans opens.evolves (Composes.trans feeds more : Feeds _ false _ _).evolves

/-! ## Loading and completing partitions -/

/-- A partition that is loaded is charged, and noted as such. -/
theorem ends_loadBuild_evolves (input : Partitioned) :
    (loadBuild partition).Ends input
      (fun _ after => Evolves (Only partition) true input after ∧
        after.arena.size = input.arena.size ∧
        ∀ pin ∈ after.pinned, pin.1 = partition ∨ pin ∈ input.pinned)
      fun _ after => Evolves (Only partition) false input after := by
  have mark : ∀ met, Evolves (Only partition) met input { input with
      arena := input.arena.modify partition fun record => { record with state := .pinned } } :=
    fun _ => .single (.close rfl (by decide))
  unfold loadBuild
  rw [ends_bind, setState, changeRecord, ends_modify, ends_bind]
  refine ends_record (fun loading _ => ?_) fun _ => mark false
  rw [ends_ite]
  refine ⟨fun _ => ⟨mark true, Arena.size_modify _ _ _, fun _ member => .inr member⟩, fun _ => ?_⟩
  rw [ends_bind]
  refine Ends.mono (follows_onBuild Partition.follows_reload (Only.self partition) _)
    (fun chunks loaded feeds => ?_) fun _ _ feeds => Composes.trans (mark true) feeds.evolves
  have loads := (mark true).trans feeds.evolves
  dsimp only
  rw [ends_bind, chargeBytes, ends_modify, ends_bind, ends_modify]
  refine ⟨(loads.tail (.feed (.books _ _ (Ledger.limit_reserve _ _ _)))).tail (.notes _ loaded.repartitions),
    feeds.size_eq.trans (Arena.size_modify _ _ _), fun pin member => ?_⟩
  dsimp only at member
  obtain rfl | member := List.mem_cons.mp member
  · exact .inl rfl
  · rw [feeds.pinned_eq] at member
    exact .inr (List.mem_of_mem_filter member)

/-- A partition was completed: it is done with, and no longer noted as loaded. -/
structure Completes
    (partition : Nat)
    (before after : Partitioned) : Prop where
  evolves : Evolves (Only partition) true before after
  done : ∃ record, after.arena.records[partition]? = some record ∧ record.Done
  size : after.arena.size = before.arena.size
  pinned : ∀ pin ∈ after.pinned, pin ∈ before.pinned ∧ pin.1 ≠ partition

/-- A partition that exists is completed in any case. -/
theorem ends_complete (input : Partitioned) :
    (complete partition).Ends input (fun _ after => Completes partition input after)
      fun _ after => after = input ∧ input.arena.records[partition]? = none := by
  cases found : input.arena.records[partition]? with
  | none =>
      refine (ends_bind _ _).mpr (ends_record (fun record present => ?_) fun _ => ⟨rfl, rfl⟩)
      simp [found] at present
  | some record =>
      unfold complete
      rw [ends_bind, ends_record_of found]
      refine ends_giveUp found (.inl rfl) fun closed gives done pinned size => ?_
      obtain ⟨record, there, _, finished⟩ := done
      have freed : ∀ bytes, Evolves (Only partition) true input { closed with
          ledger := closed.ledger.release closed.account bytes } :=
        fun bytes => gives.tail (.feed (.books _ closed.partitionsSpilled (Ledger.limit_release _ _ _)))
      rw [ends_bind, releaseBytes, ends_modify, ends_bind, ends_get]
      dsimp only
      split
      case h_1 unnoted =>
          refine ⟨freed _, ⟨record, there, finished⟩, size, fun pin member => ⟨pinned ▸ member, ?_⟩⟩
          rw [List.lookup_eq_none_iff] at unnoted
          exact fun same => absurd (unnoted pin member) (by simp [same])
      case h_2 bytes noted =>
          rw [ends_bind, ends_modify, releaseBytes, ends_modify]
          refine ⟨((freed _).tail (.notes _ closed.repartitions)).tail
            (.feed (.books _ closed.partitionsSpilled (Ledger.limit_release _ _ _))),
            ⟨record, there, finished⟩, size, fun pin member => ?_⟩
          obtain ⟨member, different⟩ := List.mem_filter.mp member
          exact ⟨pinned ▸ member, by simpa using different⟩

/-- A partition that was loaded, and used, is completed. -/
theorem Completes.of_load
    {loaded used after : Partitioned}
    (completes : Completes partition used after)
    (loads : Evolves (Only partition) true input loaded)
    (size : loaded.arena.size = input.arena.size)
    (pinned : ∀ pin ∈ loaded.pinned, pin.1 = partition ∨ pin ∈ input.pinned)
    (uses : Feeds (Only partition) true loaded used) :
    Completes partition input after where
  evolves := (loads.trans uses.evolves).trans completes.evolves
  done := completes.done
  size := completes.size.trans (uses.size_eq.trans size)
  pinned pin member := by
    obtain ⟨was, different⟩ := completes.pinned pin member
    rw [uses.pinned_eq] at was
    exact ⟨(pinned pin was).resolve_left different, different⟩

/-! ## What a visit leaves -/

/-- A partition was visited: it accepts no rows, and the new partitions that do are left to be visited. -/
structure Leaves
    (partition : Nat)
    (left : List Nat)
    (before after : Partitioned) : Prop where
  evolves : Evolves (Family partition before.arena.size) true before after
  visited : ∃ record, after.arena.records[partition]? = some record ∧
    (record.Done ∨ before.arena.records[partition]? = some record ∧ record.state ≠ .opened)
  distinct : left.Nodup
  opened : ∀ child ∈ left, before.arena.size ≤ child ∧
    ∃ record, after.arena.records[child]? = some record ∧ record.state = .opened
  closed : ∀ child, before.arena.size ≤ child → child < after.arena.size → child ∉ left →
    ∃ record, after.arena.records[child]? = some record ∧ record.state = .completed ∧
      record.build.rowCount = 0 ∧ ∀ probe, record.probe = some probe → probe.Cleared
  pinned : ∀ pin ∈ after.pinned, pin ∈ before.pinned

theorem Leaves.of_closed
    (found : input.arena.records[partition]? = some record)
    (closed : record.state ≠ .opened) :
    Leaves partition [] input input where
  evolves := .refl
  visited := ⟨record, found, .inr ⟨found, closed⟩⟩
  distinct := List.nodup_nil
  opened := by simp
  closed child new known := absurd new (Nat.not_le_of_lt known)
  pinned _ := id

theorem Completes.leaves
    {after : Partitioned}
    (completes : Completes partition input after) :
    Leaves partition [] input after where
  evolves := completes.evolves.mono fun _ => .inl
  visited :=
    let ⟨record, found, done⟩ := completes.done
    ⟨record, found, .inl done⟩
  distinct := List.nodup_nil
  opened := by simp
  closed child new known := absurd new (Nat.not_le_of_lt (completes.size ▸ known))
  pinned pin member := (completes.pinned pin member).1

/-- The children that are left may be visited in any order. -/
theorem Splits.leaves
    {kept order : List Nat}
    {after : Partitioned}
    (splits : Splits partition kept input after)
    (same : order.Perm kept) :
    Leaves partition order input after where
  evolves := splits.evolves
  visited :=
    let ⟨record, found, _, done⟩ := splits.done
    ⟨record, found, .inl done⟩
  distinct := same.nodup_iff.mpr splits.distinct
  opened child member := splits.opened child (same.subset member)
  closed child new known outside := splits.closed child new known fun member =>
    outside (same.symm.subset member)
  pinned _ member := splits.pinned ▸ member

theorem ends_processingOrder (children : List Nat) :
    (processingOrder children).Ends input
      (fun order after => order.Perm children ∧ after = input) fun _ _ => False := by
  unfold processingOrder
  rw [ends_bind, ends_get, ends_pure]
  refine ⟨?_, rfl⟩
  exact ((List.reverse_perm _).append (List.reverse_perm _)).trans (List.filter_append_perm _ children)

theorem follows_addBuildChunk (chunk : Chunk) :
    (addBuildChunk chunk).Follows (Feeds fun _ => True) :=
  fun _ => ends_addBuildChunk_feeds (fun _ _ => trivial) chunk

end Partitioned
end Spillway
