import Spillway.Proofs.Operator.Reservations
import Spillway.Proofs.Operator.Splitting
import Spillway.Proofs.Operator.Together

/-!
# Hot keys

Build rows of one key cannot be taken apart. If they are larger than the memory limit, the partition that
lists them is in the store, and splitting it moves all of them to one child. Nothing else is in memory by
then, so they do not fit there either, and the child is spilled while it is filled. All other partitions are
without build rows, so they are completed when they are visited. What is left is one partition that is split
level after level, until its children would lie at the depth limit.
-/

namespace Spillway

open Step

namespace Partitioned

variable {build probe : ProbeSide} {key : Key} {chunks : List Chunk} {hot level other partition limit : Nat}
  {stack rest : List Nat} {contents : Contents} {input before after : Partitioned}
  {record : PartitionRecord}

/-! ## Bytes in memory -/

/-- What a partition has in memory is part of all that is in memory. -/
theorem memoryBytes_le_heldBytes
    (found : input.arena.records[partition]? = some record) :
    record.build.memoryBytes ≤ input.heldBytes := by
  have member := List.mem_of_getElem? (Array.getElem?_toList.trans found)
  exact Nat.le_add_right_of_le (le_total_of_mem (fun record => record.build.memoryBytes) member)

/-- A partition whose chunks are larger than all that is in memory is spilled. -/
theorem Tracks.spilled_of_large
    (tracks : input.Tracks build.schema hot chunks)
    (found : input.arena.records[hot]? = some record)
    (large : input.heldBytes < total Chunk.logicalBytes chunks) :
    record.build.spilled = true := by
  have lists := tracks.of_record found
  by_contra inMemory
  obtain ⟨-, -, none⟩ := lists.unspilled (Bool.not_eq_true _ ▸ inMemory)
  have size := lists.size
  rw [Partition.estimatedSize, none, Nat.add_zero] at size
  exact absurd (size ▸ memoryBytes_le_heldBytes found) (Nat.not_le_of_lt large)

theorem Holds.isEmpty_iff
    (holds : input.Holds True contents)
    (found : input.arena.records[partition]? = some record) :
    record.build.isEmpty = true ↔ contents (.build, partition) = [] := by
  obtain ⟨_, _, held⟩ := holds.holds _ _ (Arena.part?_build found)
  exact held.isEmpty_iff

/-- If all rows of the chunks have a key, all build rows have it. -/
theorem Tracks.keyOf
    (tracks : input.Tracks build.schema hot chunks)
    (holds : input.Holds True contents)
    (single : ∀ chunk ∈ chunks, ∀ row ∈ chunk.rows, build.keyOf row = some key) :
    ∀ row ∈ contents (.build, hot), build.keyOf row = some key := by
  intro row member
  rw [tracks.rows holds] at member
  obtain ⟨chunk, listed, inside⟩ := List.mem_flatMap.mp member
  exact single chunk listed row inside

/-- Partitions that were there before keep their levels. -/
theorem Evolves.level_le
    {targets : Nat → Prop}
    {met : Bool}
    (evolves : Evolves targets met before after)
    (deepest : ∀ (partition : Nat) (record : PartitionRecord),
      before.arena.records[partition]? = some record → record.level ≤ limit)
    (old : partition < before.arena.size)
    (found : after.arena.records[partition]? = some record) :
    record.level ≤ limit := by
  obtain ⟨was, there⟩ := Arena.exists_record_of_lt old
  obtain ⟨new, here, level, -⟩ := evolves.exists_record there
  rw [found, Option.some.injEq] at here
  exact here ▸ level ▸ deepest partition was there

theorem foldl_max_le_iff
    {α : Type}
    {measure : α → Nat}
    {values : List α}
    {start : Nat} :
    values.foldl (fun most value => max most (measure value)) start ≤ limit ↔
      start ≤ limit ∧ ∀ value ∈ values, measure value ≤ limit := by
  induction values generalizing start with
  | nil => simp
  | cons value values inductionHypothesis =>
      rw [List.foldl_cons, inductionHypothesis, Nat.max_le, List.forall_mem_cons, and_assoc]

/-- The deepest level is one that a partition has and none exceeds. -/
theorem maxLevel_eq
    (deepest : ∀ (partition : Nat) (record : PartitionRecord),
      input.arena.records[partition]? = some record → record.level ≤ limit)
    (found : input.arena.records[partition]? = some record)
    (level : record.level = limit) :
    input.arena.maxLevel = limit := by
  rw [Arena.maxLevel, ← Array.foldl_toList]
  refine Nat.le_antisymm (foldl_max_le_iff.mpr ⟨Nat.zero_le _, fun other member => ?_⟩) ?_
  · obtain ⟨place, there⟩ := List.mem_iff_getElem?.mp member
    exact deepest place other (Array.getElem?_toList.symm.trans there)
  · exact level ▸ (foldl_max_le_iff.mp (Nat.le_refl _)).2 record
      (List.mem_of_getElem? (Array.getElem?_toList.trans found))

/-! ## The partition of a key -/

/-- A partition lists the build chunks, and has a probe row of the key. -/
structure Warm
    (build probe : ProbeSide)
    (key : Key)
    (chunks : List Chunk)
    (hot : Nat)
    (contents : Contents)
    (input : Partitioned) : Prop where
  holds : input.Holds True contents
  tracks : input.Tracks build.schema hot chunks
  probed : ∃ row ∈ contents (.probe, hot), probe.keyOf row = some key

section Warm

variable {value : Unit} (warm : before.Warm build probe key chunks hot contents)
include warm

/-- If it is spilled and larger than the limit, it can only be split. -/
theorem Warm.oversized
    (found : before.arena.records[hot]? = some record)
    (spilled : record.build.spilled = true)
    (several : 1 < total Chunk.length chunks)
    (large : limit < total Chunk.logicalBytes chunks) :
    record.Oversized limit where
  spilled
  probed := by
    obtain ⟨row, member, -⟩ := warm.probed
    cases side : record.probe with
    | none =>
        rw [warm.holds.absent _ ((Arena.part?_probe found).trans side)] at member
        cases member
    | some part =>
        obtain ⟨_, _, held⟩ := warm.holds.holds _ _ ((Arena.part?_probe found).trans side)
        rw [Option.all_some, Bool.eq_false_iff, ne_eq, held.isEmpty_iff]
        exact List.ne_nil_of_mem member
  divisible := (warm.tracks.of_record found).counted ▸ several
  large := (warm.tracks.of_record found).size ▸ large

/-- Completing another partition is no concern of it. -/
theorem Warm.complete
    (succeeds : (complete other).Succeeds before value after)
    (apart : other ≠ hot) :
    ∃ left, after.Warm build probe key chunks hot left ∧
      ∀ partition, contents (.build, partition) = [] → left (.build, partition) = [] := by
  obtain ⟨left, settles⟩ := succeeds_complete succeeds warm.holds
  have carries : before.Carries build.schema hot chunks := ⟨⟨_, warm.holds.relax⟩, warm.tracks⟩
  have tracks := (carries.complete succeeds apart).tracks
  refine ⟨left, ⟨settles.holds, tracks, ?_⟩, fun partition none => ?_⟩
  · rw [settles.others .probe hot (Ne.symm apart)]
    exact warm.probed
  · by_cases same : partition = other
    · exact same ▸ settles.emptied .build
    · exact (settles.others .build partition same).trans none

/-- When it is split, all chunks move to the child of the key, and no other child is kept. -/
theorem Warm.split
    {children : List Nat}
    (succeeds : (repartition hot).Succeeds before children after)
    (found : before.arena.records[hot]? = some record)
    (spilled : record.build.spilled = true)
    (buildSide : before.side? .build = some build)
    (probeSide : before.side? .probe = some probe)
    (keyed : build.Keyed)
    (single : ∀ chunk ∈ chunks, ∀ row ∈ chunk.rows, build.keyOf row = some key)
    (several : 1 < total Chunk.length chunks) :
    ∃ bucket < before.params.partitionCount, ∃ divided,
      before.Divides True after hot record.place contents divided ∧
      after.Warm build probe key chunks (before.arena.size + bucket) divided ∧
      ∀ child, child ∈ children ↔ child = before.arena.size + bucket := by
  obtain ⟨divided, divides, rfl⟩ := succeeds_repartition succeeds warm.holds found spilled
  have bounded := Directory.bucketOfKey_lt (before.directory (record.level + 1)) (some key)
  have tracks := tracks_of_repartition succeeds warm.holds found spilled buildSide keyed warm.tracks bounded
    fun chunk member row inside => by rw [single chunk member row inside]
  -- The chunks have rows, so the child has.
  have full : divided (.build, before.arena.size +
      (before.directory (record.level + 1)).bucketOfKey (some key)) ≠ [] := by
    obtain ⟨child, there, lists⟩ := tracks.exists_record
    rw [ne_eq, ← divides.holds.isEmpty_iff there, Partition.isEmpty, lists.counted, decide_eq_true_eq]
    exact Nat.ne_of_gt (Nat.lt_trans Nat.zero_lt_one several)
  refine ⟨_, bounded, divided, divides, ⟨divides.holds, tracks, ?_⟩, fun child => ?_⟩
  · obtain ⟨row, member, keyOf⟩ := warm.probed
    rw [divides.probe trivial _ bounded full]
    refine ⟨row, List.mem_filter.mpr ⟨member, decide_eq_true ?_⟩, keyOf⟩
    rw [bucketOf_of_side? probeSide, keyOf]
    rfl
  · rw [List.mem_filter, mem_nextChildren]
    constructor
    · rintro ⟨⟨bucket, inside, rfl⟩, kept⟩
      rw [divides.build trivial bucket inside, Bool.not_eq_true',
        List.isEmpty_eq_false_iff_exists_mem] at kept
      obtain ⟨row, member⟩ := kept
      obtain ⟨member, here⟩ := List.mem_filter.mp member
      have here := of_decide_eq_true here
      rw [bucketOf_of_side? buildSide, warm.tracks.keyOf warm.holds single row member] at here
      exact congrArg (before.arena.size + ·) here.symm
    · rintro rfl
      refine ⟨⟨_, bounded, rfl⟩, ?_⟩
      rwa [Bool.not_eq_true', List.isEmpty_eq_false_iff]

end Warm

/-! ## One hot partition -/

/-- After so many splits one partition lists all build chunks, and it is still to be visited. It is
spilled and larger than the memory limit, it lies on the deepest level, and no other partition that is to be
visited has build rows. -/
structure Heated
    (build probe : ProbeSide)
    (key : Key)
    (chunks : List Chunk)
    (hot level : Nat)
    (stack : List Nat)
    (input : Partitioned) : Prop where
  warm : ∃ contents, input.Warm build probe key chunks hot contents ∧
    ∀ other ∈ stack, other ≠ hot → contents (.build, other) = []
  waits : hot ∈ stack
  large : input.params.memLimit < total Chunk.logicalBytes chunks
  stored : ∃ record, input.arena.records[hot]? = some record ∧ record.build.spilled = true ∧
    record.level = level
  size : input.arena.size = input.params.partitionCount * (level + 1)
  splits : input.repartitions = level
  deepest : ∀ (partition : Nat) (record : PartitionRecord),
    input.arena.records[partition]? = some record → record.level ≤ level

section Heated

variable (heated : before.Heated build probe key chunks hot level stack)
include heated

theorem Heated.oversized
    (several : 1 < total Chunk.length chunks)
    (found : before.arena.records[hot]? = some record) :
    record.Oversized before.params.memLimit := by
  obtain ⟨_, warm, -⟩ := heated.warm
  obtain ⟨_, there, spilled, -⟩ := heated.stored
  rw [found, Option.some.injEq] at there
  subst there
  exact warm.oversized found spilled several heated.large

/-- Any other partition that is to be visited is without build rows. -/
theorem Heated.cold
    (found : before.arena.records[partition]? = some record)
    (waits : partition ∈ stack)
    (apart : partition ≠ hot) :
    record.build.isEmpty = true := by
  obtain ⟨_, warm, cold⟩ := heated.warm
  exact (warm.holds.isEmpty_iff found).mpr (cold partition waits apart)

theorem Heated.eq_hot
    (found : before.arena.records[partition]? = some record)
    (waits : partition ∈ stack)
    (oversized : record.Oversized limit) :
    partition = hot := by
  by_contra apart
  have divisible := oversized.divisible
  rw [of_decide_eq_true (heated.cold found waits apart)] at divisible
  cases divisible

theorem Heated.complete
    {value : Unit}
    (succeeds : (complete other).Succeeds before value after)
    (apart : other ≠ hot) :
    after.Heated build probe key chunks hot level stack := by
  obtain ⟨contents, warm, cold⟩ := heated.warm
  obtain ⟨left, stillWarm, none⟩ := warm.complete succeeds apart
  obtain ⟨record, found, spilled, deep⟩ := heated.stored
  have spares : ∀ partition, partition ≠ other →
      after.arena.records[partition]? = before.arena.records[partition]? :=
    (spares_complete before).of_succeeds succeeds
  obtain ⟨evolves, -, size, -⟩ := (ends_complete before).of_succeeds succeeds
  exact
    { warm := ⟨left, stillWarm, fun partition waits different => none _ (cold partition waits different)⟩
      waits := heated.waits
      large := evolves.params_eq ▸ heated.large
      stored := ⟨record, (spares hot (Ne.symm apart)).trans found, spilled, deep⟩
      size := by rw [evolves.params_eq, size, heated.size]
      splits := Eq.trans ((splitsNone_complete before).of_succeeds succeeds) heated.splits
      deepest := fun partition record there => evolves.level_le heated.deepest
        (size ▸ (Array.getElem?_eq_some_iff.mp there).1) there }

/-- After another partition was visited, the hot one is still to be. -/
theorem Heated.pop
    (here : stack = partition :: rest)
    (apart : partition ≠ hot) :
    before.Heated build probe key chunks hot level rest := by
  subst here
  obtain ⟨contents, warm, cold⟩ := heated.warm
  exact { heated with
    warm := ⟨contents, warm, fun other waits => cold other (List.mem_cons_of_mem _ waits)⟩
    waits := List.mem_of_ne_of_mem (Ne.symm apart) heated.waits }

/-- The counters tell the level. -/
theorem Heated.stats_eq :
    before.stats.maxLevel = level ∧ before.stats.repartitions = level ∧
      before.stats.created = before.params.partitionCount * (level + 1) := by
  obtain ⟨_, found, _, deep⟩ := heated.stored
  exact ⟨maxLevel_eq heated.deepest found deep, heated.splits, heated.size⟩

end Heated
end Partitioned

namespace Join

variable {build probe : ProbeSide} {key : Key} {chunks : List Chunk} {others : Nat → Nat}
  {hot level partition : Nat} {stack rest : List Nat} {join after : Join} {record : PartitionRecord}

/-! ## Visits -/

/-- Splitting a spilled partition leaves no more in memory than fits the limit. -/
theorem Steady.heldBytes_le_of_split
    {children : List Nat}
    {input : Partitioned}
    (steady : Steady build probe others (partition :: rest) join)
    (found : join.input.arena.records[partition]? = some record)
    (spilled : record.build.spilled = true)
    (splits : (Partitioned.repartition partition).Succeeds join.input children input) :
    input.heldBytes ≤ join.input.params.memLimit := by
  have known := steady.accounted.books.known
  have nothing := steady.poised.heldBytes_eq found spilled
  have before : join.input.AccountedBy Ledger.Backs [partition] 0 :=
    { steady.accounted.store found spilled with
      books := ⟨known, by rw [nothing]; exact Nat.zero_le _⟩ }
  have backed := (Partitioned.keeps_repartition _ before).of_succeeds splits
  obtain ⟨-, account, grants⟩ := (Partitioned.affords_repartition join.input).of_succeeds splits
  have used := (grants.keeps known).used join.input.account
  rw [steady.poised.used_eq found spilled, steady.sound.limit, Nat.zero_max, ← account] at used
  exact Nat.le_trans backed.books.backed used

/-- The chunks of the hot partition move to one child, which is hot in its place. -/
theorem Steady.heated_of_split
    {kept order : List Nat}
    {input : Partitioned}
    (steady : Steady build probe others (hot :: rest) join)
    (heated : join.input.Heated build probe key chunks hot level (hot :: rest))
    (keyed : build.Keyed)
    (single : ∀ chunk ∈ chunks, ∀ row ∈ chunk.rows, build.keyOf row = some key)
    (several : 1 < total Chunk.length chunks)
    (splits : (Partitioned.repartition hot).Succeeds join.input kept input)
    (permuted : order.Perm kept) :
    ∃ child, input.Heated build probe key chunks child (level + 1) (order ++ rest) := by
  obtain ⟨_, warm, cold⟩ := heated.warm
  obtain ⟨_, _, sides, -⟩ := steady.owes
  obtain ⟨record, found, spilled, rfl⟩ := heated.stored
  obtain ⟨bucket, bounded, divided, divides, stillWarm, only⟩ :=
    warm.split splits found spilled sides.buildSide sides.probeSide keyed single several
  obtain ⟨apart, distinct⟩ := List.nodup_cons.mp steady.distinct
  have evolves := ((Partitioned.ends_repartition_splits join.input).of_succeeds splits).evolves
  have member : join.input.arena.size + bucket ∈ order := permuted.mem_iff.mpr ((only _).mpr rfl)
  obtain ⟨child, there, -⟩ := stillWarm.tracks.exists_record
  have level : child.level = record.level + 1 := by
    have place := divides.child bucket bounded
    rw [Arena.place?_of_record there, Option.some.injEq] at place
    exact congrArg PartitionPlace.level place
  have large : input.params.memLimit < total Chunk.logicalBytes chunks := divides.params ▸ heated.large
  have held := steady.heldBytes_le_of_split found spilled splits
  refine ⟨join.input.arena.size + bucket,
    { warm := ⟨divided, stillWarm, fun other waits different => ?_⟩
      waits := List.mem_append_left _ member
      large
      stored := ⟨child, there, stillWarm.tracks.spilled_of_large there
        (Nat.lt_of_le_of_lt held heated.large), level⟩
      size := ?_
      splits := ?_
      deepest := fun other another here => ?_ }⟩
  · obtain new | old := List.mem_append.mp waits
    · exact absurd ((only other).mp (permuted.mem_iff.mp new)) different
    · have moved : other ≠ hot := fun same => apart (same ▸ old)
      have known := steady.known other (List.mem_cons_of_mem _ old)
      exact (divides.others .build other known moved).trans
        (cold other (List.mem_cons_of_mem _ old) moved)
  · have size := heated.size
    rw [divides.size, divides.params, size]
    exact (Nat.mul_succ _ _).symm
  · exact ((Partitioned.countsSplit_repartition hot join.input).of_succeeds splits).trans
      (congrArg (· + 1) heated.splits)
  · by_cases old : other < join.input.arena.size
    · exact Nat.le_succ_of_le (evolves.level_le heated.deepest old here)
    · obtain ⟨number, inside, rfl⟩ : ∃ number < join.input.params.partitionCount,
          join.input.arena.size + number = other := by
        have known : other < input.arena.size := (Array.getElem?_eq_some_iff.mp here).1
        rw [divides.size] at known
        exact ⟨other - join.input.arena.size, by omega, by omega⟩
      have place := divides.child number inside
      rw [Arena.place?_of_record here, Option.some.injEq] at place
      exact Nat.le_of_eq (congrArg PartitionPlace.level place)

/-- A visit that is met leaves one hot partition, the same or a child of it. -/
theorem Steady.heated_of_visit
    {result : Visit Chunk}
    (steady : Steady build probe others (partition :: rest) join)
    (heated : join.input.Heated build probe key chunks hot level (partition :: rest))
    (keyed : build.Keyed)
    (single : ∀ chunk ∈ chunks, ∀ row ∈ chunk.rows, build.keyOf row = some key)
    (several : 1 < total Chunk.length chunks)
    (succeeds : (visit partition).Succeeds join result after) :
    ∃ next deeper, after.input.Heated build probe key chunks next deeper (result.left ++ rest) := by
  obtain ⟨record, found⟩ := Arena.exists_record_of_lt (steady.known partition List.mem_cons_self)
  have ends := (steady.ends_visit found).of_succeeds succeeds
  -- The hot partition is too large to be done with.
  have apart : ¬ record.Oversized join.input.params.memLimit → partition ≠ hot := by
    rintro small rfl
    exact small (heated.oversized several found)
  cases visited_of_succeeds succeeds found with
  | closed => exact ⟨hot, level, heated.pop rfl (apart ends.2.2)⟩
  | completed _ _ completes =>
      exact ⟨hot, level, (heated.complete completes (apart ends.2.2)).pop rfl (apart ends.2.2)⟩
  | joined _ full =>
      rw [heated.cold found List.mem_cons_self (apart ends.2.2), Bool.true_or] at full
      cases full
  | split _ spilled splits ordered =>
      obtain rfl := heated.eq_hot found List.mem_cons_self ends.2.2.1
      exact (steady.heated_of_split heated keyed single several splits
        (Partitioned.succeeds_processingOrder ordered).1).imp fun _ next => ⟨_, next⟩

end Join
end Spillway
