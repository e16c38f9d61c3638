import Spillway.Proofs.Operator.Repartition
import Spillway.Proofs.Operator.Roots

/-!
# The rows of the leaves

A partition covers the keys that are in its bucket at its own level and in the bucket of every
partition above it at that one's level. Each key is covered by one leaf, and a split keeps it so: the
leaf that is split gives each of its keys to one child. So whatever chunks are accepted and whatever
partitions are spilled and split, in any order, every leaf holds the accepted rows of its keys, in the
order in which they arrived.
-/

namespace Spillway

namespace Arena

theorem place?_eq_some_iff
    {arena : Arena}
    {partition : Nat}
    {place : PartitionPlace} :
    arena.place? partition = some place ↔
      ∃ record, arena.records[partition]? = some record ∧ record.place = place := by
  rw [place?, Option.map_eq_some_iff]

/-- The partitions above a partition are its parent and those above the parent. -/
theorem above_of_place?
    {arena : Arena}
    {partition : Nat}
    {place : PartitionPlace}
    (found : arena.place? partition = some place) :
    arena.above partition =
      match place.parent with
      | none => []
      | some parent => if parent < partition then parent :: arena.above parent else [] := by
  obtain ⟨record, there, rfl⟩ := place?_eq_some_iff.mp found
  rw [above, there]
  simp only [PartitionRecord.place]
  cases record.parent with
  | none => rfl
  | some parent => simp only [dite_eq_ite]

theorem mem_leaves_iff
    {arena : Arena}
    {partition : Nat} :
    partition ∈ arena.leaves ↔
      ∃ place, arena.place? partition = some place ∧ place.state ≠ .repartitioned := by
  simp only [leaves, List.mem_filter, List.mem_range, Option.any_eq_true, PartitionRecord.isLeaf,
    decide_eq_true_eq, place?_eq_some_iff]
  constructor
  · rintro ⟨_, record, found, leaf⟩
    exact ⟨_, ⟨record, found, rfl⟩, leaf⟩
  · rintro ⟨_, ⟨record, found, rfl⟩, leaf⟩
    exact ⟨(Array.getElem?_eq_some_iff.mp found).1, record, found, leaf⟩

theorem lt_size_of_mem_leaves
    {arena : Arena}
    {partition : Nat}
    (member : partition ∈ arena.leaves) :
    partition < arena.size := by
  obtain ⟨_, found, _⟩ := mem_leaves_iff.mp member
  exact lt_size_of_place? found

end Arena

namespace Partitioned

/-- Whether a key is in the bucket of the partition at its level and in the bucket of every partition
above it at that one's level. -/
def covers
    (input : Partitioned)
    (partition : Nat)
    (key : Option Key) : Bool :=
  (partition :: input.arena.above partition).all fun other =>
    (input.arena.place? other).all fun place =>
      (input.directory place.level).bucketOfKey key = place.bucket

/-- The rows of a side whose keys a partition covers. -/
def coveredRows
    (input : Partitioned)
    (side : Side)
    (partition : Nat)
    (rows : List Row) : List Row :=
  rows.filter fun row => input.covers partition (input.keyOf side row)

theorem covers_of_place?
    {input : Partitioned}
    {partition : Nat}
    {place : PartitionPlace}
    (found : input.arena.place? partition = some place)
    (key : Option Key) :
    input.covers partition key =
      (decide ((input.directory place.level).bucketOfKey key = place.bucket) &&
        match place.parent with
        | none => true
        | some parent => if parent < partition then input.covers parent key else true) := by
  rw [covers, Arena.above_of_place? found, List.all_cons, found, Option.all_some]
  cases place.parent with
  | none => rfl
  | some parent =>
      simp only
      split <;> rfl

/-- What a partition covers is decided by the places of it and of the partitions above it, whatever
their states. -/
theorem covers_congr
    {before after : Partitioned}
    {bound : Nat}
    (params : after.params = before.params)
    (same : ∀ partition < bound, ∃ place state,
      before.arena.place? partition = some place ∧
        after.arena.place? partition = some { place with state })
    (partition : Nat)
    (bounded : partition < bound)
    (key : Option Key) :
    after.covers partition key = before.covers partition key := by
  induction partition using Nat.strongRecOn with
  | ind partition inductionHypothesis =>
      obtain ⟨place, state, found, there⟩ := same partition bounded
      rw [covers_of_place? found, covers_of_place? there, directory_of_params params]
      cases place.parent with
      | none => rfl
      | some parent =>
          simp only
          split
          · next earlier => rw [inductionHypothesis parent earlier (by omega)]
          · rfl

/-- Every leaf holds the accepted build rows of its keys, and if there are any, the accepted probe rows
of its keys. Each key is covered by one leaf. -/
structure Leafed
    (input : Partitioned)
    (build probe : List Row)
    (contents : Contents) : Prop where
  holds : input.Holds True contents
  build : ∀ leaf ∈ input.arena.leaves,
    contents (.build, leaf) = input.coveredRows .build leaf build
  probe : ∀ leaf ∈ input.arena.leaves, contents (.build, leaf) ≠ [] →
    contents (.probe, leaf) = input.coveredRows .probe leaf probe
  unique : ∀ key, ∃! leaf, leaf ∈ input.arena.leaves ∧ input.covers leaf key = true

theorem keyOf_of_side?
    {before after : Partitioned}
    (side? : after.side? = before.side?) :
    after.keyOf = before.keyOf := by
  funext side row
  rw [keyOf, keyOf, side?]

/-- Steps that keep the outline and all rows keep the leaves. -/
theorem Leafed.transfer
    {before after : Partitioned}
    {build probe : List Row}
    {contents : Contents}
    (leafed : before.Leafed build probe contents)
    (outline : after.outline = before.outline)
    (holds : after.Holds True contents) :
    after.Leafed build probe contents := by
  have leaves : ∀ leaf, leaf ∈ after.arena.leaves ↔ leaf ∈ before.arena.leaves := by
    intro leaf
    rw [Arena.mem_leaves_iff, Arena.mem_leaves_iff, place?_of_outline outline]
  have covers : ∀ leaf ∈ before.arena.leaves, ∀ key,
      after.covers leaf key = before.covers leaf key := by
    intro leaf member key
    refine covers_congr (params_of_outline outline) ?_ leaf (Arena.lt_size_of_mem_leaves member) key
    intro partition bounded
    have there : before.arena.place? partition =
        some (before.arena.records[partition]).place :=
      Arena.place?_of_record (Array.getElem?_eq_getElem bounded)
    exact ⟨_, _, there, place?_of_outline outline ▸ there⟩
  have covered : ∀ side, ∀ leaf ∈ before.arena.leaves, ∀ rows,
      after.coveredRows side leaf rows = before.coveredRows side leaf rows := by
    intro side leaf member rows
    simp only [coveredRows, keyOf_of_side? (side?_of_outline outline), covers leaf member]
  refine ⟨holds, ?_, ?_, ?_⟩
  · intro leaf member
    rw [covered _ leaf ((leaves leaf).mp member)]
    exact leafed.build leaf ((leaves leaf).mp member)
  · intro leaf member rows
    rw [covered _ leaf ((leaves leaf).mp member)]
    exact leafed.probe leaf ((leaves leaf).mp member) rows
  · intro key
    obtain ⟨leaf, ⟨member, covered⟩, only⟩ := leafed.unique key
    refine ⟨leaf, ⟨(leaves leaf).mpr member, (covers leaf member key).trans covered⟩, ?_⟩
    rintro other ⟨there, too⟩
    have inside := (leaves other).mp there
    exact only other ⟨inside, (covers other inside key).symm.trans too⟩

/-- The roots cover the keys of their buckets. -/
theorem Rooted.leafed
    {input : Partitioned}
    {build probe : List Row}
    {contents : Contents}
    (rooted : input.Rooted True build contents)
    (stored : ∀ root < input.params.partitionCount,
      contents (.probe, root) = probe.filter fun row => input.bucketOf .probe 0 row = root) :
    input.Leafed build probe contents := by
  have covers : ∀ root < input.params.partitionCount, ∀ key,
      input.covers root key = decide ((input.directory 0).bucketOfKey key = root) := by
    intro root bounded key
    rw [covers_of_place? (rooted.place root bounded), Bool.and_true]
  have leaves : ∀ leaf, leaf ∈ input.arena.leaves ↔ leaf < input.params.partitionCount := by
    intro leaf
    rw [Arena.mem_leaves_iff]
    constructor
    · rintro ⟨place, found, _⟩
      exact rooted.size ▸ Arena.lt_size_of_place? found
    · intro bounded
      exact ⟨_, rooted.place leaf bounded, by simp⟩
  refine ⟨rooted.holds, ?_, ?_, ?_⟩
  · intro leaf member
    have bounded := (leaves leaf).mp member
    rw [rooted.build trivial leaf bounded, coveredRows]
    simp only [covers leaf bounded]
    rfl
  · intro leaf member _
    have bounded := (leaves leaf).mp member
    rw [stored leaf bounded, coveredRows]
    simp only [covers leaf bounded]
    rfl
  · intro key
    have bounded := (input.directory 0).bucketOfKey_lt key
    refine ⟨_, ⟨(leaves _).mpr bounded, ?_⟩, ?_⟩
    · rw [covers _ bounded, decide_eq_true rfl]
    · rintro other ⟨member, covered⟩
      rw [covers _ ((leaves other).mp member)] at covered
      exact (of_decide_eq_true covered).symm

/-- After a split the leaves are the other leaves and the children. -/
theorem Divides.mem_leaves_iff
    {before after : Partitioned}
    {partition : Nat}
    {place : PartitionPlace}
    {contents divided : Contents}
    (divides : before.Divides True after partition place contents divided)
    {leaf : Nat} :
    leaf ∈ after.arena.leaves ↔
      (leaf ∈ before.arena.leaves ∧ leaf ≠ partition) ∨ leaf ∈ before.nextChildren := by
  rw [Arena.mem_leaves_iff, Arena.mem_leaves_iff, mem_nextChildren]
  constructor
  · rintro ⟨there, found, isLeaf⟩
    have bounded := Arena.lt_size_of_place? found
    rw [divides.size] at bounded
    by_cases old : leaf < before.arena.size
    · by_cases same : leaf = partition
      · subst same
        rw [divides.split, Option.some.injEq] at found
        subst found
        exact absurd rfl isLeaf
      · rw [divides.places leaf old same] at found
        exact .inl ⟨⟨there, found, isLeaf⟩, same⟩
    · exact .inr ⟨leaf - before.arena.size, by omega, by omega⟩
  · rintro (⟨⟨there, found, isLeaf⟩, different⟩ | ⟨bucket, bounded, rfl⟩)
    · refine ⟨there, ?_, isLeaf⟩
      rw [divides.places leaf (Arena.lt_size_of_place? found) different, found]
    · refine ⟨_, divides.child bucket bounded, ?_⟩
      dsimp only
      split <;> simp

/-- A split changes nothing about what the old partitions cover. -/
theorem Divides.covers_old
    {before after : Partitioned}
    {partition : Nat}
    {place : PartitionPlace}
    {contents divided : Contents}
    (divides : before.Divides True after partition place contents divided)
    (found : before.arena.place? partition = some place)
    {other : Nat}
    (old : other < before.arena.size)
    (key : Option Key) :
    after.covers other key = before.covers other key := by
  refine covers_congr divides.params ?_ other old key
  intro number bounded
  by_cases same : number = partition
  · subst same
    exact ⟨place, _, found, divides.split⟩
  · have there : before.arena.place? number = some (before.arena.records[number]).place :=
      Arena.place?_of_record (Array.getElem?_eq_getElem bounded)
    exact ⟨_, _, there, (divides.places number bounded same).trans there⟩

/-- A child covers the keys of its bucket among those that the partition covered. -/
theorem Divides.covers_child
    {before after : Partitioned}
    {partition : Nat}
    {place : PartitionPlace}
    {contents divided : Contents}
    (divides : before.Divides True after partition place contents divided)
    (found : before.arena.place? partition = some place)
    {bucket : Nat}
    (bounded : bucket < before.params.partitionCount)
    (key : Option Key) :
    after.covers (before.arena.size + bucket) key =
      (decide ((before.directory (place.level + 1)).bucketOfKey key = bucket) &&
        before.covers partition key) := by
  have old := Arena.lt_size_of_place? found
  rw [covers_of_place? (divides.child bucket bounded), directory_of_params divides.params]
  simp only [show partition < before.arena.size + bucket by omega, if_true,
    divides.covers_old found old]

theorem Divides.coveredRows_old
    {before after : Partitioned}
    {partition other : Nat}
    {place : PartitionPlace}
    {contents divided : Contents}
    (divides : before.Divides True after partition place contents divided)
    (found : before.arena.place? partition = some place)
    (bounded : other < before.arena.size)
    (side : Side)
    (rows : List Row) :
    after.coveredRows side other rows = before.coveredRows side other rows := by
  simp only [coveredRows, keyOf_of_side? divides.side?, divides.covers_old found bounded]

theorem Divides.coveredRows_child
    {before after : Partitioned}
    {partition bucket : Nat}
    {place : PartitionPlace}
    {contents divided : Contents}
    (divides : before.Divides True after partition place contents divided)
    (found : before.arena.place? partition = some place)
    (bounded : bucket < before.params.partitionCount)
    (side : Side)
    (rows : List Row) :
    after.coveredRows side (before.arena.size + bucket) rows =
      (before.coveredRows side partition rows).filter fun row =>
        before.bucketOf side (place.level + 1) row = bucket := by
  rw [coveredRows, coveredRows, List.filter_filter]
  simp only [keyOf_of_side? divides.side?, divides.covers_child found bounded]
  rfl

/-- After a split, a key that the partition covered is covered by the child of its bucket, and every
other key by the leaf that covered it. -/
theorem Divides.existsUnique_leaf
    {before after : Partitioned}
    {partition : Nat}
    {place : PartitionPlace}
    {contents divided : Contents}
    (divides : before.Divides True after partition place contents divided)
    (found : before.arena.place? partition = some place)
    (isLeaf : partition ∈ before.arena.leaves)
    {key : Option Key}
    (unique : ∃! leaf, leaf ∈ before.arena.leaves ∧ before.covers leaf key = true) :
    ∃! leaf, leaf ∈ after.arena.leaves ∧ after.covers leaf key = true := by
  obtain ⟨leaf, ⟨member, covered⟩, only⟩ := unique
  by_cases same : leaf = partition
  · subst same
    have bounded := (before.directory (place.level + 1)).bucketOfKey_lt key
    refine ⟨_, ⟨divides.mem_leaves_iff.mpr (.inr (mem_nextChildren.mpr ⟨_, bounded, rfl⟩)), ?_⟩, ?_⟩
    · rw [divides.covers_child found bounded, decide_eq_true rfl, covered, Bool.and_true]
    · rintro other ⟨there, too⟩
      obtain ⟨inside, different⟩ | child := divides.mem_leaves_iff.mp there
      · rw [divides.covers_old found (Arena.lt_size_of_mem_leaves inside)] at too
        exact absurd (only other ⟨inside, too⟩) different
      · obtain ⟨bucket, inside, rfl⟩ := mem_nextChildren.mp child
        rw [divides.covers_child found inside, Bool.and_eq_true] at too
        rw [of_decide_eq_true too.1]
  · refine ⟨leaf, ⟨divides.mem_leaves_iff.mpr (.inl ⟨member, same⟩), ?_⟩, ?_⟩
    · rw [divides.covers_old found (Arena.lt_size_of_mem_leaves member), covered]
    · rintro other ⟨there, too⟩
      obtain ⟨inside, _⟩ | child := divides.mem_leaves_iff.mp there
      · rw [divides.covers_old found (Arena.lt_size_of_mem_leaves inside)] at too
        exact only other ⟨inside, too⟩
      · obtain ⟨bucket, inside, rfl⟩ := mem_nextChildren.mp child
        rw [divides.covers_child found inside, Bool.and_eq_true] at too
        exact absurd (only partition ⟨isLeaf, too.2⟩).symm same

/-- A split keeps the rows of the leaves. -/
theorem Leafed.divides
    {before after : Partitioned}
    {build probe : List Row}
    {contents divided : Contents}
    {partition : Nat}
    {place : PartitionPlace}
    (leafed : before.Leafed build probe contents)
    (divides : before.Divides True after partition place contents divided)
    (found : before.arena.place? partition = some place)
    (leaf : place.state ≠ .repartitioned) :
    after.Leafed build probe divided := by
  have isLeaf : partition ∈ before.arena.leaves := Arena.mem_leaves_iff.mpr ⟨place, found, leaf⟩
  refine ⟨divides.holds, ?_, ?_, fun key => divides.existsUnique_leaf found isLeaf (leafed.unique key)⟩
  · intro other member
    obtain ⟨there, different⟩ | child := divides.mem_leaves_iff.mp member
    · have old := Arena.lt_size_of_mem_leaves there
      rw [divides.others _ _ old different, divides.coveredRows_old found old,
        leafed.build other there]
    · obtain ⟨bucket, bounded, rfl⟩ := mem_nextChildren.mp child
      rw [divides.build trivial bucket bounded, divides.coveredRows_child found bounded,
        leafed.build partition isLeaf]
  · intro other member rows
    obtain ⟨there, different⟩ | child := divides.mem_leaves_iff.mp member
    · have old := Arena.lt_size_of_mem_leaves there
      rw [divides.others _ _ old different] at rows ⊢
      rw [divides.coveredRows_old found old, leafed.probe other there rows]
    · obtain ⟨bucket, bounded, rfl⟩ := mem_nextChildren.mp child
      have parentRows : contents (.build, partition) ≠ [] := by
        intro none
        rw [divides.build trivial bucket bounded, none] at rows
        exact rows rfl
      rw [divides.probe trivial bucket bounded rows, divides.coveredRows_child found bounded,
        leafed.probe partition isLeaf parentRows]

/-! ## Runs -/

/-- What was done with new input: chunks of the build side were accepted, chunks of the probe side were
appended to the roots that the root directory names for their rows, and then open spilled partitions
were split; between any two of these, partitions were spilled. The chunks have the declared schemas, and there
are numbers for their rows. A run is named by whether a partition was split, and by the build and the probe
rows in the order in which they arrived. -/
inductive Run (start : Partitioned) : Bool → List Row → List Row → Partitioned → Prop
  | new : Run start false [] [] start
  | build
      {build probe : List Row}
      {before after : Partitioned}
      {chunk : Chunk}
      (run : Run start false build probe before)
      (fits : chunk.schema = before.buildSchema)
      (numbered : chunk.Numbered)
      (succeeds : (addBuildChunk chunk).Succeeds before () after) :
      Run start false (build ++ chunk.rows) probe after
  | probe
      {build probe : List Row}
      {before after : Partitioned}
      {declared : ProbeSide}
      {root : Nat}
      {chunk : Chunk}
      (run : Run start false build probe before)
      (declares : before.probeSide = some declared)
      (fits : chunk.schema = declared.schema)
      (numbered : chunk.Numbered)
      (routed : ∀ row ∈ chunk.rows, before.bucketOf .probe 0 row = root)
      (succeeds : (appendProbe root chunk).Succeeds before () after) :
      Run start false build (probe ++ chunk.rows) after
  | spill
      {divided : Bool}
      {build probe : List Row}
      {before after : Partitioned}
      {partition freed : Nat}
      (run : Run start divided build probe before)
      (succeeds : (spillPartition partition).Succeeds before freed after) :
      Run start divided build probe after
  | split
      {divided : Bool}
      {build probe : List Row}
      {before after : Partitioned}
      {partition : Nat}
      {record : PartitionRecord}
      {children : List Nat}
      (run : Run start divided build probe before)
      (found : before.arena.records[partition]? = some record)
      (opened : record.state = .opened)
      (spilled : record.build.spilled = true)
      (succeeds : (repartition partition).Succeeds before children after) :
      Run start true build probe after

/-- Until a partition is split, the roots hold the rows of their buckets on both sides. -/
structure Unsplit
    (input : Partitioned)
    (build probe : List Row)
    (contents : Contents) : Prop extends Rooted True input build contents where
  probe : ∀ root < input.params.partitionCount,
    contents (.probe, root) = probe.filter fun row => input.bucketOf .probe 0 row = root

/-- Steps that keep the outline and the probe rows. -/
theorem Unsplit.transfer
    {before after : Partitioned}
    {build more probe : List Row}
    {contents filled : Contents}
    (unsplit : before.Unsplit build probe contents)
    (outline : after.outline = before.outline)
    (rooted : after.Rooted True more filled)
    (same : ∀ root, filled (.probe, root) = contents (.probe, root)) :
    after.Unsplit more probe filled := by
  refine ⟨rooted, ?_⟩
  rw [params_of_outline outline,
    bucketOf_of_setting (params_of_outline outline) (side?_of_outline outline)]
  intro root bounded
  rw [same, unsplit.probe root bounded]

/-- Appending a chunk to the probe side of the root of its rows. -/
theorem Unsplit.appendProbe
    {before after : Partitioned}
    {build probe : List Row}
    {contents : Contents}
    {declared : ProbeSide}
    {root : Nat}
    {chunk : Chunk}
    (unsplit : before.Unsplit build probe contents)
    (succeeds : (appendProbe root chunk).Succeeds before () after)
    (declares : before.probeSide = some declared)
    (suits : chunk.Suits True declared.schema)
    (routed : ∀ row ∈ chunk.rows, before.bucketOf .probe 0 row = root) :
    after.Unsplit build (probe ++ chunk.rows) (contents.append (.probe, root) chunk.rows) := by
  obtain ⟨held, fills⟩ := appends_appendProbe succeeds unsplit.holds declares suits
  refine ⟨unsplit.toRooted.transfer fills.outline held ?_, ?_⟩
  · intro _ other bounded
    rw [Contents.append, Function.update_of_ne (by simp), unsplit.build trivial other bounded]
  · rw [params_of_outline fills.outline,
      bucketOf_of_setting (params_of_outline fills.outline) (side?_of_outline fills.outline)]
    intro other bounded
    rw [List.filter_append, Contents.append]
    by_cases here : other = root
    · subst here
      rw [Function.update_self, unsplit.probe other bounded,
        List.filter_eq_self.mpr fun row member => decide_eq_true (routed row member)]
    · have none : (chunk.rows.filter fun row => before.bucketOf .probe 0 row = other) = [] := by
        rw [List.filter_eq_nil_iff]
        intro row member same
        exact here ((of_decide_eq_true same).symm.trans (routed row member))
      rw [Function.update_of_ne (by simp [here]), unsplit.probe other bounded, none,
        List.append_nil]

/-- Every run keeps the rows of the leaves. -/
theorem Run.leafed
    {start input : Partitioned}
    {divided : Bool}
    {build probe : List Row}
    (run : Run start divided build probe input)
    (new : start.Unsplit [] [] fun _ => []) :
    ∃ contents, input.Leafed build probe contents ∧
      (divided = false → input.Unsplit build probe contents) := by
  induction run with
  | new => exact ⟨_, new.toRooted.leafed new.probe, fun _ => new⟩
  | build run fits numbered succeeds inductionHypothesis =>
      obtain ⟨contents, _, unsplit⟩ := inductionHypothesis
      obtain ⟨outline, filled, rooted, same⟩ := (unsplit rfl).toRooted.addBuildChunk succeeds
        ⟨fits, fun _ => numbered⟩
      have filledUnsplit := (unsplit rfl).transfer outline rooted same
      exact ⟨filled, rooted.leafed filledUnsplit.probe, fun _ => filledUnsplit⟩
  | probe run declares fits numbered routed succeeds inductionHypothesis =>
      obtain ⟨contents, _, unsplit⟩ := inductionHypothesis
      have appended := (unsplit rfl).appendProbe succeeds declares ⟨fits, fun _ => numbered⟩ routed
      exact ⟨_, appended.toRooted.leafed appended.probe, fun _ => appended⟩
  | spill run succeeds inductionHypothesis =>
      obtain ⟨contents, leafed, unsplit⟩ := inductionHypothesis
      obtain ⟨held, fills⟩ := succeeds_spillPartition succeeds leafed.holds
      refine ⟨contents, leafed.transfer fills.outline held, fun notDivided => ?_⟩
      have unsplit := unsplit notDivided
      exact unsplit.transfer fills.outline
        (unsplit.toRooted.transfer fills.outline held unsplit.build) fun _ => rfl
  | split run found opened spilled succeeds inductionHypothesis =>
      obtain ⟨contents, leafed, _⟩ := inductionHypothesis
      obtain ⟨divided, divides, _⟩ := succeeds_repartition succeeds leafed.holds found spilled
      refine ⟨divided, leafed.divides divides (Arena.place?_of_record found) ?_, fun same => ?_⟩
      · rw [PartitionRecord.place, opened]
        simp
      · cases same

/-! ## Reading the leaves -/

namespace Sample

/-- One integer column. -/
def side : ProbeSide :=
  ⟨[{ name := "k", type := .int64 }], "k"⟩

/-- One row. -/
def chunk : Chunk :=
  ⟨side.schema, [[.int 7]], by decide⟩

/-- Input without rows. -/
def new : Partitioned :=
  valueOf (make "join" ⟨2, 1000, 3⟩ side.schema side.key (some side) {} {}) (by decide +kernel)

/-- The input after the row was accepted. -/
def built : Partitioned :=
  ((addBuildChunk chunk).outcome new).2

/-- The input after the row was appended to the probe side of its root. -/
def probed : Partitioned :=
  ((appendProbe 1 chunk).outcome built).2

/-- The input after the root was spilled. -/
def spilled : Partitioned :=
  ((spillPartition 1).outcome probed).2

/-- The input after the root was split. -/
def split : Partitioned :=
  ((repartition 1).outcome spilled).2

/-- The record of the root before it was split. -/
def root : PartitionRecord :=
  valueOf (spilled.arena.record 1) (by decide +kernel)

end Sample

namespace Sample

/-- Keys with a value each. -/
def valued : ProbeSide :=
  ⟨[{ name := "k", type := .int64 }, { name := "v", type := .int64 }], "k"⟩

/-- Input that has no room for the row. -/
def tight : Partitioned :=
  valueOf (make "join" ⟨2, 4, 3⟩ valued.schema valued.key none {} {}) (by decide +kernel)

end Sample

end Partitioned

end Spillway
