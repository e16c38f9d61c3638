import Spillway.Proofs.Filter.Wire
import Spillway.Proofs.Operator.Join

/-!
# Filters change no join

Join instances that share a build side compute filters of the keys that each of them has accepted.
The filters are sent and merged in any order until one is left. It lets the keys of all instances
through, so what it drops from a probe chunk finds no partner in any of them, and each instance yields
the same rows for the chunk as for what is left of it.
-/

namespace Spillway

/-- The filter lets the keys of the rows through. -/
structure KeyFilter.Admits
    (filter : KeyFilter)
    (build : ProbeSide)
    (rows : List Row) : Prop where
  sized : filter.Sized
  passes : ∀ row ∈ rows, ∀ key, build.keyOf row = some key → filter.test key = true

/-- The keys of a chunk are those of its rows. -/
theorem Chunk.exists_keyCell
    {chunk : Chunk}
    {name : String}
    {cells : List Cell}
    {row : Row}
    (computed : chunk.keyCells name = .ok cells)
    (member : row ∈ chunk.rows) :
    ∃ cell ∈ cells, cell.key? = chunk.schema.keyOf name row := by
  simp only [Chunk.keyCells, bind_eq_ok_iff, pure_eq_ok_iff, keyPosition_eq_ok_iff] at computed
  obtain ⟨position, ⟨named, _⟩, rfl⟩ := computed
  rw [Schema.keyOf_of_position? named]
  exact ⟨_, List.mem_map_of_mem member, rfl⟩

namespace Join

variable {build probe : ProbeSide}

/-! ## Filters of one instance -/

/-- Every filter lets the keys of the rows through. -/
def Describes
    (join : Join)
    (build : ProbeSide)
    (rows : List Row) : Prop :=
  ∀ filter ∈ join.filters, filter.Admits build rows

/-- Accepting a chunk puts its keys into every filter, whatever is spilled meanwhile. -/
theorem Describes.addBuildChunk
    {before after : Join}
    {rows : List Row}
    {chunk : Chunk}
    {value : Unit}
    (describes : before.Describes build rows)
    (succeeds : (addBuildChunk chunk).Succeeds before value after)
    (sides : before.Between build probe)
    (fits : chunk.schema = build.schema) :
    after.Describes build (rows ++ chunk.rows) := by
  obtain ⟨kept, dropping, cases⟩ := addBuildChunk_cases succeeds
  obtain ⟨schema, keep, rows_eq, keeps⟩ := rows_of_dropAbsentKeys dropping
  rw [sides.buildKey] at keeps
  have present : ∀ row ∈ chunk.rows, ∀ key, build.keyOf row = some key → row ∈ kept.rows := by
    intro row member key found
    rw [rows_eq]
    refine List.mem_filter.mpr ⟨member, keeps row ?_⟩
    rw [fits, ← ProbeSide.keyOf, found]
    exact Option.some_ne_none key
  obtain ⟨empty, rfl⟩ | ⟨-, filled, pairs, _, same⟩ := cases
  · intro filter member
    refine ⟨(describes filter member).sized, fun row inside key found => ?_⟩
    obtain old | new := List.mem_append.mp inside
    · exact (describes filter member).passes row old key found
    · have nowhere := present row new key found
      rw [empty] at nowhere
      exact absurd nowhere List.not_mem_nil
  · intro filter member
    rw [← same] at member
    obtain ⟨earlier, origin, cells, computed, inserted⟩ := exists_left_of_forall₂ pairs member
    obtain ⟨sized, passing, still⟩ := KeyFilter.test_of_insertColumn inserted
    refine ⟨sized (describes earlier origin).sized, fun row inside key found => ?_⟩
    obtain old | new := List.mem_append.mp inside
    · exact still key ((describes earlier origin).passes row old key found)
    · obtain ⟨cell, there, keyed⟩ := Chunk.exists_keyCell computed (present row new key found)
      rw [schema, fits, sides.buildKey, ← ProbeSide.keyOf, found] at keyed
      exact passing cell there key keyed

theorem describes_of_make
    {params : Params}
    {specs : List FilterSpec}
    {area : SpillArea}
    {ledger : Ledger}
    {join : Join}
    (made : make params build.schema build.key probe specs area ledger = .ok join) :
    join.Describes build [] := by
  simp only [make, bind_eq_ok_iff, pure_eq_ok_iff] at made
  obtain ⟨input, _, rfl⟩ := made
  intro filter member
  obtain ⟨spec, _, rfl⟩ := List.mem_map.mp member
  exact ⟨KeyFilter.sized_empty _ _, fun _ inside => absurd inside List.not_mem_nil⟩

/-- The filters that the build side ends with let the keys of all its rows through. -/
theorem admits_of_takeBuild
    {account : Option Nat}
    {builds : List Chunk}
    {before after : Join}
    {filters : List (FilterId × KeyFilter)}
    {id : FilterId}
    {filter : KeyFilter}
    (succeeds : (takeBuild account builds).Succeeds before filters after)
    (member : (id, filter) ∈ filters)
    (sides : before.Between build probe)
    (describes : before.Describes build [])
    (fits : ∀ chunk ∈ builds, chunk.schema = build.schema) :
    filter.Admits build (builds.flatMap Chunk.rows) := by
  rw [takeBuild, Step.succeeds_bind] at succeeds
  obtain ⟨_, _, charged, succeeds⟩ := succeeds
  rw [Step.succeeds_bind] at succeeds
  obtain ⟨_, built, accepted, finished⟩ := succeeds
  have stillSides := sides.chargeWithin charged
  obtain ⟨input, _, rfl⟩ := succeeds_onInput_iff.mp charged
  have stillDescribes : Describes { before with input } build [] := describes
  obtain ⟨_, taken⟩ := accepted.forM
    (fun rows join => join.Between build probe ∧ join.Describes build rows)
    ⟨stillSides, stillDescribes⟩
    fun chunk member _ _ _ reached added =>
      ⟨reached.1.addBuildChunk added, reached.2.addBuildChunk added reached.1 (fits chunk member)⟩
  have same : filters = (built.specs.map FilterSpec.id).zip built.filters := by
    simp only [finishBuild, Step.succeeds_bind, Step.succeeds_get] at finished
    obtain ⟨_, _, ⟨rfl, rfl⟩, finished⟩ := finished
    split at finished
    · simp only [Step.succeeds_bind, Step.succeeds_fail, false_and, exists_false] at finished
    simp only [Step.succeeds_bind, Step.succeeds_modify, Step.succeeds_pure] at finished
    obtain ⟨_, _, _, _, _, _, _, _, _, rfl, _⟩ := finished
    rfl
  rw [same] at member
  exact taken filter (List.of_mem_zip member).2

end Join

/-! ## Filters of many instances -/

/-- What one instance builds from. -/
structure BuildInput where
  side : ProbeSide
  chunks : List Chunk

namespace BuildInput

/-- The rows of the chunks. -/
def rows (input : BuildInput) : List Row :=
  input.chunks.flatMap Chunk.rows

/-- A join that takes the chunks, however it is sized, ends its build side with the filter. -/
inductive Produces (input : BuildInput) : KeyFilter → Prop
  | intro
      {params : Params}
      {probe : ProbeSide}
      {specs : List FilterSpec}
      {area : SpillArea}
      {ledger : Ledger}
      {account : Option Nat}
      {before after : Join}
      {filters : List (FilterId × KeyFilter)}
      {id : FilterId}
      {filter : KeyFilter}
      (made : Join.make params input.side.schema input.side.key probe specs area ledger = .ok before)
      (fits : ∀ chunk ∈ input.chunks, chunk.schema = input.side.schema)
      (succeeds : (Join.takeBuild account input.chunks).Succeeds before filters after)
      (member : (id, filter) ∈ filters) :
      input.Produces filter

/-- A join that takes the chunks and those of a probe side, however it is sized, yields the rows. There are
numbers for the rows of every chunk, and for the build rows of every bucket. -/
inductive Joins (input : BuildInput) (probe : ProbeSide) (probes : List Chunk) : List Row → Prop
  | intro
      {params : Params}
      {specs : List FilterSpec}
      {area : SpillArea}
      {ledger : Ledger}
      {account : Option Nat}
      {before after : Join}
      {filters : List (FilterId × KeyFilter)}
      {output : List Chunk}
      (made : Join.make params input.side.schema input.side.key probe specs area ledger = .ok before)
      (faithful : area.store.damage = [])
      (buildNumbered : ∀ chunk ∈ input.chunks, chunk.Numbered)
      (probeNumbered : ∀ chunk ∈ probes, chunk.Numbered)
      (numbers : before.input.Numbers input.rows)
      (succeeds : (Join.run account input.chunks probes).Succeeds before (filters, output) after) :
      input.Joins probe probes (output.flatMap Chunk.rows)

theorem Produces.admits
    {input : BuildInput}
    {filter : KeyFilter}
    (produces : input.Produces filter) :
    filter.Admits input.side input.rows := by
  obtain ⟨made, fits, succeeds, member⟩ := produces
  exact Join.admits_of_takeBuild succeeds member (Join.between_of_make made)
    (Join.describes_of_make made) fits

theorem Joins.perm
    {input : BuildInput}
    {probe : ProbeSide}
    {probes : List Chunk}
    {output : List Row}
    (joins : input.Joins probe probes output)
    (buildFits : ∀ chunk ∈ input.chunks, chunk.schema = input.side.schema)
    (probeFits : ∀ chunk ∈ probes, chunk.schema = probe.schema) :
    output.Perm (innerJoin input.side probe input.rows (probes.flatMap Chunk.rows)) := by
  obtain ⟨made, faithful, buildNumbered, probeNumbered, numbers, succeeds⟩ := joins
  exact (Join.building_of_make made faithful).run succeeds
    (fun chunk member => ⟨buildFits chunk member, fun _ => buildNumbered chunk member⟩)
    (fun chunk member => ⟨probeFits chunk member, fun _ => probeNumbered chunk member⟩) numbers

theorem Produces.fits
    {input : BuildInput}
    {filter : KeyFilter}
    (produces : input.Produces filter) :
    ∀ chunk ∈ input.chunks, chunk.schema = input.side.schema := by
  obtain ⟨_, fits, _, _⟩ := produces
  exact fits

end BuildInput

namespace KeyFilter

/-- The filter is made of filters by merging them in some order, where each may be sent as bytes any
number of times. -/
inductive Assembled : List KeyFilter → KeyFilter → Prop
  | part (filter : KeyFilter) : Assembled [filter] filter
  | sent
      {parts : List KeyFilter}
      {filter received : KeyFilter} :
      Assembled parts filter →
      Wire.decode (Wire.encode filter) = .ok received →
      Assembled parts received
  | merged
      {parts more : List KeyFilter}
      {filter other union : KeyFilter} :
      Assembled parts filter →
      Assembled more other →
      filter.merge other = .ok union →
      Assembled (parts ++ more) union

/-- What passes a part passes the whole. -/
theorem Assembled.test
    {parts : List KeyFilter}
    {filter : KeyFilter}
    (assembled : Assembled parts filter)
    (sized : ∀ part ∈ parts, part.Sized) :
    filter.Sized ∧ ∀ part ∈ parts, ∀ key, part.test key = true → filter.test key = true := by
  induction assembled with
  | part filter =>
      refine ⟨sized filter List.mem_cons_self, fun part member key passes => ?_⟩
      rw [List.mem_singleton] at member
      exact member ▸ passes
  | sent _ decoded inductionHypothesis =>
      obtain ⟨whole, passing⟩ := inductionHypothesis sized
      rw [Wire.eq_of_decode_encode decoded]
      exact ⟨whole, passing⟩
  | merged _ _ merges leftHypothesis rightHypothesis =>
      obtain ⟨leftSized, left⟩ :=
        leftHypothesis fun part member => sized part (List.mem_append_left _ member)
      obtain ⟨_, right⟩ :=
        rightHypothesis fun part member => sized part (List.mem_append_right _ member)
      obtain ⟨stillSized, either⟩ := test_of_merge merges
      refine ⟨stillSized leftSized, fun part member key passes => either key ?_⟩
      obtain here | there := List.mem_append.mp member
      · exact .inl (left part here key passes)
      · exact .inr (right part there key passes)

namespace Sample

/-- Rows with wide keys. -/
def wide : BuildInput :=
  ⟨Join.Sample.buildSide, [Join.Sample.built]⟩

/-- A side with narrower keys. -/
def narrowSide : ProbeSide :=
  ⟨[{ name := "k", type := .int32 }], "k"⟩

/-- A row with a narrower key. -/
def narrow : BuildInput :=
  ⟨narrowSide, [⟨narrowSide.schema, [[.int 12]], by decide⟩]⟩

/-- A filter of the range of the keys. -/
def spec : FilterSpec :=
  ⟨⟨0⟩, .minMax, 0⟩

/-- The range from 7 to 12. -/
def both : KeyFilter :=
  .range (.between (.int 7) (.int 12) rfl (by decide))

end Sample

end KeyFilter

end Spillway
