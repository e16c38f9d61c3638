import Spillway.Proofs.Operator.Aggregation
import Spillway.Proofs.Operator.Budget
import Spillway.Proofs.Operator.Changes
import Spillway.Proofs.Operator.Join

/-!
# Chunks that are refused

A chunk that cannot be appended may have left some of its rows behind. There are two ways for that: parts
of it went to other partitions first, or the tail that it was appended to could not be written. If all
its rows belong to one partition, and the tail of that one stays below the block size with them, then a
failure can only strike while room is made, and what is spilled to make room stays what it is. Such a
chunk leaves nothing behind, so that joins and aggregations yield what they would without it.
-/

namespace Spillway

open Step

variable {α : Type}

namespace Partition

variable {holding : Holding}

/-- Appending cannot fail while the tail stays below the block size. -/
theorem serves_append_of_room
    {chunk : Chunk}
    (room : holding.partition.pendingBytes + chunk.logicalBytes < holding.area.spiller.blockSize) :
    (append chunk).Serves holding := by
  rw [append, Serves, ends_ite]
  refine ⟨fun _ => trivial, fun _ => ?_⟩
  rw [ends_bind, ends_current]
  dsimp only
  rw [ends_ite]
  refine ⟨fun _ => ?_, fun _ => trivial⟩
  rw [ends_bind, appendPending, ends_bind, change, ends_modify, ends_bind, ends_get, ends_ite]
  exact ⟨fun full => absurd room (Nat.not_lt_of_le full), fun _ => trivial⟩

/-- The tail has its length, and the length at which it is written is the same. -/
structure SameTail (before after : Holding) : Prop where
  pendingBytes : after.partition.pendingBytes = before.partition.pendingBytes
  blockSize : after.area.spiller.blockSize = before.area.spiller.blockSize

/-- Spilling leaves the tail as it is, and the whole partition if it fails. -/
theorem ends_spill_tail (holding : Holding) :
    spill.Ends holding (fun _ after => SameTail holding after)
      fun _ after => SameTail holding after ∧ after.partition = holding.partition ∧
        holding.area.store.Same after.area.store := by
  rw [spill, ends_bind, ends_current, ends_ite]
  refine ⟨fun _ => ⟨rfl, rfl⟩, fun _ => ?_⟩
  dsimp only
  rw [ends_ite]
  refine ⟨fun _ => ⟨rfl, rfl⟩, fun _ => ?_⟩
  rw [ends_bind, onArea, ends_focus]
  have sized := SpillArea.keeps_spill_blockSize holding.area.spiller.blockSize
    holding.partition.schema holding.partition.chunks holding.area rfl
  exact ((SpillArea.ends_spill _ _ holding.area).and sized).mono (fun _ _ written => ⟨rfl, written.2⟩)
    fun _ _ failed => ⟨⟨rfl, failed.2⟩, rfl, failed.1.1⟩

end Partition

namespace Partitioned

variable {precise : Prop} {input : Partitioned} {partition root bytes : Nat} {record : PartitionRecord}
  {contents : Contents} {outline : Outline}

/-- So many bytes more do not fill the tail of a partition. -/
def Room
    (root bytes : Nat)
    (input : Partitioned) : Prop :=
  ∀ record, input.arena.records[root]? = some record →
    record.build.pendingBytes + bytes < input.area.spiller.blockSize

instance : Decidable (input.Room root bytes) :=
  inferInstanceAs <| Decidable <| ∀ record ∈ input.arena.records[root]?,
    record.build.pendingBytes + bytes < input.area.spiller.blockSize

theorem Room.withBuild
    {holding : Holding}
    (room : input.Room root bytes)
    (found : input.arena.records[partition]? = some record)
    (same : Partition.SameTail ⟨record.build, input.area⟩ holding) :
    (input.withBuild partition holding).Room root bytes := by
  intro changed there
  show changed.build.pendingBytes + bytes < holding.area.spiller.blockSize
  rw [same.blockSize]
  obtain ⟨old, was, rfl⟩ := exists_of_getElem?_modify there
  split
  · next here =>
    subst here
    rw [found, Option.some.injEq] at was
    subst was
    have tail := room record found
    rwa [← same.pendingBytes] at tail
  · exact room old was

/-- The partitions stand where they stood and hold what they held, and one of them has a tail that so many
bytes more do not fill. -/
structure Spared
    (precise : Prop)
    (contents : Contents)
    (outline : Outline)
    (root bytes : Nat)
    (input : Partitioned) : Prop where
  holds : input.Holds precise contents
  outline_eq : input.outline = outline
  room : input.Room root bytes

theorem Spared.of_quiet
    {after : Partitioned}
    (spared : input.Spared precise contents outline root bytes)
    (quiet : input.Quiet after)
    (room : after.Room root bytes) :
    after.Spared precise contents outline root bytes :=
  ⟨quiet.holds spared.holds, quiet.outline.trans spared.outline_eq, room⟩

/-! ## Making room -/

theorem keeps_spillPartition_spared
    (partition : Nat) :
    (spillPartition partition).Keeps (Spared precise contents outline root bytes) := by
  intro input spared
  have tails : (spillPartition partition).Ends input (fun _ after => after.Room root bytes)
      fun _ after => after.Spared precise contents outline root bytes := by
    rw [spillPartition, ends_bind]
    refine ends_record (fun record found => ?_) fun _ => spared
    rw [ends_ite]
    refine ⟨fun _ => spared.room, fun _ => ?_⟩
    rw [ends_bind, ends_onBuild found]
    refine (Partition.ends_spill_tail _).mono (fun freed holding tail => ?_) fun _ holding failed => ?_
    · exact spared.room.withBuild found tail
    · exact spared.of_quiet (quiet_withBuild found failed.2.1 failed.2.2.keeps)
        (spared.room.withBuild found failed.1)
  refine tails.and_succeeds.mono (fun freed after spills => ?_) fun _ _ spared => spared
  obtain ⟨held, fills⟩ := succeeds_spillPartition spills.1 spared.holds
  exact ⟨held, fills.outline.trans spared.outline_eq, spills.2⟩

theorem keeps_spillLargest_spared : spillLargest.Keeps (Spared precise contents outline root bytes) := by
  refine keeps_get.bind fun input => ?_
  split
  · exact (keeps_spillPartition_spared _).bind fun _ => keeps_pure _
  · exact keeps_pure _

theorem keeps_tryCharge_spared
    (charged : Nat) :
    (tryCharge charged).Keeps (Spared precise contents outline root bytes) :=
  fun _ spared => ends_tryCharge_of
    (fun _ _ => ⟨spared.holds, spared.outline_eq, spared.room⟩) fun _ => spared

/-! ## Appending -/

section Append

variable {chunk : Chunk} (spared : input.Spared precise contents outline root chunk.logicalBytes)
include spared

theorem ends_append_spared :
    (onBuild root (Partition.append chunk)).Ends input (fun _ _ => True)
      fun _ after => after.Spared precise contents outline root chunk.logicalBytes := by
  cases found : input.arena.records[root]? with
  | none =>
      rw [onBuild, ends_bind]
      exact ends_record (fun record present => by simp [found] at present) fun _ => spared
  | some record =>
      rw [ends_onBuild found]
      have room : record.build.pendingBytes + chunk.logicalBytes < input.area.spiller.blockSize :=
        spared.room record found
      exact (Partition.serves_append_of_room room).mono (fun _ _ _ => trivial) fun _ _ => False.elim

theorem ends_appendCharged_spared
    (charged : Nat) :
    (appendCharged root charged chunk).Ends input (fun _ _ => True)
      fun _ after => after.Spared precise contents outline root chunk.logicalBytes := by
  rw [appendCharged, ends_bind, ends_attempt]
  refine (ends_append_spared spared).mono (fun _ _ _ => trivial) fun status after spared => ?_
  exact ⟨spared.holds, spared.outline_eq, spared.room⟩

/-- If nothing but the making of room can fail, a chunk that is not appended leaves nothing behind. -/
theorem ends_appendBuild_spared :
    (appendBuild root chunk).Ends input (fun _ _ => True)
      fun _ after => after.Spared precise contents outline root chunk.logicalBytes := by
  rw [appendBuild, ends_bind]
  refine ends_record (fun target _ => ?_) fun _ => spared
  rw [ends_ite]
  refine ⟨fun _ => ends_append_spared spared, fun _ => ?_⟩
  rw [ends_bind]
  refine (keeps_tryCharge_spared _ input spared).mono (fun granted first spared => ?_)
    fun _ _ spared => spared
  rw [ends_ite]
  refine ⟨fun _ => ends_appendCharged_spared spared _, fun _ => ?_⟩
  rw [ends_bind]
  refine (keeps_spillLargest_spared first spared).mono (fun _ second spared => ?_)
    fun _ _ spared => spared
  rw [ends_bind]
  refine ends_record (fun target _ => ?_) fun _ => spared
  rw [ends_ite]
  refine ⟨fun _ => ends_append_spared spared, fun _ => ?_⟩
  rw [ends_bind]
  refine (keeps_tryCharge_spared _ second spared).mono (fun granted third spared => ?_)
    fun _ _ spared => spared
  rw [ends_ite]
  refine ⟨fun _ => ends_appendCharged_spared spared _, fun _ => ?_⟩
  rw [ends_bind]
  exact (keeps_spillPartition_spared root third spared).mono
    (fun _ _ spared => ends_append_spared spared) fun _ _ spared => spared

end Append

/-! ## Dealing out chunks -/

/-- Nothing is dealt out where there is no part. -/
theorem serves_deal_of_none
    {append : Nat → Chunk → Step Partitioned Unit}
    {pairs : List (Nat × Option Chunk)}
    (none : ∀ pair ∈ pairs, pair.2 = none)
    (input : Partitioned) :
    (deal append pairs).Serves input := by
  induction pairs with
  | nil => trivial
  | cons pair rest inductionHypothesis =>
      obtain ⟨partition, part⟩ := pair
      obtain rfl : part = Option.none := none _ List.mem_cons_self
      exact inductionHypothesis fun other member => none other (List.mem_cons_of_mem _ member)

/-- A chunk all of which goes to one partition leaves nothing behind if that one does not take it. -/
theorem ends_deal_spared
    {pairs : List (Nat × Option Chunk)}
    {chunk : Chunk}
    (spared : input.Spared precise contents outline root chunk.logicalBytes)
    (distinct : (pairs.map Prod.fst).Nodup)
    (only : ∀ partition part, (partition, some part) ∈ pairs → partition = root ∧ part = chunk) :
    (deal appendBuild pairs).Ends input (fun _ _ => True)
      fun _ after => after.Spared precise contents outline root chunk.logicalBytes := by
  induction pairs with
  | nil => trivial
  | cons pair rest inductionHypothesis =>
      obtain ⟨partition, part⟩ := pair
      rw [List.map_cons, List.nodup_cons] at distinct
      have restOnly := fun other part member => only other part (List.mem_cons_of_mem _ member)
      cases part with
      | none => exact inductionHypothesis distinct.2 restOnly
      | some part =>
          obtain ⟨rfl, rfl⟩ := only partition part List.mem_cons_self
          have none : ∀ pair ∈ rest, pair.2 = none := by
            rintro ⟨other, another⟩ member
            cases another with
            | none => rfl
            | some more =>
                obtain ⟨rfl, -⟩ := restOnly other more member
                exact absurd (List.mem_map_of_mem member) distinct.1
          rw [deal, ends_bind]
          exact (ends_appendBuild_spared spared).mono
            (fun _ between _ => (serves_deal_of_none none between).mono (fun _ _ _ => trivial)
              fun _ _ => False.elim) fun _ _ spared => spared

/-- All rows of the chunk belong to one partition, and they do not fill the tail of that one. -/
def Seats
    (input : Partitioned)
    (chunk : Chunk) : Prop :=
  ∃ root, (∀ row ∈ chunk.rows, input.bucketOf .build 0 row = root) ∧
    input.Room root chunk.logicalBytes

/-- If all rows of a chunk belong to one partition, the chunk is the only part of it that there is. -/
theorem eq_of_together
    {chunk part : Chunk}
    {parts : List (Option Chunk)}
    (together : ∀ row ∈ chunk.rows, input.bucketOf .build 0 row = root)
    (fits : chunk.schema = input.buildSchema)
    (split : (input.directory 0).split chunk input.buildKey = .ok parts)
    (member : (partition, some part) ∈ input.roots.zip parts) :
    partition = root ∧ part = chunk := by
  have deals := Directory.deals_of_split split
  have occupied : chunk.isEmpty = false := by
    obtain ⟨_, taken⟩ := deals.exists_partOf (List.of_mem_zip member).2
    obtain ⟨row, inside⟩ := List.exists_mem_of_ne_nil _ (List.isEmpty_eq_false_iff.mp taken.occupied)
    exact List.isEmpty_eq_false_iff.mpr (List.ne_nil_of_mem (taken.within row inside))
  obtain ⟨bucket, found⟩ := List.mem_iff_getElem?.mp member
  obtain ⟨numbered, placed⟩ := List.getElem?_zip_eq_some.mp found
  have same : bucket = partition := by
    obtain ⟨_, rooted⟩ := List.getElem?_eq_some_iff.mp numbered
    simpa [roots] using rooted
  have slot := deals.slot_eq occupied (fun row member => by rw [fits]; exact together row member) placed
  split at slot
  · next here => exact ⟨same.symm.trans here, Option.some.inj slot⟩
  · cases slot

/-- A chunk that the input seats leaves nothing behind if it is not accepted. -/
theorem ends_addBuildChunk_spared
    {chunk : Chunk}
    (holds : input.Holds precise contents)
    (fits : chunk.schema = input.buildSchema)
    (seats : input.Seats chunk) :
    (addBuildChunk chunk).Ends input (fun _ _ => True)
      fun _ after => after.Holds precise contents ∧ after.outline = input.outline := by
  obtain ⟨root, together, room⟩ := seats
  have start : input.Spared precise contents input.outline root chunk.logicalBytes := ⟨holds, rfl, room⟩
  rw [addBuildChunk, ends_bind]
  have checks : checkCancelled.Ends input (fun _ after => after = input) fun _ after => after = input :=
    keeps_checkCancelled input rfl
  refine checks.mono (fun _ between same => ?_) fun _ between same => ?_
  · subst same
    rw [ends_bind, ends_get, route, ends_bind, ends_ofExcept]
    refine ⟨fun parts split => ?_, fun _ _ => ⟨holds, rfl⟩⟩
    have distinct : ((between.roots.zip parts).map Prod.fst).Nodup := by
      have lengths : between.roots.length ≤ parts.length := by
        rw [(Directory.deals_of_split split).length_eq, roots, List.length_range]
        exact Nat.le_refl _
      rw [List.map_fst_zip lengths]
      exact List.nodup_range
    exact (ends_deal_spared start distinct fun partition part member =>
      eq_of_together together fits split member).mono (fun _ _ _ => trivial)
        fun _ _ spared => ⟨spared.holds, spared.outline_eq⟩
  · subst same
    exact ⟨holds, rfl⟩

end Partitioned

/-! ## Chunks that are offered -/

section Offered

variable {σ : Type}

/-- What becomes of a state to which chunks are offered, with the chunks that it accepted. One that it
does not accept meets a condition at the time. -/
inductive Offered
    (add : Chunk → Step σ Unit)
    (Meets : σ → Chunk → Prop)
    (start : σ) : List Chunk → σ → Prop
  | start : Offered add Meets start [] start
  | accepted
    {chunks : List Chunk}
    {chunk : Chunk}
    {before after : σ}
    (offered : Offered add Meets start chunks before)
    (adds : (add chunk).Succeeds before () after) :
    Offered add Meets start (chunks ++ [chunk]) after
  | refused
    {chunks : List Chunk}
    {chunk : Chunk}
    {before after : σ}
    {status : Status}
    (offered : Offered add Meets start chunks before)
    (fails : (add chunk).outcome before = (.error status, after))
    (meets : Meets before chunk) :
    Offered add Meets start chunks after

end Offered

namespace Join

variable {precise : Prop} {build probe : ProbeSide} {rows : List Row}

/-- The input seats what is left of the chunk without the rows that have no key. -/
def Seats
    (join : Join)
    (chunk : Chunk) : Prop :=
  ∀ kept, dropAbsentKeys chunk join.input.buildKey = .ok kept → join.input.Seats kept

/-- A build chunk that is refused leaves the join with the rows that it had. -/
theorem Building.ends_refused
    {join : Join}
    {chunk : Chunk}
    (building : join.Building precise build probe rows)
    (fits : chunk.schema = build.schema)
    (seats : join.Seats chunk) :
    (Join.addBuildChunk chunk).Ends join (fun _ _ => True)
      fun _ after => after.Building precise build probe rows := by
  rw [Join.addBuildChunk, ends_bind, ends_get]
  dsimp only
  split
  · exact building
  rw [ends_bind, ends_ofExcept]
  refine ⟨fun kept dropped => ?_, fun _ _ => building⟩
  have seated := seats kept dropped
  have adds : ∀ between : Join, between.input = join.input ∧ between.Building precise build probe rows →
      (onInput (Partitioned.addBuildChunk kept)).Ends between (fun _ _ => True)
        fun _ after => after.Building precise build probe rows := by
    rintro between ⟨same, building⟩
    rw [← same] at seated
    obtain ⟨held, contents, rooted, sublist, noProbe, matters⟩ := building.stored
    have schema : kept.schema = between.input.buildSchema :=
      (rows_of_dropAbsentKeys dropped).1.trans (fits.trans building.sides.buildSchema.symm)
    rw [ends_onInput]
    refine (Partitioned.ends_addBuildChunk_spared rooted.holds schema seated).mono
      (fun _ _ _ => trivial) fun _ input kept => ?_
    exact ⟨building.sides.transfer (Partitioned.side?_of_outline kept.2) rfl, building.tables, held,
      contents, rooted.transfer kept.2 kept.1 rooted.build, sublist, noProbe, matters⟩
  split
  · trivial
  split
  · exact adds join ⟨rfl, building⟩
  rw [ends_bind, ends_ofExcept]
  refine ⟨fun keys _ => ?_, fun _ _ => building⟩
  rw [ends_bind]
  refine (keeps_insertKeys_of (fun between filters kept => ?_) keys [] join.filters join
    (⟨rfl, building⟩ : join.input = join.input ∧ join.Building precise build probe rows)).mono
      (fun _ between kept => adds between kept) fun _ _ kept => kept.2
  exact ⟨kept.1, kept.2.sides.transfer rfl rfl, kept.2.tables, kept.2.stored⟩

/-- A join holds the rows of the chunks that it accepted. -/
theorem Building.offered
    {start filled : Join}
    {builds : List Chunk}
    (building : start.Building precise build probe [])
    (offered : Offered Join.addBuildChunk
      (fun join chunk => chunk.schema = build.schema ∧ join.Seats chunk) start builds filled)
    (suits : ∀ chunk ∈ builds, chunk.Suits precise build.schema) :
    filled.Building precise build probe (builds.flatMap Chunk.rows) := by
  induction offered with
  | start => exact building
  | @accepted chunks chunk _ _ _ adds inductionHypothesis =>
      rw [List.flatMap_append, List.flatMap_singleton]
      refine (inductionHypothesis fun other member => suits other ?_).addBuildChunk adds (suits chunk ?_)
      · exact List.mem_append_left _ member
      · exact List.mem_append_right _ (List.mem_singleton_self chunk)
  | refused _ fails seats inductionHypothesis =>
      exact ((inductionHypothesis suits).ends_refused seats.1 seats.2).of_fails fails

/-- Ends the build side, takes all chunks of the probe side, and yields the output. -/
def conclude (probes : List Chunk) : Step Join (List Chunk) := do
  let _ ← finishBuild
  let joined ← probes.mapM probeChunk
  let last ← finishProbe
  return joined.flatten ++ last

theorem Building.conclude
    {filled after : Join}
    {probes output : List Chunk}
    (building : filled.Building True build probe rows)
    (concludes : (conclude probes).Succeeds filled output after)
    (suits : ∀ chunk ∈ probes, chunk.Suits True probe.schema)
    (numbers : filled.input.Numbers rows) :
    (output.flatMap Chunk.rows).Perm
      (innerJoin build probe rows (probes.flatMap Chunk.rows)) := by
  simp only [Join.conclude, Step.succeeds_bind, Step.succeeds_pure] at concludes
  obtain ⟨_, _, ended, joined, _, probed, last, _, finished, rfl, _⟩ := concludes
  have probing := (building.finishBuild ended fun _ => numbers).probeChunks probed suits
  have whole := probing.finishProbe finished trivial
  rw [List.nil_append, List.nil_append, ← List.flatMap_append] at whole
  exact whole

end Join

namespace Aggregation

variable {precise : Prop} {side : ProbeSide} {aggregates : List Aggregate} {rows : List Row}

/-- A chunk that is refused leaves the aggregation with the rows that it had. -/
theorem Collecting.ends_refused
    {aggregation : Aggregation}
    {chunk : Chunk}
    (collecting : aggregation.Collecting precise side aggregates rows)
    (fits : chunk.schema = side.schema)
    (seats : aggregation.input.Seats chunk) :
    (Aggregation.addChunk chunk).Ends aggregation (fun _ _ => True)
      fun _ after => after.Collecting precise side aggregates rows := by
  obtain ⟨asks, contents, rooted⟩ := collecting
  rw [Aggregation.addChunk, ends_onInput]
  refine (Partitioned.ends_addBuildChunk_spared rooted.holds (fits.trans asks.buildSchema.symm)
    seats).mono (fun _ _ _ => trivial) fun _ input kept => ?_
  exact ⟨asks.transfer (Partitioned.side?_of_outline kept.2), contents,
    rooted.transfer kept.2 kept.1 rooted.build⟩

/-- An aggregation holds the rows of the chunks that it accepted. -/
theorem Collecting.offered
    {start filled : Aggregation}
    {chunks : List Chunk}
    (collecting : start.Collecting precise side aggregates [])
    (offered : Offered Aggregation.addChunk (fun aggregation chunk =>
      chunk.schema = side.schema ∧ aggregation.input.Seats chunk) start chunks filled)
    (suits : ∀ chunk ∈ chunks, chunk.Suits precise side.schema) :
    filled.Collecting precise side aggregates (chunks.flatMap Chunk.rows) := by
  induction offered with
  | start => exact collecting
  | @accepted chunks chunk _ _ _ adds inductionHypothesis =>
      rw [List.flatMap_append, List.flatMap_singleton]
      refine (inductionHypothesis fun other member => suits other ?_).addChunk adds (suits chunk ?_)
      · exact List.mem_append_left _ member
      · exact List.mem_append_right _ (List.mem_singleton_self chunk)
  | refused _ fails seats inductionHypothesis =>
      exact ((inductionHypothesis suits).ends_refused seats.1 seats.2).of_fails fails

end Aggregation

/-! ## Results -/

/-- Whichever chunks are refused on the way, as long as they spare the input, the results are those of
the chunks that were accepted. So a refused chunk that is offered anew counts once. -/
theorem counts_accepted_of_offered
    {area : SpillArea}
    (faithful : area.store.damage = []) :
    (∀ {params build probe specs ledger account new start builds filled probes output after},
        Join.make params build.schema build.key probe specs area ledger = .ok new →
        (Join.onInput (Partitioned.chargeWithin account)).Succeeds new () start →
        Offered Join.addBuildChunk (fun join chunk => chunk.schema = build.schema ∧ join.Seats chunk)
          start builds filled →
        (∀ chunk ∈ builds, chunk.schema = build.schema ∧ chunk.Numbered) →
        (∀ chunk ∈ probes, chunk.schema = probe.schema ∧ chunk.Numbered) →
        filled.input.Numbers (builds.flatMap Chunk.rows) →
        (Join.conclude probes).Succeeds filled output after →
        (output.flatMap Chunk.rows).Perm
          (innerJoin build probe (builds.flatMap Chunk.rows) (probes.flatMap Chunk.rows))) ∧
      ∀ {params} {side : ProbeSide} {aggregates ledger account new start chunks filled output after},
        Aggregation.make params side.schema side.key aggregates area ledger = .ok new →
        (Aggregation.onInput (Partitioned.chargeWithin account)).Succeeds new () start →
        Offered Aggregation.addChunk
          (fun aggregation chunk => chunk.schema = side.schema ∧ aggregation.input.Seats chunk)
          start chunks filled →
        (∀ chunk ∈ chunks, chunk.schema = side.schema ∧ chunk.Numbered) →
        (Aggregation.finish).Succeeds filled output after →
        (output.flatMap Chunk.values).Perm
          (grouped side aggregates (chunks.flatMap Chunk.rows)) := by
  constructor
  · intro _ _ _ _ _ _ _ _ _ _ _ _ _ made charged offered buildFits probeFits numbers
      concludes
    have start : Join.Building True .. := (Join.building_of_make made faithful).chargeWithin charged
    exact (start.offered offered fun chunk member => .of_and (buildFits chunk member)).conclude concludes
      (fun chunk member => .of_and (probeFits chunk member)) numbers
  · intro _ _ _ _ _ _ _ _ _ _ _ made charged offered fits finished
    have start : Aggregation.Collecting True .. :=
      (Aggregation.collecting_of_make made faithful).chargeWithin charged
    exact (start.offered offered fun chunk member => .of_and (fits chunk member)).finish finished

namespace Sparing.Sample

def side : ProbeSide :=
  ⟨[{ name := "k", type := .int64 }], "k"⟩

def one : Chunk :=
  ⟨side.schema, [[.int 1]], by decide⟩

def two : Chunk :=
  ⟨side.schema, [[.int 2]], by decide⟩

/-- A store that fails to write at its first call, and blocks of so many bytes. -/
def area (blockSize : Nat) : SpillArea where
  spiller := { blockSize }
  store := { outageAt := fun call => { writes := call = 0 } }

/-- A join that may keep one row. -/
def join : Join :=
  valueOf (Join.make ⟨2, 8, 3⟩ side.schema side.key side [] (area 100) {}) (by decide +kernel)

/-- The join that holds the row that it may keep. -/
def full : Join :=
  ((Join.addBuildChunk one).outcome join).2

/-- The join that failed to make room for another row. -/
def refusing : Join :=
  ((Join.addBuildChunk two).outcome full).2

/-- The join that has made room for it. -/
def filled : Join :=
  ((Join.addBuildChunk two).outcome refusing).2

theorem seats_two : full.Seats two := by
  intro kept dropped
  have whole : Join.dropAbsentKeys two full.input.buildKey = .ok two := by decide +kernel
  obtain rfl : two = kept := Except.ok.inj (whole.symm.trans dropped)
  exact ⟨1, by decide +kernel, by decide +kernel⟩

theorem offered : Offered Join.addBuildChunk
    (fun join chunk => chunk.schema = side.schema ∧ join.Seats chunk) join [one, two] filled := by
  have first : (Join.addBuildChunk one).Succeeds join () full :=
    Step.succeeds_of_isOk _ _ (by decide +kernel)
  have second : (Join.addBuildChunk two).outcome full =
      (.error (.storage "write spill block mem://b0.ipc failed: storage unavailable"), refusing) :=
    Prod.ext (by decide +kernel) rfl
  have third : (Join.addBuildChunk two).Succeeds refusing () filled :=
    Step.succeeds_of_isOk _ _ (by decide +kernel)
  exact ((Offered.start.accepted first).refused second ⟨rfl, seats_two⟩).accepted third

/-- A join that may keep no row, whose blocks are written with each row. -/
def tight : Join :=
  valueOf (Join.make ⟨2, 4, 3⟩ side.schema side.key side [] (area 1) {}) (by decide +kernel)

/-- The join that failed to write a row. -/
def stained : Join :=
  ((Join.addBuildChunk one).outcome tight).2

/-- The join that was given the row anew. -/
def stainedTwice : Join :=
  ((Join.addBuildChunk one).outcome stained).2

end Sparing.Sample

/-- A row that there was no room for at first counts once, as it was accepted once. -/
theorem counts_accepted_of_resubmitted :
    Join.make ⟨2, 8, 3⟩ Sparing.Sample.side.schema Sparing.Sample.side.key Sparing.Sample.side []
        (Sparing.Sample.area 100) {} = .ok Sparing.Sample.join ∧
      ∃ output after,
        (Join.conclude [Sparing.Sample.two]).Succeeds Sparing.Sample.filled output after ∧
          (output.flatMap Chunk.rows).Perm [[.int 2, .int 2]] := by
  have made : Join.make ⟨2, 8, 3⟩ Sparing.Sample.side.schema Sparing.Sample.side.key
      Sparing.Sample.side [] (Sparing.Sample.area 100) {} = .ok Sparing.Sample.join :=
    eq_ok_valueOf _ _
  have concludes := Step.succeeds_of_isOk (Join.conclude [Sparing.Sample.two]) Sparing.Sample.filled
    (by decide +kernel)
  have charged : (Join.onInput (Partitioned.chargeWithin none)).Succeeds Sparing.Sample.join ()
      Sparing.Sample.join := rfl
  have numbers : Sparing.Sample.filled.input.Numbers
      ([Sparing.Sample.one, Sparing.Sample.two].flatMap Chunk.rows) :=
    fun _ _ => Nat.le_trans (List.length_filter_le ..) (by decide)
  have joined := (counts_accepted_of_offered rfl).1 made charged Sparing.Sample.offered
    (List.forall_mem_cons.mpr ⟨⟨rfl, by decide⟩, List.forall_mem_singleton.mpr ⟨rfl, by decide⟩⟩)
    (List.forall_mem_singleton.mpr ⟨rfl, by decide⟩) numbers concludes
  exact ⟨made, _, _, concludes, joined⟩

/-- A row that was not written when it was appended is there already when it is given anew, and counts
twice. -/
theorem not_counts_accepted :
    (∃ status, (Join.addBuildChunk Sparing.Sample.one).outcome Sparing.Sample.tight =
        (.error status, Sparing.Sample.stained) ∧ status.code = .storage) ∧
      (Join.addBuildChunk Sparing.Sample.one).Succeeds Sparing.Sample.stained ()
        Sparing.Sample.stainedTwice ∧
      ∃ output after,
        (Join.conclude [Sparing.Sample.one]).Succeeds Sparing.Sample.stainedTwice output after ∧
          output.flatMap Chunk.rows = [[.int 1, .int 1], [.int 1, .int 1]] := by
  have refused : (Join.addBuildChunk Sparing.Sample.one).outcome Sparing.Sample.tight =
      (.error (.storage "write spill block mem://b0.ipc failed: storage unavailable"),
        Sparing.Sample.stained) :=
    Prod.ext (by decide +kernel) rfl
  have accepted : (Join.addBuildChunk Sparing.Sample.one).Succeeds Sparing.Sample.stained ()
      Sparing.Sample.stainedTwice :=
    Step.succeeds_of_isOk _ _ (by decide +kernel)
  have concludes := Step.succeeds_of_isOk (Join.conclude [Sparing.Sample.one])
    Sparing.Sample.stainedTwice (by decide +kernel)
  exact ⟨⟨_, refused, rfl⟩, accepted, _, _, concludes, by decide +kernel⟩

end Spillway
