import Spillway.Proofs.Operator.Given
import Spillway.Proofs.Operator.HotKey

/-!
# Joins of one build key

If all build rows have the same key, what becomes of a join is decided by the bytes of its build chunks. If
they are within the memory limit, the probe side is ended without any split. If they are not, one root is
hot, and after a split on every level above the depth limit nothing is left to be tried. Chunks without rows
are not stored, so their bytes do not count.
-/

namespace Spillway

open Step

namespace Join

variable {build probe : ProbeSide} {key : Key} {chunks builds probes : List Chunk} {others : Nat → Nat}
  {hot level partition : Nat} {stack rest : List Nat} {join before after start : Join}
  {record : PartitionRecord} {given : Option (List Chunk)}

/-! ## Chunks that are given -/

theorem total_length_filter (chunks : List Chunk) :
    total Chunk.length (chunks.filter fun chunk => !chunk.isEmpty) = total Chunk.length chunks := by
  induction chunks with
  | nil => rfl
  | cons chunk chunks inductionHypothesis =>
      cases empty : chunk.isEmpty with
      | false => rw [List.filter_cons_of_pos (by simp [empty]), total_cons, total_cons, inductionHypothesis]
      | true =>
          have none : chunk.length = 0 := by
            rw [Chunk.length, List.isEmpty_iff.mp empty]
            rfl
          rw [List.filter_cons_of_neg (by simp [empty]), total_cons, none, Nat.zero_add,
            inductionHypothesis]

theorem exists_row_of_several (several : 1 < total Chunk.length chunks) :
    ∃ chunk ∈ chunks, ∃ row, row ∈ chunk.rows := by
  by_contra none
  have empty : total Chunk.length chunks = 0 := total_eq_zero fun chunk member => by
    by_contra some
    exact none ⟨chunk, member, List.exists_mem_of_length_pos (Nat.pos_of_ne_zero some)⟩
  omega

/-- All chunks that are given have the schemas of their sides. -/
theorem Given.fits (run : Given build probe others builds given join) :
    (∀ chunk ∈ builds, chunk.schema = build.schema) ∧
      ∀ chunk ∈ given.getD [], chunk.schema = probe.schema := by
  induction run with
  | new => simp
  | addBuildChunk _ fits _ inductionHypothesis =>
      refine ⟨fun chunk member => ?_, inductionHypothesis.2⟩
      obtain old | new := List.mem_append.mp member
      · exact inductionHypothesis.1 chunk old
      · exact List.mem_singleton.mp new ▸ fits
  | finishBuild _ inductionHypothesis => exact ⟨inductionHypothesis.1, by simp⟩
  | probeChunk _ fits _ inductionHypothesis =>
      refine ⟨inductionHypothesis.1, fun chunk member => ?_⟩
      obtain old | new := List.mem_append.mp member
      · exact inductionHypothesis.2 chunk old
      · exact List.mem_singleton.mp new ▸ fits
  | surroundings _ _ _ inductionHypothesis => exact inductionHypothesis
  | elsewhere _ _ inductionHypothesis => exact inductionHypothesis

theorem keyed_of_mem
    {side : ProbeSide}
    (fits : ∀ chunk ∈ chunks, chunk.schema = side.schema)
    (present : ∃ chunk ∈ chunks, ∃ row ∈ chunk.rows, side.keyOf row = some key) :
    side.Keyed := by
  obtain ⟨chunk, member, row, inside, keyOf⟩ := present
  exact .of_keyOf (fits chunk member ▸ chunk.fits row inside) keyOf

/-! ## The start of a hot root -/

section Loaded

variable (loaded : Loaded build probe key hot others builds probes join)
include loaded

theorem Loaded.bounded : hot < join.input.params.partitionCount :=
  loaded.bucket ▸ Directory.bucketOfKey_lt _ _

/-- All that is in memory is within the limit. -/
theorem Loaded.heldBytes_le (frugal : join.input.Frugal) :
    join.input.heldBytes ≤ join.input.params.memLimit :=
  Nat.le_trans loaded.backed.books.backed frugal.used

/-- Only what is in memory has a table. -/
theorem Loaded.untabled
    (found : join.input.arena.records[hot]? = some record)
    (spilled : record.build.spilled = true) :
    hot ∉ join.tables.map Prod.fst := by
  intro member
  obtain ⟨entry, tabled, rfl⟩ := List.mem_map.mp member
  have inMemory := loaded.furnished.loaded entry tabled _ (Arena.part?_build found)
  rw [spilled] at inMemory
  cases inMemory

/-- No other root has build rows. -/
theorem Loaded.cold
    {contents : Contents}
    (rooted : join.input.Rooted True (builds.flatMap Chunk.rows) contents)
    (single : ∀ chunk ∈ builds, ∀ row ∈ chunk.rows, build.keyOf row = some key)
    {other : Nat}
    (different : other ≠ hot) :
    contents (.build, other) = [] := by
  cases part : join.input.arena.part? (.build, other) with
  | none => exact rooted.holds.absent _ part
  | some side =>
      obtain ⟨record, there, -⟩ := Option.bind_eq_some_iff.mp part
      have bounded : other < join.input.params.partitionCount :=
        rooted.size ▸ (Array.getElem?_eq_some_iff.mp there).1
      rw [rooted.build trivial other bounded, List.filter_eq_nil_iff]
      intro row member here
      obtain ⟨chunk, inside, member⟩ := List.mem_flatMap.mp member
      have there := of_decide_eq_true here
      rw [Partitioned.bucketOf_of_side? loaded.sides.buildSide, single chunk inside row member,
        loaded.bucket] at there
      exact different there.symm

/-- The probe rows of the key and the build rows belong to the same root. -/
theorem Loaded.joined
    {contents : Contents}
    (rooted : join.input.Rooted True (builds.flatMap Chunk.rows) contents)
    (single : ∀ chunk ∈ builds, ∀ row ∈ chunk.rows, build.keyOf row = some key)
    (several : 1 < total Chunk.length builds)
    (probed : ∃ chunk ∈ probes, ∃ row ∈ chunk.rows, probe.keyOf row = some key) :
    innerJoin build probe (contents (.build, hot))
      ((probes.flatMap Chunk.rows).filter fun row => join.input.bucketOf .probe 0 row = hot) ≠ [] := by
  obtain ⟨chunk, member, row, inside, keyOf⟩ := probed
  obtain ⟨full, listed, other, present⟩ := exists_row_of_several several
  have hotRow : (join.input.directory 0).bucketOfKey (build.keyOf other) = hot := by
    rw [single full listed other present, loaded.bucket]
  rw [innerJoin_ne_nil_iff, rooted.build trivial hot loaded.bounded]
  refine ⟨row, List.mem_filter.mpr ⟨List.mem_flatMap.mpr ⟨chunk, member, inside⟩, decide_eq_true ?_⟩,
    other, List.mem_filter.mpr ⟨List.mem_flatMap.mpr ⟨full, listed, present⟩, decide_eq_true ?_⟩,
    by simp [keyOf], ?_⟩
  · rw [Partitioned.bucketOf_of_side? loaded.sides.probeSide, keyOf, loaded.bucket]
  · rw [Partitioned.bucketOf_of_side? loaded.sides.buildSide, hotRow]
  · rw [single full listed other present, keyOf]

/-- A root that is larger than the limit is hot when the probe side ends. -/
theorem Loaded.heated
    (frugal : join.input.Frugal)
    (single : ∀ chunk ∈ builds, ∀ row ∈ chunk.rows, build.keyOf row = some key)
    (several : 1 < total Chunk.length builds)
    (large : join.input.params.memLimit <
      total Chunk.logicalBytes (builds.filter fun chunk => !chunk.isEmpty))
    (probed : ∃ chunk ∈ probes, ∃ row ∈ chunk.rows, probe.keyOf row = some key) :
    join.input.Heated build probe key (builds.filter fun chunk => !chunk.isEmpty) hot 0
      join.input.roots := by
  obtain ⟨contents, rooted, -, owed⟩ := loaded.stored
  obtain ⟨record, found, lists⟩ := loaded.tracks.exists_record
  have held := Nat.lt_of_le_of_lt (loaded.heldBytes_le frugal) large
  have spilled := loaded.tracks.spilled_of_large found held
  have untabled : join.tables.lookup hot = none := by
    refine List.lookup_eq_none_iff.mpr fun entry tabled => bne_iff_ne.mpr fun same => ?_
    exact loaded.untabled found spilled (List.mem_map.mpr ⟨entry, tabled, same.symm⟩)
  have places : ∀ (root : Nat) (record : PartitionRecord), join.input.arena.records[root]? = some record →
      record.level = 0 := by
    intro root record found
    have bounded : root < join.input.params.partitionCount :=
      rooted.size ▸ (Array.getElem?_eq_some_iff.mp found).1
    have place := rooted.place root bounded
    rw [Arena.place?_of_record found, Option.some.injEq] at place
    exact congrArg PartitionPlace.level place
  have warm : join.input.Warm build probe key (builds.filter fun chunk => !chunk.isEmpty) hot contents := by
    refine ⟨rooted.holds, loaded.tracks, ?_⟩
    have joined : innerJoin build probe (contents (.build, hot)) (contents (.probe, hot)) ≠ [] := by
      rw [show innerJoin build probe _ _ = _ from owed untabled]
      exact loaded.joined rooted single several probed
    obtain ⟨row, member, other, inside, -, same⟩ := innerJoin_ne_nil_iff.mp joined
    have keyOf := loaded.tracks.keyOf rooted.holds
      (fun chunk listed => single chunk (List.mem_of_mem_filter listed)) other inside
    exact ⟨row, member, same.symm.trans keyOf⟩
  exact
    { warm := ⟨contents, warm, fun other _ different => loaded.cold rooted single different⟩
      waits := List.mem_range.mpr loaded.bounded
      large
      stored := ⟨record, found, spilled, places hot record found⟩
      size := by rw [rooted.size, Nat.zero_add, Nat.mul_one]
      splits := loaded.unsplit
      deepest := fun root record found => Nat.le_of_eq (places root record found) }

end Loaded

/-! ## Turns -/

theorem heated_of_completeTables
    {partitions : List Nat}
    {value : Unit}
    (succeeds : (completeTables partitions).Succeeds before value after)
    (heated : before.input.Heated build probe key chunks hot level stack)
    (apart : hot ∉ partitions) :
    after.input.Heated build probe key chunks hot level stack := by
  induction partitions generalizing before with
  | nil =>
      rw [completeTables, succeeds_pure] at succeeds
      exact succeeds.2 ▸ heated
  | cons partition partitions inductionHypothesis =>
      rw [List.mem_cons, not_or] at apart
      simp only [completeTables, succeeds_bind, succeeds_modify, succeeds_onInput_iff] at succeeds
      obtain ⟨_, _, rfl, _, _, ⟨input, completed, rfl⟩, succeeds⟩ := succeeds
      exact inductionHypothesis succeeds (heated.complete completed (Ne.symm apart.1)) apart.2

/-- However many turns are taken, one partition is hot. -/
theorem Steady.heated_of_turns
    {config next : WorkStack Join}
    (steady : Steady build probe others config.stack config.state)
    (heated : config.state.input.Heated build probe key chunks hot level config.stack)
    (keyed : build.Keyed)
    (single : ∀ chunk ∈ chunks, ∀ row ∈ chunk.rows, build.keyOf row = some key)
    (several : 1 < total Chunk.length chunks)
    (turns : Turns visit config next) :
    ∃ hot level, next.state.input.Heated build probe key chunks hot level next.stack := by
  induction turns with
  | refl => exact ⟨hot, level, heated⟩
  | tail turns turn inductionHypothesis =>
      obtain ⟨_, _, here⟩ := inductionHypothesis
      cases turn with
      | visit succeeds => exact (steady.turns turns).heated_of_visit here keyed single several succeeds

/-- No partition that is to be visited is too large, and none was split. -/
structure Calm (stack : List Nat) (input : Partitioned) : Prop where
  small : ∀ partition ∈ stack, ∀ record, input.arena.records[partition]? = some record →
    ¬ record.Oversized input.params.memLimit
  unsplit : input.repartitions = 0

/-- Where no partition is too large, a visit that is met splits none. -/
theorem Steady.calm_of_visit
    {result : Visit Chunk}
    (steady : Steady build probe others (partition :: rest) join)
    (calm : Calm (partition :: rest) join.input)
    (succeeds : (visit partition).Succeeds join result after) :
    Calm (result.left ++ rest) after.input := by
  obtain ⟨record, found⟩ := Arena.exists_record_of_lt (steady.known partition List.mem_cons_self)
  have ends := (steady.ends_visit found).of_succeeds succeeds
  have params := ((evolves_visit partition join).of_succeeds succeeds).1.params_eq
  have visited := visited_of_succeeds succeeds found
  cases result with
  | split order => exact absurd ends.2.2.1 (calm.small partition List.mem_cons_self record found)
  | done output =>
      have spares : ∀ other, other ≠ partition →
          after.input.arena.records[other]? = join.input.arena.records[other]? := visited.spares_of_done
      refine ⟨fun other member another there => ?_, visited.repartitions_of_done.trans calm.unsplit⟩
      have apart : other ≠ partition := fun same => (List.nodup_cons.mp steady.distinct).1 (same ▸ member)
      rw [params]
      exact calm.small other (List.mem_cons_of_mem _ member) another ((spares other apart).symm.trans there)

theorem Steady.calm_of_turns
    {config next : WorkStack Join}
    (steady : Steady build probe others config.stack config.state)
    (calm : Calm config.stack config.state.input)
    (turns : Turns visit config next) :
    Calm next.stack next.state.input := by
  induction turns with
  | refl => exact calm
  | tail turns turn inductionHypothesis =>
      cases turn with
      | visit succeeds => exact (steady.turns turns).calm_of_visit inductionHypothesis succeeds

/-! ## The end of the probe side -/

/-- The end of the probe side fails on the last level, after one split on every level above it. -/
def StopsAtLimit (join : Join) : Prop :=
  ∃ status after, finishProbe.outcome join = (.error status, after) ∧
    status.code = .resourceLimitExceeded ∧
    after.input.stats.maxLevel = join.input.params.maxDepth - 1 ∧
    after.input.stats.repartitions = join.input.params.maxDepth - 1 ∧
    after.input.stats.created = join.input.params.partitionCount * join.input.params.maxDepth

/-- The probe side ends without any split. -/
def EndsUnsplit (join : Join) : Prop :=
  ∃ output after, finishProbe.outcome join = (.ok output, after) ∧ after.input.stats.repartitions = 0

/-- The bytes of the build rows decide how the probe side ends. -/
structure EndsByBytes (bytes : Nat) (join : Join) : Prop where
  beyond : join.input.params.memLimit < bytes → join.StopsAtLimit
  within : bytes ≤ join.input.params.memLimit → join.EndsUnsplit

section Started

variable (started : join.Started start) (fed : Fed build probe others join) (probing : join.phase = .probe)
include started

/-- Roots that are not larger than the limit are left alone. -/
theorem Started.calm
    (loaded : Loaded build probe key hot others builds probes join)
    (single : ∀ chunk ∈ builds, ∀ row ∈ chunk.rows, build.keyOf row = some key)
    (within : total Chunk.logicalBytes (builds.filter fun chunk => !chunk.isEmpty) ≤
      join.input.params.memLimit) :
    Calm join.input.roots start.input := by
  have params := ((ends_completeTables _ join).of_succeeds started.succeeds).1.params_eq
  refine ⟨fun partition _ record found oversized => ?_, ?_⟩
  · have divisible := oversized.divisible
    obtain done | ⟨-, was⟩ := started.cases found
    · rw [done.build] at divisible
      cases divisible
    by_cases same : partition = hot
    · subst same
      have large := oversized.large
      rw [params, (loaded.tracks.of_record was).size] at large
      exact absurd within (Nat.not_le_of_lt large)
    · obtain ⟨contents, rooted, -⟩ := loaded.stored
      have empty := (rooted.holds.isEmpty_iff was).mpr (loaded.cold rooted single same)
      rw [of_decide_eq_true empty] at divisible
      cases divisible
  · have unsplit : start.input.repartitions = join.input.repartitions :=
      (follows_completeTables (fun _ => Partitioned.splitsNone_complete) _ join).of_succeeds
        started.succeeds
    exact unsplit.trans loaded.unsplit

include fed probing

/-- If no root is too large, the request is met without any split. -/
theorem Started.finishes_of_calm
    (calm : Calm join.input.roots start.input) :
    join.EndsUnsplit := by
  have steady := started.steady fed probing
  have ends := started.ends_finishProbe fed probing
  rw [Ends] at ends
  cases outcome : finishProbe.outcome join with
  | mk result after =>
      rw [outcome] at ends
      cases result with
      | ok output =>
          obtain ⟨last, turns, same⟩ := ends
          have still : last.input.repartitions = 0 := (steady.calm_of_turns calm turns).unsplit
          exact ⟨output, after, outcome, (congrArg Partitioned.repartitions same).trans still⟩
      | error status =>
          obtain ⟨partition, rest, before, turns, failed⟩ := ends
          have here : Steady build probe others (partition :: rest) before := steady.turns turns
          obtain ⟨record, found⟩ := Arena.exists_record_of_lt (here.known partition List.mem_cons_self)
          have small := (steady.calm_of_turns calm turns).small partition List.mem_cons_self record found
          exact absurd ((here.ends_visit found).of_fails failed).1 small

/-- If a root is hot, the request fails when the last level is reached, with one split on every level
above. -/
theorem Started.fails_of_heated
    (heated : start.input.Heated build probe key chunks hot level join.input.roots)
    (keyed : build.Keyed)
    (single : ∀ chunk ∈ chunks, ∀ row ∈ chunk.rows, build.keyOf row = some key)
    (several : 1 < total Chunk.length chunks)
    (room : join.input.params.partitionCount * join.input.params.maxDepth < Arena.capacity) :
    join.StopsAtLimit := by
  have steady := started.steady fed probing
  have ends := started.ends_finishProbe fed probing
  rw [Ends] at ends
  cases outcome : finishProbe.outcome join with
  | mk result after =>
      rw [outcome] at ends
      cases result with
      | ok output =>
          obtain ⟨last, turns, -⟩ := ends
          obtain ⟨_, _, here⟩ := steady.heated_of_turns heated keyed single several turns
          cases here.waits
      | error status =>
          obtain ⟨partition, rest, before, turns, failed⟩ := ends
          obtain ⟨hot, level, here⟩ := steady.heated_of_turns heated keyed single several turns
          have here : before.input.Heated build probe key chunks hot level (partition :: rest) := here
          have between : Steady build probe others (partition :: rest) before := steady.turns turns
          have params : before.input.params = join.input.params :=
            (evolves_of_turns turns).params_eq.trans
              ((ends_completeTables _ join).of_succeeds started.succeeds).1.params_eq
          obtain ⟨record, found⟩ := Arena.exists_record_of_lt (between.known partition List.mem_cons_self)
          obtain ⟨oversized, decided⟩ := (between.ends_visit found).of_fails failed
          obtain rfl := here.eq_hot found List.mem_cons_self oversized
          obtain ⟨_, there, -, rfl⟩ := here.stored
          obtain rfl := Option.some.inj (found.symm.trans there)
          obtain ⟨deepest, code, rfl⟩ | ⟨shallow, overflows⟩ := decided
          · obtain ⟨maxLevel, splits, created⟩ := here.stats_eq
            rw [deepest, params] at created
            rw [params] at deepest
            have level := Nat.eq_sub_of_add_eq deepest
            exact ⟨status, _, outcome, code, maxLevel.trans level, splits.trans level, created⟩
          · -- There is room for one more level.
            have full := Nat.lt_of_le_of_lt overflows.full overflows.short
            have more := Nat.mul_le_mul_left before.input.params.partitionCount shallow
            rw [Nat.mul_succ, ← here.size, params] at more
            rw [params] at full
            exact absurd (Nat.lt_of_lt_of_le full more) (Nat.not_lt_of_lt room)

end Started

/-- A join all of whose build rows have one key ends by the bytes of the build chunks that have rows,
whatever the chunks are and whatever was spilled before. -/
theorem endsByBytes_of_given
    (run : Given build probe others builds (some probes) join)
    (single : ∀ chunk ∈ builds, ∀ row ∈ chunk.rows, build.keyOf row = some key)
    (several : 2 ≤ total Chunk.length builds)
    (probed : ∃ chunk ∈ probes, ∃ row ∈ chunk.rows, probe.keyOf row = some key)
    (room : join.input.params.partitionCount * join.input.params.maxDepth < Arena.capacity) :
    join.EndsByBytes (total Chunk.logicalBytes (builds.filter fun chunk => !chunk.isEmpty)) := by
  obtain ⟨buildFits, probeFits⟩ := run.fits
  obtain ⟨full, listed, row, present⟩ := exists_row_of_several several
  have buildKeyed := keyed_of_mem buildFits ⟨full, listed, row, present, single full listed row present⟩
  have probeKeyed := keyed_of_mem probeFits probed
  obtain ⟨hot, loaded⟩ := run.stands buildKeyed probeKeyed single
  obtain ⟨_, asked⟩ := run.asked
  have fed := loaded.fed
  obtain ⟨start, started⟩ := (fed.takesProbe loaded.phase).covered.exists_started
  refine ⟨fun beyond => ?_, fun within =>
    started.finishes_of_calm fed loaded.phase (started.calm loaded single within)⟩
  have heated := loaded.heated asked.frugal single several beyond probed
  obtain ⟨_, found, spilled, -⟩ := heated.stored
  refine started.fails_of_heated fed loaded.phase
    (heated_of_completeTables started.succeeds heated (loaded.untabled found spilled)) buildKeyed
    (fun chunk member => single chunk (List.mem_of_mem_filter member)) ?_ room
  rw [total_length_filter]
  exact several

/-- Two build rows of one key that are too large make one split and fail below it. -/
theorem endsByBytes_stuck :
    Given Sample.buildSide Sample.buildSide ({} : Ledger).used [Operator.Sample.pair]
        (some [Operator.Sample.pair]) Sample.stuck ∧
      (∀ chunk ∈ [Operator.Sample.pair], ∀ row ∈ chunk.rows,
        Sample.buildSide.keyOf row = some (.int 1)) ∧
      2 ≤ total Chunk.length [Operator.Sample.pair] ∧
      (∃ chunk ∈ [Operator.Sample.pair], ∃ row ∈ chunk.rows,
        Sample.buildSide.keyOf row = some (.int 1)) ∧
      Sample.stuck.input.params.partitionCount * Sample.stuck.input.params.maxDepth < Arena.capacity ∧
      Sample.stuck.input.params.memLimit = 8 ∧
      Sample.stuck.EndsByBytes 16 := by
  have narrow : Given Sample.buildSide Sample.buildSide ({} : Ledger).used [] none Sample.narrow :=
    .new (eq_ok_valueOf _ _) ⟨rfl, fun _ => rfl, fun _ _ => rfl⟩
  have stuck : Given Sample.buildSide Sample.buildSide ({} : Ledger).used [Operator.Sample.pair]
      (some [Operator.Sample.pair]) Sample.stuck :=
    (narrow.addBuildChunk rfl (by decide)).finishBuild.probeChunk rfl (by decide)
  have single : ∀ chunk ∈ [Operator.Sample.pair], ∀ row ∈ chunk.rows,
      Sample.buildSide.keyOf row = some (.int 1) := by decide
  have several : 2 ≤ total Chunk.length [Operator.Sample.pair] := by decide
  have probed : ∃ chunk ∈ [Operator.Sample.pair], ∃ row ∈ chunk.rows,
      Sample.buildSide.keyOf row = some (.int 1) := by decide
  have room : Sample.stuck.input.params.partitionCount * Sample.stuck.input.params.maxDepth <
        Arena.capacity ∧
      Sample.stuck.input.params.memLimit = 8 := by
    decide +kernel
  exact ⟨stuck, single, several, probed, room.1, room.2,
    endsByBytes_of_given stuck single several probed room.1⟩

end Join

namespace Join.Sample

/-- Rows with a label. -/
def labelled : ProbeSide :=
  ⟨[{ name := "k", type := .int64 }, { name := "v", type := .utf8 }], "k"⟩

/-- Two rows of one key, which have thirty bytes. -/
def labels : Chunk :=
  ⟨labelled.schema, [[.int 7, .text "a"], [.int 7, .text "b"]], by decide⟩

/-- No rows, which have four bytes: where the labels begin. -/
def blank : Chunk :=
  ⟨labelled.schema, [], by decide⟩

/-- A join with room for the rows. -/
def fitting : Join :=
  valueOf (make ⟨2, 30, 2⟩ labelled.schema labelled.key Operator.Sample.probe [] {} {}) (by decide +kernel)

/-- The join after the rows and no rows were accepted, and a probe row. -/
def fitted : Join :=
  ((Request.probeChunk Operator.Sample.chunk).step.outcome (Request.finishBuild.step.outcome
    ((Request.addBuildChunk blank).step.outcome ((Request.addBuildChunk labels).step.outcome
      fitting).2).2).2).2

end Join.Sample

namespace Join

/-- The bytes of a chunk without rows do not count, so all bytes may be beyond the limit and the probe side
ends nevertheless. -/
theorem not_endsByBytes_fitted :
    Given Sample.labelled Operator.Sample.probe ({} : Ledger).used [Sample.labels, Sample.blank]
        (some [Operator.Sample.chunk]) Sample.fitted ∧
      (∀ chunk ∈ [Sample.labels, Sample.blank], ∀ row ∈ chunk.rows,
        Sample.labelled.keyOf row = some (.int 7)) ∧
      2 ≤ total Chunk.length [Sample.labels, Sample.blank] ∧
      (∃ chunk ∈ [Operator.Sample.chunk], ∃ row ∈ chunk.rows,
        Operator.Sample.probe.keyOf row = some (.int 7)) ∧
      Sample.fitted.input.params.partitionCount * Sample.fitted.input.params.maxDepth < Arena.capacity ∧
      ¬ Sample.fitted.EndsByBytes (total Chunk.logicalBytes [Sample.labels, Sample.blank]) := by
  have fitting : Given Sample.labelled Operator.Sample.probe ({} : Ledger).used [] none Sample.fitting :=
    .new (eq_ok_valueOf _ _) ⟨rfl, fun _ => rfl, fun _ _ => rfl⟩
  have fitted : Given Sample.labelled Operator.Sample.probe ({} : Ledger).used
      [Sample.labels, Sample.blank] (some [Operator.Sample.chunk]) Sample.fitted :=
    ((fitting.addBuildChunk rfl (by decide)).addBuildChunk rfl (by decide)).finishBuild.probeChunk rfl
      (by decide)
  have ends : Sample.fitted.input.params.partitionCount * Sample.fitted.input.params.maxDepth <
        Arena.capacity ∧
      Sample.fitted.input.params.memLimit < total Chunk.logicalBytes [Sample.labels, Sample.blank] ∧
      (finishProbe.outcome Sample.fitted).1.isOk = true := by
    decide +kernel
  obtain ⟨room, beyond, finishes⟩ := ends
  refine ⟨fitted, by decide, by decide, by decide, room, fun ends => ?_⟩
  obtain ⟨status, after, fails, -⟩ := ends.beyond beyond
  rw [fails] at finishes
  cases finishes

end Join
end Spillway
