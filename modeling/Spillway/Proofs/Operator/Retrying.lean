import Mathlib.Data.List.Perm.Basic
import Spillway.Proofs.Operator.Join
import Spillway.Proofs.Operator.Requests
import Spillway.Proofs.Operator.Sparing

/-!
# Ends of a join that are tried again

An end of the probe side that fails leaves the join in its phase, so it can be tried again. Partitions
that it has closed by then stay closed, and the rows that it has joined are gone with it. As long as no
partition was split, the open ones are as they were. So an end that succeeds at last yields what the open
roots owe, and leaves out what the others owed when it was tried for the first time.
-/

namespace Spillway

open Step

variable {precise : Prop} {partition : Nat} {α : Type}

namespace Partitioned

/-- Partitions were closed. Those that are open are where they were and hold what they held. -/
structure Closes
    (precise : Prop)
    (before after : Partitioned)
    (contents left : Contents) : Prop where
  params : after.params = before.params
  side? : after.side? = before.side?
  size : after.arena.size = before.arena.size
  holds : after.Holds precise left
  loadable : contents.Loadable precise → left.Loadable precise
  opened : ∀ partition place, after.arena.place? partition = some place → place.state = .opened →
    before.arena.place? partition = some place ∧
      ∀ side, left (side, partition) = contents (side, partition)

section Closes

variable {before between after : Partitioned} {contents kept left : Contents}

theorem Closes.trans
    (one : before.Closes precise between contents kept)
    (another : between.Closes precise after kept left) :
    before.Closes precise after contents left where
  params := another.params.trans one.params
  side? := another.side?.trans one.side?
  size := another.size.trans one.size
  holds := another.holds
  loadable := another.loadable ∘ one.loadable
  opened := by
    intro partition place found accepts
    obtain ⟨there, same⟩ := another.opened partition place found accepts
    obtain ⟨first, still⟩ := one.opened partition place there accepts
    exact ⟨first, fun side => (same side).trans (still side)⟩

theorem Closes.of_quiet
    (quiet : before.Quiet after)
    (holds : before.Holds precise contents) :
    before.Closes precise after contents contents where
  params := params_of_outline quiet.outline
  side? := side?_of_outline quiet.outline
  size := size_of_outline quiet.outline
  holds := quiet.holds holds
  loadable := id
  opened := by
    rw [place?_of_outline quiet.outline]
    exact fun _ _ found _ => ⟨found, fun _ => rfl⟩

theorem Closes.of_settles
    (settles : before.Settles precise after partition contents left) :
    before.Closes precise after contents left where
  params := settles.params
  side? := settles.side?
  size := settles.size
  holds := settles.holds
  loadable := settles.loadable
  opened := by
    intro other place found accepts
    by_cases here : other = partition
    · subst here
      exact absurd accepts (settles.closed place found)
    · rw [settles.places other here] at found
      exact ⟨found, fun side => settles.others side other here⟩

theorem Closes.of_mark
    {state : PartitionState}
    (outline : after.outline = before.outline.mark partition state)
    (closed : state ≠ .opened)
    (holds : after.Holds precise contents) :
    before.Closes precise after contents contents where
  params := congrArg Outline.params outline
  side? := congrArg Outline.side? outline
  size := congrArg Outline.size outline
  holds := holds
  loadable := id
  opened := by
    intro other place found accepts
    have places : after.arena.place? other = _ := congrFun (congrArg Outline.place? outline) other
    rw [places] at found
    by_cases here : other = partition
    · simp only [Outline.mark, if_pos here, Option.map_eq_some_iff] at found
      obtain ⟨_, _, rfl⟩ := found
      exact absurd accepts closed
    · simp only [Outline.mark, if_neg here] at found
      exact ⟨found, fun _ => rfl⟩

/-- Only open partitions have anything due, and these hold what they held. -/
theorem Closes.due_eq
    {ρ : Type}
    (closes : before.Closes precise after contents left)
    (function : List Row → List Row → List ρ) :
    after.due function left = after.due function contents := by
  funext partition
  rw [due, due]
  split
  · next opened =>
    obtain ⟨place, found, accepts⟩ := (Option.any_eq_true _ _).mp opened
    obtain ⟨-, same⟩ := closes.opened partition place found (of_decide_eq_true accepts)
    rw [same, same]
  · rfl

end Closes

/-- Partitions were closed, unless some were added. -/
structure Wanes (before after : Partitioned) : Prop where
  grows : before.arena.size ≤ after.arena.size
  closes : after.arena.size = before.arena.size →
    ∀ {precise : Prop} contents, before.Holds precise contents →
      ∃ left, before.Closes precise after contents left

theorem Wanes.of_quiet
    {before after : Partitioned}
    (quiet : before.Quiet after) :
    before.Wanes after :=
  ⟨Nat.le_of_eq (size_of_outline quiet.outline).symm, fun _ _ _ holds => ⟨_, .of_quiet quiet holds⟩⟩

theorem Wanes.refl (input : Partitioned) : input.Wanes input :=
  .of_quiet (.refl input)

theorem Wanes.trans
    {first second third : Partitioned}
    (one : first.Wanes second)
    (another : second.Wanes third) :
    first.Wanes third := by
  refine ⟨Nat.le_trans one.grows another.grows, fun same _ contents holds => ?_⟩
  have middle : second.arena.size = first.arena.size :=
    Nat.le_antisymm (same ▸ another.grows) one.grows
  obtain ⟨kept, closes⟩ := one.closes middle contents holds
  obtain ⟨left, more⟩ := another.closes (same.trans middle.symm) kept closes.holds
  exact ⟨left, closes.trans more⟩

instance : Composes fun _ : Bool => Wanes where
  refl _ := Wanes.refl
  trans := Wanes.trans

theorem wanes_of_quiet
    {step : Step Partitioned α}
    (quiet : step.Follows fun _ => Quiet) :
    step.Follows fun _ => Wanes :=
  quiet.mono fun _ _ _ => .of_quiet

/-- Moving a partition to another state closes it. -/
theorem wanes_setState
    {state : PartitionState}
    (closed : state ≠ .opened) :
    (setState partition state).Follows fun _ => Wanes := by
  refine follows_modify fun input => ⟨Nat.le_of_eq (Arena.size_modify _ _ _).symm, ?_⟩
  intro _ _ contents holds
  have set : (setState partition state).Succeeds input () _ := rfl
  obtain ⟨held, outline, _⟩ := succeeds_setState set holds
  exact ⟨contents, .of_mark outline closed held⟩

/-- Completing a partition closes it, and nothing happens where there is none. -/
theorem wanes_complete : (complete partition).Follows fun _ => Wanes := by
  intro input
  refine (ends_complete input).and_succeeds.mono (fun _ after completed => ?_)
    fun _ _ stuck => stuck.1 ▸ Wanes.refl _
  refine ⟨Nat.le_of_eq completed.2.size.symm, fun _ _ contents holds => ?_⟩
  obtain ⟨left, settles⟩ := succeeds_complete completed.1 holds
  exact ⟨left, .of_settles settles⟩

/-- A partition that is loaded is closed, whether it could be read or not. -/
theorem wanes_loadBuild : (loadBuild partition).Follows fun _ => Wanes := by
  refine (wanes_setState (by decide)).bind fun _ => follows_record.bind fun loading => ?_
  split
  · exact follows_pure _
  refine (wanes_of_quiet (quiet_onBuild Partition.reads_reload)).bind fun chunks => ?_
  have charges : (chargeBytes loading.build.estimatedSize).Follows fun _ => Wanes :=
    follows_modify fun _ => .of_quiet ⟨rfl, rfl, .refl _⟩
  refine charges.bind fun _ => (follows_modify fun _ => ?_).bind fun _ => follows_pure _
  exact .of_quiet ⟨rfl, rfl, .refl _⟩

theorem wanes_restoreProbeBlock
    (block : Nat) :
    (restoreProbeBlock partition block).Follows fun _ => Wanes :=
  wanes_of_quiet (quiet_onProbe (follows_pure _) (Partition.reads_restoreBlock block))

/-- Children are added one by one. -/
theorem wanes_addChildren
    (parent level : Nat)
    (buckets : List Nat) :
    (addChildren parent level buckets).Follows fun _ => Wanes := by
  induction buckets with
  | nil => exact follows_pure _
  | cons bucket rest inductionHypothesis =>
      refine follows_get.bind fun input => Follows.bind (fun before => ?_)
        fun _ => inductionHypothesis.bind fun _ => follows_pure _
      refine ends_onArena (fun child arena added => ?_) fun _ => Wanes.refl before
      have size : arena.size = before.arena.size + 1 := (Arena.of_add rfl added).2.1
      exact ⟨size ▸ Nat.le_succ _, fun same => absurd (size.symm.trans same) (Nat.succ_ne_self _)⟩

/-- Giving up a partition, with its children that have no build rows, removes no partition. -/
theorem evolves_giveUp
    {children : List Nat}
    (distinct : children.Nodup) :
    (do
      onBuild partition Partition.release
      releaseProbe partition
      setState partition .repartitioned
      modify fun input => { input with repartitions := input.repartitions + 1 }
      keepNonEmpty children : Step Partitioned (List Nat)).Follows (Evolves fun _ => True) := by
  refine (follows_evolves (follows_onBuild Partition.follows_release trivial)).bind fun _ =>
    (follows_evolves (follows_releaseProbe trivial)).bind fun _ => Follows.bind ?_ fun _ =>
    Follows.bind ?_ fun _ => ?_
  · exact follows_modify fun _ => .single (.close trivial (by decide))
  · exact follows_modify fun _ => .single (.notes _ _)
  · exact fun input => (ends_keepNonEmpty distinct input).mono
      (fun _ _ sifts => sifts.evolves.mono fun _ _ => trivial)
      fun _ _ evolves => evolves.mono fun _ _ => trivial

/-- A split closes its partition, and nothing else before it has added a child. -/
theorem wanes_repartition : (repartition partition).Follows fun _ => Wanes := by
  intro input
  refine (ends_bind _ _).mpr (ends_record (fun before found => ?_) fun _ => Wanes.refl input)
  rw [ends_bind, ends_get]
  dsimp only
  rw [ends_ite]
  refine ⟨fun _ => Wanes.refl input, fun shallow => ?_⟩
  rw [← bind_assoc, ends_bind]
  have closes : (setState partition .pinned).Follows fun _ => Wanes := wanes_setState (by decide)
  have wanes := closes.bind fun _ =>
    wanes_addChildren partition (before.level + 1) (List.range input.params.partitionCount)
  refine ((ends_openChildren found (Nat.lt_of_not_le shallow)).and (wanes input)).mono
    (fun children grown opened => ?_) fun _ _ failed => failed.2
  have more : input.arena.size < grown.arena.size := by
    rw [opened.1.size]
    exact Nat.lt_add_of_pos_right (Nat.zero_lt_of_lt (bucketOf_lt input .build 0 []))
  have distinct : children.Nodup := opened.1.numbers ▸ List.nodup_range'
  -- Whatever comes next removes no partition, so there are more than before wherever it ends.
  have larger : ∀ met after, Evolves (fun _ => True) met grown after → Wanes input after := by
    intro met after evolves
    have size := Nat.lt_of_lt_of_le more evolves.size_le
    exact ⟨Nat.le_of_lt size, fun same => absurd same (Nat.ne_of_gt size)⟩
  refine Ends.mono (Follows.bind follows_record (fun dealt => (follows_evolves
    (follows_dealBuild trivial (fun _ _ => trivial) _ _ _)).bind fun _ => ?_) grown)
    (fun _ => larger true) fun _ => larger false
  split
  · exact evolves_giveUp distinct
  · refine follows_probeBlocks.bind fun blocks => ?_
    exact (follows_evolves (follows_dealProbe trivial (fun _ _ => trivial) _ _ _)).bind
      fun _ => evolves_giveUp distinct

end Partitioned

namespace Join

variable {build probe : ProbeSide}

theorem wanes_visit
    (partition : Nat) :
    (visit partition).Follows (Within fun _ => Partitioned.Wanes) := by
  refine (within_onInput Partitioned.follows_checkCancelled).bind fun _ =>
    (within_onInput Partitioned.follows_record).bind fun record => ?_
  split
  · exact follows_pure _
  split
  · exact (within_onInput Partitioned.wanes_complete).bind fun _ => follows_pure _
  refine (within_onInput Partitioned.follows_needsRepartition).bind fun needed => ?_
  split
  · exact (within_onInput Partitioned.wanes_repartition).bind fun children =>
      (within_onInput (Partitioned.follows_processingOrder children)).bind fun _ => follows_pure _
  · exact (within_joinPartition Partitioned.wanes_loadBuild Partitioned.wanes_restoreProbeBlock
      Partitioned.wanes_complete).bind fun _ => follows_pure _

/-- Partitions were closed, unless some were added, and tables may have been given up. -/
structure Dwindles (before after : Join) : Prop where
  wanes : before.input.Wanes after.input
  tables : after.tables ⊆ before.tables
  own : after.probe = before.probe

theorem Dwindles.refl (join : Join) : join.Dwindles join :=
  ⟨.refl join.input, List.Subset.refl _, rfl⟩

theorem Dwindles.trans
    {first second third : Join}
    (one : first.Dwindles second)
    (another : second.Dwindles third) :
    first.Dwindles third :=
  ⟨one.wanes.trans another.wanes, List.Subset.trans another.tables one.tables,
    another.own.trans one.own⟩

instance : Composes fun _ : Bool => Dwindles where
  refl _ := Dwindles.refl
  trans := Dwindles.trans

theorem dwindles_of_within
    {step : Step Join α}
    (within : step.Follows (Within fun _ => Partitioned.Wanes)) :
    step.Follows fun _ => Dwindles :=
  within.mono fun _ _ _ within => ⟨within.1, within.2.1 ▸ List.Subset.refl _, within.2.2.2⟩

theorem dwindles_completeTables
    (partitions : List Nat) :
    (completeTables partitions).Follows fun _ => Dwindles := by
  induction partitions with
  | nil => exact follows_pure _
  | cons partition rest inductionHypothesis =>
      refine (follows_modify fun join => ?_).bind fun _ =>
        (dwindles_of_within (within_onInput Partitioned.wanes_complete)).bind fun _ =>
          inductionHypothesis
      exact ⟨.refl join.input, List.filter_subset_self _, rfl⟩

/-- An end of the probe side closes partitions, unless it adds some. -/
theorem dwindles_finishProbe : finishProbe.Follows fun _ => Dwindles := by
  refine follows_get.bind fun join => ?_
  dsimp only
  split
  · exact follows_fail_bind _ _
  refine (dwindles_completeTables _).bind fun _ => ?_
  refine (follows_drain (fun partition => dwindles_of_within (wanes_visit partition)) _ _).bind
    fun output => ?_
  have ends : (modify fun join : Join => { join with phase := .finished } :
      Step Join PUnit).Follows fun _ => Dwindles :=
    follows_modify fun join => ⟨.refl join.input, List.Subset.refl _, rfl⟩
  have counts : (countOutput output).Follows fun _ => Dwindles :=
    follows_modify fun join => ⟨.refl join.input, List.Subset.refl _, rfl⟩
  exact ends.bind fun _ => counts.bind fun _ => follows_pure _

/-! ## Ends that are tried again -/

/-- The end of the probe side was tried a number of times, and failed each time before a partition was
split. -/
inductive Retries (start : Join) : Join → Prop
  | none : Retries start start
  | again
    {before after : Join}
    {status : Status}
    (retries : Retries start before)
    (fails : finishProbe.outcome before = (.error status, after))
    (unsplit : after.input.arena.size = before.input.arena.size) :
    Retries start after

theorem Retries.dwindles
    {start last : Join}
    (retries : Retries start last) :
    start.Dwindles last ∧ last.input.arena.size = start.input.arena.size := by
  induction retries with
  | none => exact ⟨.refl start, rfl⟩
  | again _ fails unsplit inductionHypothesis =>
      obtain ⟨dwindles, size⟩ := inductionHypothesis
      exact ⟨dwindles.trans ((dwindles_finishProbe _).of_fails fails), unsplit.trans size⟩

/-- What the root owed at the start will not be yielded: it has no table, and is not open any more. -/
def lost (start last : Join) (root : Nat) : Bool :=
  (start.tables.lookup root).isNone &&
    !(last.input.arena.place? root).any fun place => place.state = .opened

/-- What a root owed at the start is what it owes in the end, or it is lost. -/
theorem owedBy_of_closes
    {start last : Join}
    {buildRows probeRows : List Row}
    {contents left : Contents}
    {root : Nat}
    (closes : start.input.Closes precise last.input contents left)
    (tabled : start.Tabled precise build contents)
    (shares : start.tables.lookup root = none → owedBy build probe contents root =
      innerJoin build probe buildRows
        (probeRows.filter fun row => start.input.bucketOf .probe 0 row = root)) :
    owedBy build probe contents root =
      last.input.due (innerJoin build probe) left root ++
        if lost start last root then
          innerJoin build probe buildRows
            (probeRows.filter fun row => start.input.bucketOf .probe 0 row = root)
        else [] := by
  rw [closes.due_eq, Partitioned.due, lost]
  cases (last.input.arena.place? root).any fun place => place.state = .opened with
  | true =>
      rw [if_pos rfl, Bool.not_true, Bool.and_false, if_neg Bool.false_ne_true, List.append_nil,
        owedBy]
  | false =>
      rw [if_neg Bool.false_ne_true, List.nil_append]
      cases found : start.tables.lookup root with
      | none => exact shares found
      | some table =>
          obtain ⟨earlier, later, split, -⟩ := List.lookup_eq_some_iff.mp found
          have none := (tabled root table (by simp [split])).2
          rw [owedBy, none, innerJoin_nil_probe]
          rfl

/-- An end that succeeds after others have failed yields what was pending, apart from what the roots
owed that were closed on the way. -/
theorem Probing.finishProbe_of_retries
    {start last after : Join}
    {buildRows probeRows yielded : List Row}
    {output : List Chunk}
    (probing : start.Probing True build probe buildRows probeRows yielded)
    (retries : Retries start last)
    (succeeds : (Join.finishProbe).Succeeds last output after) :
    (yielded ++ output.flatMap Chunk.rows ++ innerJoin build probe buildRows
        (probeRows.filter fun row => lost start last (start.input.bucketOf .probe 0 row))).Perm
      (innerJoin build probe buildRows probeRows) := by
  obtain ⟨kept, contents, rooted, _, loadable, tabled, shares, owed⟩ := probing.stored
  obtain ⟨dwindles, size⟩ := retries.dwindles
  obtain ⟨left, closes⟩ := dwindles.wanes.closes size contents rooted.holds
  have roots : last.input.roots = start.input.roots := by
    rw [Partitioned.roots, closes.params, Partitioned.roots]
  have nothing : ∀ partition table, (partition, table) ∈ last.tables →
      last.input.due (innerJoin build probe) left partition = [] := by
    intro partition table member
    rw [closes.due_eq, Partitioned.due, (tabled _ table (dwindles.tables member)).2,
      innerJoin_nil_probe, ite_self]
  have known : ∀ root ∈ last.input.roots, root < last.input.arena.size := by
    intro root member
    rw [roots] at member
    rw [size, rooted.size]
    exact List.mem_range.mp member
  have sides : last.Between build probe := probing.sides.transfer closes.side? dwindles.own
  have paid := succeeds_finishProbe succeeds
    ⟨left, sides, closes.holds, closes.loadable loadable, rfl⟩ nothing known trivial
  rw [roots] at paid
  have whole : pending build probe start.input.params.partitionCount contents = _ :=
    List.flatMap_congr fun root member => owedBy_of_closes closes tabled
      (shares trivial root (List.mem_range.mp member))
  have owed := owed trivial
  rw [whole] at owed
  rw [List.append_assoc]
  refine .trans (.append_left yielded ?_) owed
  refine (paid.append ?_).trans (List.flatMap_append_perm _ _ _)
  exact (perm_innerJoin_some (start.input.bucketOf_lt .probe 0) (lost start last) _ _).symm

/-- Once the end of the probe side has succeeded there is no other one. -/
theorem not_succeeds_finishProbe
    {before between after : Join}
    {first second : List Chunk}
    (succeeds : finishProbe.Succeeds before first between) :
    ¬ finishProbe.Succeeds between second after := by
  intro again
  obtain ⟨_, _, finished, _⟩ := (ends_finishProbe before).of_succeeds succeeds
  obtain ⟨_, probing, _⟩ := (ends_finishProbe between).of_succeeds again
  rw [finished] at probing
  cases probing

/-- A join whose end fails a number of times before it succeeds leaves out what the roots owed that were
closed on the way, and nothing else, as long as no partition is split on the way, and there are numbers for
the rows of every chunk and for the build rows of every bucket. After that no end succeeds. -/
theorem perm_innerJoin_of_retries
    {params : Params}
    {specs : List FilterSpec}
    {area : SpillArea}
    {ledger : Ledger}
    {account : Option Nat}
    {builds probes output : List Chunk}
    {joined : List (List Chunk)}
    {filters : List (FilterId × KeyFilter)}
    {new built start last after : Join}
    (made : make params build.schema build.key probe specs area ledger = .ok new)
    (faithful : area.store.damage = [])
    (taken : (takeBuild account builds).Succeeds new filters built)
    (probed : (probes.mapM probeChunk).Succeeds built joined start)
    (retries : Retries start last)
    (succeeds : finishProbe.Succeeds last output after)
    (buildFits : ∀ chunk ∈ builds, chunk.schema = build.schema)
    (probeFits : ∀ chunk ∈ probes, chunk.schema = probe.schema)
    (buildNumbered : ∀ chunk ∈ builds, chunk.Numbered)
    (probeNumbered : ∀ chunk ∈ probes, chunk.Numbered)
    (numbers : new.input.Numbers (builds.flatMap Chunk.rows)) :
    ((joined.flatten ++ output).flatMap Chunk.rows ++ innerJoin build probe
        (builds.flatMap Chunk.rows) ((probes.flatMap Chunk.rows).filter fun row =>
          lost start last (start.input.bucketOf .probe 0 row))).Perm
        (innerJoin build probe (builds.flatMap Chunk.rows) (probes.flatMap Chunk.rows)) ∧
      ∀ more later, ¬ finishProbe.Succeeds after more later := by
  have building : new.Building True build probe [] := building_of_make made faithful
  have built := building.takeBuild taken
    (fun chunk member => ⟨buildFits chunk member, fun _ => buildNumbered chunk member⟩) fun _ => numbers
  have probing := built.probeChunks probed
    fun chunk member => ⟨probeFits chunk member, fun _ => probeNumbered chunk member⟩
  rw [List.nil_append, List.nil_append] at probing
  rw [List.flatMap_append]
  exact ⟨probing.finishProbe_of_retries retries succeeds,
    fun _ _ => not_succeeds_finishProbe succeeds⟩

namespace Retrying.Sample

def zero : Chunk :=
  ⟨Sparing.Sample.side.schema, [[.int 0]], by decide⟩

/-- Chunks whose rows belong to different roots. -/
def both : List Chunk :=
  [zero, Sparing.Sample.one]

/-- A store that fails to read at two of its calls, and blocks of one row. -/
def area : SpillArea where
  spiller := { blockSize := 1 }
  store := { outageAt := fun call => { reads := call = 2 ∨ call = 4 } }

/-- A join that may keep no row. -/
def new : Join :=
  valueOf (make ⟨2, 4, 3⟩ Sparing.Sample.side.schema Sparing.Sample.side.key Sparing.Sample.side []
    area {}) (by decide +kernel)

/-- The join that has taken its build side. -/
def built (chunks : List Chunk) : Join :=
  ((takeBuild none chunks).outcome new).2

/-- The join that has taken the same chunks as its probe side, too. -/
def start (chunks : List Chunk) : Join :=
  ((chunks.mapM probeChunk).outcome (built chunks)).2

/-- The join whose end has failed to read. -/
def last (chunks : List Chunk) : Join :=
  (finishProbe.outcome (start chunks)).2

theorem retries : Retries (start both) (last both) := by
  have fails : finishProbe.outcome (start both) =
      (.error (.storage ("reload spilled partition failed: read spill block mem://b0.ipc failed: " ++
        "storage unavailable")), last both) :=
    Prod.ext (by decide +kernel) rfl
  exact Retries.none.again fails (by decide +kernel)

end Retrying.Sample

/-- The root that could not be read is left out, and the other one is joined. -/
theorem perm_innerJoin_of_failed_read :
    make ⟨2, 4, 3⟩ Sparing.Sample.side.schema Sparing.Sample.side.key Sparing.Sample.side []
        Retrying.Sample.area {} = .ok Retrying.Sample.new ∧
      ∃ filters joined output after,
        (takeBuild none Retrying.Sample.both).Succeeds Retrying.Sample.new filters
          (Retrying.Sample.built Retrying.Sample.both) ∧
        (Retrying.Sample.both.mapM probeChunk).Succeeds (Retrying.Sample.built Retrying.Sample.both)
          joined (Retrying.Sample.start Retrying.Sample.both) ∧
        Retries (Retrying.Sample.start Retrying.Sample.both)
          (Retrying.Sample.last Retrying.Sample.both) ∧
        finishProbe.Succeeds (Retrying.Sample.last Retrying.Sample.both) output after ∧
        ((joined.flatten ++ output).flatMap Chunk.rows ++ [[Cell.int 0, Cell.int 0]]).Perm
          [[.int 0, .int 0], [.int 1, .int 1]] := by
  have made : make ⟨2, 4, 3⟩ Sparing.Sample.side.schema Sparing.Sample.side.key Sparing.Sample.side []
      Retrying.Sample.area {} = .ok Retrying.Sample.new :=
    eq_ok_valueOf _ _
  have fits : ∀ chunk ∈ Retrying.Sample.both, chunk.schema = Sparing.Sample.side.schema :=
    List.forall_mem_cons.mpr ⟨rfl, List.forall_mem_singleton.mpr rfl⟩
  have taken := succeeds_of_isOk (takeBuild none Retrying.Sample.both) Retrying.Sample.new
    (by decide +kernel)
  have probed : (Retrying.Sample.both.mapM probeChunk).Succeeds
      (Retrying.Sample.built Retrying.Sample.both) _ (Retrying.Sample.start Retrying.Sample.both) :=
    succeeds_of_isOk _ _ (by decide +kernel)
  have succeeds := succeeds_of_isOk finishProbe (Retrying.Sample.last Retrying.Sample.both)
    (by decide +kernel)
  have numbered : ∀ chunk ∈ Retrying.Sample.both, chunk.Numbered :=
    List.forall_mem_cons.mpr ⟨by decide, List.forall_mem_singleton.mpr (by decide)⟩
  have numbers : Retrying.Sample.new.input.Numbers (Retrying.Sample.both.flatMap Chunk.rows) :=
    fun _ _ => Nat.le_trans (List.length_filter_le ..) (by decide)
  have paid := perm_innerJoin_of_retries made rfl taken probed Retrying.Sample.retries succeeds fits fits
    numbered numbered numbers
  have gone : innerJoin Sparing.Sample.side Sparing.Sample.side
      (Retrying.Sample.both.flatMap Chunk.rows)
      ((Retrying.Sample.both.flatMap Chunk.rows).filter fun row =>
        lost (Retrying.Sample.start Retrying.Sample.both) (Retrying.Sample.last Retrying.Sample.both)
          ((Retrying.Sample.start Retrying.Sample.both).input.bucketOf .probe 0 row)) =
      [[.int 0, .int 0]] := by
    decide +kernel
  rw [gone] at paid
  exact ⟨made, _, _, _, _, taken, probed, Retrying.Sample.retries, succeeds, paid.1⟩

/-- After the read of the one partition with rows has failed, the next end succeeds without a row. -/
theorem not_perm_innerJoin_retried :
    (∃ filters, (takeBuild none [Sparing.Sample.one]).Succeeds Retrying.Sample.new filters
        (Retrying.Sample.built [Sparing.Sample.one])) ∧
      ([Sparing.Sample.one].mapM probeChunk).Succeeds (Retrying.Sample.built [Sparing.Sample.one])
        [[]] (Retrying.Sample.start [Sparing.Sample.one]) ∧
      (∃ status, finishProbe.outcome (Retrying.Sample.start [Sparing.Sample.one]) =
        (.error status, Retrying.Sample.last [Sparing.Sample.one]) ∧ status.code = .storage) ∧
      (∃ after, finishProbe.Succeeds (Retrying.Sample.last [Sparing.Sample.one]) [] after) ∧
      innerJoin Sparing.Sample.side Sparing.Sample.side Sparing.Sample.one.rows
        Sparing.Sample.one.rows = [[.int 1, .int 1]] := by
  have taken := succeeds_of_isOk (takeBuild none [Sparing.Sample.one]) Retrying.Sample.new
    (by decide +kernel)
  have fails : finishProbe.outcome (Retrying.Sample.start [Sparing.Sample.one]) =
      (.error (.storage ("reload spilled partition failed: read spill block mem://b0.ipc failed: " ++
        "storage unavailable")), Retrying.Sample.last [Sparing.Sample.one]) :=
    Prod.ext (by decide +kernel) rfl
  have stores : (([Sparing.Sample.one].mapM probeChunk).outcome
      (Retrying.Sample.built [Sparing.Sample.one])).1 = .ok [[]] := by
    decide +kernel
  have nothing : (finishProbe.outcome (Retrying.Sample.last [Sparing.Sample.one])).1 = .ok [] := by
    decide +kernel
  exact ⟨⟨_, taken⟩, Prod.ext stores rfl, ⟨_, fails, rfl⟩, ⟨_, Prod.ext nothing rfl⟩,
    by decide +kernel⟩

end Join
end Spillway
