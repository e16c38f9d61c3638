import Spillway.Proofs.Operator.GivenBack
import Spillway.Proofs.Operator.Join
import Spillway.Proofs.Operator.Serving

/-!
# Joins that are fed

A join is fed chunks of the declared schemas by requests that are all met, while the store serves every
call, nobody cancels the query, and the account of the join belongs to no other. By the end of its build
side every partition in memory with rows has a table, and that stays so while probe rows arrive.
-/

namespace Spillway

open Step

namespace Partitioned

variable {precise : Prop} {input before after : Partitioned} {contents : Contents} {rows : List Row}
  {α : Type}

/-! ## Partitions that are left as they are -/

/-- A side of all partitions has no counted rows. -/
def Rowless (input : Partitioned) (side : Side) : Prop :=
  ∀ (partition : Nat) (part : Partition),
    input.arena.part? (side, partition) = some part → part.isEmpty = true

/-- The build sides of all partitions are left as they are. -/
def SparesBuilds (_ : Bool) (before after : Partitioned) : Prop :=
  ∀ partition, after.arena.part? (.build, partition) = before.arena.part? (.build, partition)

instance : Composes SparesBuilds where
  refl _ _ _ := rfl
  trans one another partition := (another partition).trans (one partition)

theorem sound_of_make
    {operator : String}
    {params : Params}
    {build : ProbeSide}
    {probeSide : Option ProbeSide}
    {area : SpillArea}
    {ledger : Ledger}
    (made : make operator params build.schema build.key probeSide area ledger = .ok input)
    (reliable : area.store.Reliable) :
    input.Sound := by
  obtain ⟨valid, start, rfl, rfl⟩ := exists_bare_of_make made
  refine ⟨⟨reliable, fun _ _ => rfl⟩, fun root record found => ?_, fun root record found => ?_, ?_⟩
  · dsimp only at found
    rw [getElem?_newRoots] at found
    split at found
    · cases found
      exact Option.isSome_map
    · cases found
  · dsimp only at found
    rw [getElem?_newRoots] at found
    split at found
    · cases found
      exact valid.maxDepth
    · cases found
  · dsimp only [bare]
    have own : (ledger.openAccount operator params.memLimit).1 = ledger.accounts.size := rfl
    rw [Ledger.account_openAccount, if_pos own]

theorem sparesBuilds_onProbe
    {absent : Step Partitioned α}
    (spares : absent.Follows SparesBuilds)
    (partition : Nat)
    (step : Step Holding α) :
    (onProbe partition absent step).Follows SparesBuilds := by
  refine fun before => ends_onProbe_of (spares before) (fun record probe found has => ?_) fun _ _ => rfl
  have others : ∀ met holding, SparesBuilds met before (before.withProbe partition holding) := by
    intro met holding other
    have parts : (before.withProbe partition holding).arena.part? =
        Function.update before.arena.part? (.probe, partition) (some holding.partition) :=
      Arena.part?_modify found rfl fun side different => by cases side <;> trivial
    rw [parts, Function.update_of_ne (by simp)]
  exact .of_forall (fun _ => others true) fun _ => others false

theorem sparesBuilds_appendProbe
    (partition : Nat)
    (chunk : Chunk) :
    (appendProbe partition chunk).Follows SparesBuilds :=
  follows_get.bind fun _ => sparesBuilds_onProbe (follows_fail _) partition _

/-- What others do with the store is no concern of partitions whose blocks stay. -/
theorem Holds.surround
    (holds : input.Holds precise contents)
    {area : SpillArea}
    (faithful : area.store.damage = [])
    (stays : input.area.store.Spares area.store input.Lists) :
    { input with area }.Holds precise contents := by
  refine { holds with faithful, holds := fun slot partition found => ?_ }
  obtain ⟨declared, declares, held⟩ := holds.holds slot partition found
  obtain ⟨stored, inStore, content⟩ := held.content
  refine ⟨declared, declares, { held with
    content := ⟨stored, inStore.elsewhere stays.format ?_ ?_, content⟩ }⟩
  · exact faithful.trans holds.faithful.symm
  · exact fun path member bytes there => (stays.block path ⟨slot, partition, found, member⟩).trans there

end Partitioned

namespace Join

variable {precise : Prop} {build probe : ProbeSide} {join before after : Join} {chunk : Chunk}

/-! ## Requests -/

/-- Chunks of the request have the schemas that are declared, and the account is left where it is. -/
def Request.Declared (build probe : ProbeSide) : Request → Prop
  | chargeTo _ => False
  | addBuildChunk chunk => chunk.schema = build.schema
  | probeChunk chunk => chunk.schema = probe.schema
  | finishBuild | finishProbe => True

/-- A join that was fed chunks of its sides, by requests that were all met, and what the accounts of its
ledger hold for others by then. No call of the store fails, the query is not cancelled, and the account
of the join belongs to no other. Between requests others may use their blocks and their accounts. -/
inductive Fed (build probe : ProbeSide) : (Nat → Nat) → Join → Prop where
  | new
      {params : Params}
      {specs : List FilterSpec}
      {area : SpillArea}
      {ledger : Ledger}
      {new : Join}
      (made : make params build.schema build.key probe specs area ledger = .ok new)
      (reliable : area.store.Reliable) :
      Fed build probe ledger.used new
  | ask
      {others : Nat → Nat}
      {before after : Join}
      (fed : Fed build probe others before)
      {request : Request}
      (declared : request.Declared build probe)
      (succeeds : request.step.Succeeds before () after) :
      Fed build probe others after
  | surroundings
      {others : Nat → Nat}
      {before : Join}
      (fed : Fed build probe others before)
      {area : SpillArea}
      (reliable : area.store.Reliable)
      (stays : before.input.area.store.Spares area.store before.input.Lists) :
      Fed build probe others { before with input := { before.input with area } }
  | elsewhere
      {others nextOthers : Nat → Nat}
      {before : Join}
      (fed : Fed build probe others before)
      {ledger : Ledger}
      (elsewhere : Ledger.Elsewhere before.input.account before.input.ledger others ledger nextOthers) :
      Fed build probe nextOthers { before with input := { before.input with ledger } }

variable {others : Nat → Nat}

theorem Fed.reached (fed : Fed build probe others join) :
    Operator.Reached others (.join join) := by
  induction fed with
  | new made _ => exact .newJoin made
  | @ask _ before after _ request _ succeeds reached =>
      have asked := reached.askJoin request
      rwa [show (request.step.outcome before).2 = after from congrArg Prod.snd succeeds] at asked
  | @surroundings _ before _ area _ _ reached => exact reached.surroundings area before.input.cancelledAt
  | elsewhere _ elsewhere reached => exact reached.elsewhere elsewhere

theorem Fed.unended (fed : Fed build probe others join) : join.Unended := by
  induction fed with
  | new made _ =>
      obtain ⟨input, makes, yields⟩ := bind_eq_ok_iff.mp made
      cases yields
      exact fun _ => Partitioned.collecting_of_make makes
  | @ask _ _ _ _ request _ succeeds unended => exact (request.unended unended).of_succeeds succeeds
  | surroundings _ _ _ unended => exact fun unfinished => (unended unfinished).surround
  | elsewhere _ _ unended => exact fun unfinished => (unended unfinished).surround

/-- Whatever is asked but for an account, the partitioned input evolves. -/
theorem Request.evolves
    {request : Request}
    (declared : request.Declared build probe) :
    request.step.Follows (along Join.input (Partitioned.Evolves fun _ => True)) := by
  have ends : ∀ value : Unit, (pure value : Step Join Unit).Follows
      (along Join.input (Partitioned.Evolves fun _ => True)) := follows_pure
  cases request with
  | chargeTo parent => exact declared.elim
  | addBuildChunk chunk => exact (takes_addBuildChunk chunk).mono fun _ _ _ takes => takes.1.evolves
  | finishBuild =>
      refine Follows.bind (fun join => ?_) fun _ => ends ()
      exact (ends_finishBuild join).mono (fun _ _ ended => ended.1.evolves)
        fun _ _ takes => takes.1.evolves
  | probeChunk chunk =>
      refine Follows.bind ?_ fun _ => ends ()
      exact (takes_probeChunk chunk).mono fun _ _ _ takes => takes.1.evolves
  | finishProbe =>
      refine Follows.bind (fun join => ?_) fun _ => ends ()
      exact (ends_finishProbe join).mono (fun _ _ ended => ended.1) fun _ _ evolves => evolves

theorem Fed.sound (fed : Fed build probe others join) : join.input.Sound := by
  induction fed with
  | new made reliable =>
      obtain ⟨input, makes, yields⟩ := bind_eq_ok_iff.mp made
      cases yields
      exact Partitioned.sound_of_make makes reliable
  | @ask _ before _ _ _ declared succeeds sound =>
      have evolves := (Request.evolves declared before).of_succeeds succeeds
      exact Partitioned.Evolves.sound evolves sound
  | surroundings _ reliable _ sound => exact { sound with reliable }
  | elsewhere fed elsewhere sound =>
      have known := fed.reached.accounted.books.known
      exact { sound with limit := (congrArg Account.limit (elsewhere.account_eq known)).trans sound.limit }

/-! ## The build side -/

/-- A join that takes its build side: without a key it has no rows. -/
structure TakesBuild
    (build probe : ProbeSide)
    (join : Join) : Prop where
  phase : join.phase = .build
  building : ∃ rows, join.Building False build probe rows
  keyed : build.Keyed ∨ join.input.Rowless .build

/-- A table is of a partition that exists, and every partition in memory that has rows has one. -/
structure Covered (join : Join) : Prop where
  known : ∀ partition ∈ join.tables.map Prod.fst,
    ∃ part, join.input.arena.part? (.build, partition) = some part
  has : ∀ (partition : Nat) (part : Partition),
    join.input.arena.part? (.build, partition) = some part →
    part.spilled = false → part.isEmpty = false → partition ∈ join.tables.map Prod.fst

/-- A join that takes its probe side: a side without a key has no rows. -/
structure TakesProbe
    (build probe : ProbeSide)
    (join : Join) : Prop where
  phase : join.phase = .probe
  probing : ∃ buildRows probeRows yielded, join.Probing False build probe buildRows probeRows yielded
  buildKeyed : build.Keyed ∨ join.input.Rowless .build
  probeKeyed : probe.Keyed ∨ join.input.Rowless .probe
  covered : join.Covered

theorem phase_of_addBuildChunk
    {value : Unit}
    (succeeds : (addBuildChunk chunk).Succeeds before value after) :
    before.phase = .build := by
  simp only [addBuildChunk, succeeds_bind, succeeds_get] at succeeds
  obtain ⟨_, _, ⟨rfl, rfl⟩, succeeds⟩ := succeeds
  split at succeeds
  · simp at succeeds
  · next building => exact not_not.mp building

/-- Rows are accepted by their key. -/
theorem keyed_of_addBuildChunk
    {input accepted : Partitioned}
    {value : Unit}
    (succeeds : (Partitioned.addBuildChunk chunk).Succeeds input value accepted)
    (some : chunk.rows ≠ [])
    (fits : chunk.schema = input.buildSchema) :
    ProbeSide.Keyed ⟨input.buildSchema, input.buildKey⟩ := by
  simp only [Partitioned.addBuildChunk, Partitioned.route, succeeds_bind,
    Partitioned.succeeds_checkCancelled, succeeds_get, succeeds_ofExcept] at succeeds
  obtain ⟨_, _, ⟨_, rfl⟩, _, _, ⟨rfl, rfl⟩, _, _, ⟨splits, rfl⟩, _⟩ := succeeds
  exact .of_split splits (List.isEmpty_eq_false_iff.mpr some) fits

theorem TakesBuild.addBuildChunk
    {value : Unit}
    (takes : TakesBuild build probe before)
    (succeeds : (addBuildChunk chunk).Succeeds before value after)
    (fits : chunk.schema = build.schema) :
    TakesBuild build probe after := by
  obtain ⟨rows, building⟩ := takes.building
  refine ⟨?_, ⟨_, building.addBuildChunk succeeds ⟨fits, False.elim⟩⟩, ?_⟩
  · exact (((takes_addBuildChunk chunk before).of_succeeds succeeds).2).trans takes.phase
  · obtain ⟨kept, dropping, ⟨-, rfl⟩ | ⟨some, -, -, added, -⟩⟩ := addBuildChunk_cases succeeds
    · exact takes.keyed
    · have same := (rows_of_dropAbsentKeys dropping).1.trans fits
      have keyed := keyed_of_addBuildChunk added some
        (same.trans building.sides.buildSchema.symm)
      rw [building.sides.buildSchema, building.sides.buildKey] at keyed
      exact .inl keyed

/-- Making tables gives one to every partition of a list that is in memory and has rows. -/
theorem covers_makeTables
    {partitions : List Nat}
    {value : Unit}
    (succeeds : (makeTables partitions).Succeeds before value after)
    (known : ∀ partition ∈ before.tables.map Prod.fst,
      ∃ part, before.input.arena.part? (.build, partition) = some part)
    (has : ∀ (partition : Nat) (part : Partition),
      before.input.arena.part? (.build, partition) = some part →
      part.spilled = false → part.isEmpty = false →
      partition ∈ before.tables.map Prod.fst ∨ partition ∈ partitions) :
    after.Covered := by
  induction partitions generalizing before with
  | nil =>
      rw [makeTables, succeeds_pure] at succeeds
      obtain ⟨-, rfl⟩ := succeeds
      refine ⟨known, fun partition part found inMemory some => ?_⟩
      exact (has partition part found inMemory some).resolve_right List.not_mem_nil
  | cons partition rest inductionHypothesis =>
      simp only [makeTables, succeeds_bind, succeeds_onInput_iff, Partitioned.succeeds_record_iff]
        at succeeds
      obtain ⟨record, _, ⟨_, ⟨found, rfl⟩, rfl⟩, succeeds⟩ := succeeds
      have here := Arena.part?_build found
      split at succeeds
      · next without =>
        refine inductionHypothesis succeeds known fun other part there inMemory some => ?_
        refine (has other part there inMemory some).imp_right fun member => ?_
        refine (List.mem_cons.mp member).resolve_left ?_
        rintro rfl
        rw [here, Option.some.injEq] at there
        rw [there, inMemory, some] at without
        cases without
      · simp only [succeeds_bind, succeeds_get, succeeds_ofExcept, succeeds_modify] at succeeds
        obtain ⟨_, _, ⟨rfl, rfl⟩, table, _, ⟨_, rfl⟩, _, _, rfl, succeeds⟩ := succeeds
        have keys : ∀ other, other ∈ ((partition, table) ::
            before.tables.filter (·.1 ≠ partition)).map Prod.fst ↔
              other = partition ∨ other ∈ before.tables.map Prod.fst := by
          intro other
          by_cases same : other = partition
          · simp [same]
          · simp [same, and_comm]
        refine inductionHypothesis succeeds (fun other member => ?_)
          fun other part there inMemory some => ?_
        · obtain rfl | member := (keys other).mp member
          · exact ⟨_, here⟩
          · exact known other member
        · rw [keys]
          obtain member | member := has other part there inMemory some
          · exact .inl (.inr member)
          · exact (List.mem_cons.mp member).imp_left .inl

theorem TakesBuild.finishBuild
    {filters : List (FilterId × KeyFilter)}
    (takes : TakesBuild build probe before)
    (succeeds : (finishBuild).Succeeds before filters after) :
    TakesProbe build probe after := by
  obtain ⟨rows, building⟩ := takes.building
  obtain ⟨kept, contents, rooted, -, noProbe, -⟩ := building.stored
  have same : after.input = before.input :=
    (@keeps_finishBuild (· = before.input) before rfl).of_succeeds succeeds
  refine ⟨((ends_finishBuild before).of_succeeds succeeds).2.2,
    ⟨_, _, _, building.finishBuild succeeds False.elim⟩, same ▸ takes.keyed,
    .inr fun partition part found => ?_, ?_⟩
  · rw [same] at found
    obtain ⟨_, _, held⟩ := rooted.holds.holds _ _ found
    exact held.isEmpty_iff.mpr (noProbe partition)
  · simp only [Join.finishBuild, succeeds_bind, succeeds_get] at succeeds
    obtain ⟨_, _, ⟨rfl, rfl⟩, succeeds⟩ := succeeds
    split at succeeds
    · simp at succeeds
    simp only [succeeds_bind, succeeds_onInput_iff, Partitioned.succeeds_checkCancelled,
      succeeds_modify, succeeds_pure] at succeeds
    obtain ⟨_, _, ⟨_, ⟨_, rfl⟩, rfl⟩, _, made, making, _, _, rfl, -, rfl⟩ := succeeds
    have covers := covers_makeTables making (by simp [building.tables])
      fun root part found _ _ => .inr ?_
    · exact ⟨covers.known, covers.has⟩
    · obtain ⟨record, there, -⟩ := Option.bind_eq_some_iff.mp found
      have known := (Array.getElem?_eq_some_iff.mp there).1
      exact List.mem_range.mpr (rooted.size ▸ known)

/-! ## The probe side -/

/-- Probe rows are accepted by their key. -/
theorem keyed_of_probeChunk
    {output : List Chunk}
    (succeeds : (probeChunk chunk).Succeeds before output after) :
    before = after ∨ (chunk.schema = before.probe.schema → before.probe.Keyed) := by
  obtain ⟨-, kept, dropping, ⟨-, -, same⟩ | ⟨some, _, _, splits, -⟩⟩ := probeChunk_cases succeeds
  · exact .inl same
  · exact .inr fun fits => .of_split splits some ((rows_of_dropAbsentKeys dropping).1.trans fits)

theorem TakesProbe.probeChunk
    {output : List Chunk}
    (takes : TakesProbe build probe before)
    (succeeds : (probeChunk chunk).Succeeds before output after)
    (fits : chunk.schema = probe.schema) :
    TakesProbe build probe after := by
  obtain ⟨buildRows, probeRows, yielded, probing⟩ := takes.probing
  obtain ⟨spares, tables, phase, -⟩ :=
    (within_probeChunk Partitioned.sparesBuilds_appendProbe chunk before).of_succeeds succeeds
  have builds : ∀ partition, after.input.arena.part? (.build, partition) =
      before.input.arena.part? (.build, partition) := spares
  refine ⟨phase.trans takes.phase, ⟨_, _, _, probing.probeChunk succeeds ⟨fits, False.elim⟩⟩,
    takes.buildKeyed.imp_right fun rowless partition part found => ?_, ?_, ?_, ?_⟩
  · exact rowless partition part ((builds partition).symm.trans found)
  · obtain rfl | keyed := keyed_of_probeChunk succeeds
    · exact takes.probeKeyed
    · exact .inl (probing.sides.own ▸ keyed (probing.sides.own ▸ fits))
  · rw [tables]
    exact fun partition member => builds partition ▸ takes.covered.known partition member
  · rw [tables]
    exact fun partition part found =>
      takes.covered.has partition part ((builds partition).symm.trans found)

/-! ## Between requests -/

/-- What others do with the store, and with the ledger, is no concern of the rows of a join whose blocks
stay. -/
theorem rooted_surround
    {input : Partitioned}
    {kept : List Row}
    {contents : Contents}
    (rooted : input.Rooted precise kept contents)
    {area : SpillArea}
    {ledger : Ledger}
    (faithful : area.store.damage = [])
    (stays : input.area.store.Spares area.store input.Lists) :
    { input with area, ledger }.Rooted precise kept contents :=
  { rooted with holds := rooted.holds.surround faithful stays }

theorem Building.surround
    {rows : List Row}
    {area : SpillArea}
    {ledger : Ledger}
    (building : join.Building precise build probe rows)
    (faithful : area.store.damage = [])
    (stays : join.input.area.store.Spares area.store join.input.Lists) :
    Building precise { join with input := { join.input with area, ledger } } build probe rows := by
  obtain ⟨sides, tables, kept, contents, rooted, rest⟩ := building
  exact ⟨⟨sides.buildSide, sides.probeSide, sides.own⟩, tables, kept, contents,
    rooted_surround rooted faithful stays, rest⟩

theorem Probing.surround
    {buildRows probeRows yielded : List Row}
    {area : SpillArea}
    {ledger : Ledger}
    (probing : join.Probing precise build probe buildRows probeRows yielded)
    (faithful : area.store.damage = [])
    (stays : join.input.area.store.Spares area.store join.input.Lists) :
    Probing precise { join with input := { join.input with area, ledger } } build probe buildRows
      probeRows yielded := by
  obtain ⟨sides, kept, contents, rooted, rest⟩ := probing
  exact ⟨⟨sides.buildSide, sides.probeSide, sides.own⟩, kept, contents,
    rooted_surround rooted faithful stays, rest⟩

theorem TakesBuild.surround
    {area : SpillArea}
    {ledger : Ledger}
    (takes : TakesBuild build probe join)
    (faithful : area.store.damage = [])
    (stays : join.input.area.store.Spares area.store join.input.Lists) :
    TakesBuild build probe { join with input := { join.input with area, ledger } } :=
  ⟨takes.phase, takes.building.imp fun _ building => building.surround faithful stays, takes.keyed⟩

theorem TakesProbe.surround
    {area : SpillArea}
    {ledger : Ledger}
    (takes : TakesProbe build probe join)
    (faithful : area.store.damage = [])
    (stays : join.input.area.store.Spares area.store join.input.Lists) :
    TakesProbe build probe { join with input := { join.input with area, ledger } } := by
  obtain ⟨buildRows, probeRows, yielded, probing⟩ := takes.probing
  exact ⟨takes.phase, ⟨buildRows, probeRows, yielded, probing.surround faithful stays⟩,
    takes.buildKeyed, takes.probeKeyed, takes.covered.known, takes.covered.has⟩

/-! ## What a join that is fed takes -/

theorem takesBuild_of_make
    {params : Params}
    {specs : List FilterSpec}
    {area : SpillArea}
    {ledger : Ledger}
    (made : make params build.schema build.key probe specs area ledger = .ok join)
    (faithful : area.store.damage = []) :
    TakesBuild build probe join := by
  have building : join.Building False build probe [] := building_of_make made faithful
  obtain ⟨input, makes, yields⟩ := bind_eq_ok_iff.mp made
  cases yields
  have rooted : input.Rooted False [] fun _ => [] := Partitioned.rooted_of_make makes faithful
  refine ⟨rfl, ⟨_, building⟩, .inr fun partition part found => ?_⟩
  obtain ⟨_, _, held⟩ := rooted.holds.holds _ _ found
  exact held.isEmpty_iff.mpr rfl

/-- A join that is fed takes its build side, or its probe side, or it is finished. -/
theorem Fed.takes (fed : Fed build probe others join) :
    TakesBuild build probe join ∨ TakesProbe build probe join ∨ join.phase = .finished := by
  induction fed with
  | new made reliable => exact .inl (takesBuild_of_make made reliable.faithful)
  | @ask _ before after _ request declared succeeds takes =>
      cases request with
      | chargeTo parent => exact declared.elim
      | addBuildChunk chunk =>
          have building := phase_of_addBuildChunk succeeds
          obtain takes | takes | finished := takes
          · exact .inl (takes.addBuildChunk succeeds declared)
          · simp [takes.phase] at building
          · simp [finished] at building
      | finishBuild =>
          obtain ⟨filters, _, ends, -, rfl⟩ := (succeeds_bind _ _ _ _ _).mp succeeds
          have building := ((ends_finishBuild before).of_succeeds ends).2.1
          obtain takes | takes | finished := takes
          · exact .inr (.inl (takes.finishBuild ends))
          · simp [takes.phase] at building
          · simp [finished] at building
      | probeChunk chunk =>
          obtain ⟨output, _, ends, -, rfl⟩ := (succeeds_bind _ _ _ _ _).mp succeeds
          have probing := (probeChunk_cases ends).1
          obtain takes | takes | finished := takes
          · simp [takes.phase] at probing
          · exact .inr (.inl (takes.probeChunk ends declared))
          · simp [finished] at probing
      | finishProbe =>
          obtain ⟨output, _, ends, -, rfl⟩ := (succeeds_bind _ _ _ _ _).mp succeeds
          exact .inr (.inr ((ends_finishProbe before).of_succeeds ends).2.2.1)
  | surroundings _ reliable stays takes =>
      exact takes.imp (·.surround reliable.faithful stays)
        (.imp_left (·.surround reliable.faithful stays))
  | elsewhere fed _ takes =>
      have faithful := fed.sound.reliable.faithful
      exact takes.imp (·.surround faithful (.refl ..))
        (.imp_left (·.surround faithful (.refl ..)))

theorem Fed.takesProbe
    (fed : Fed build probe others join)
    (probing : join.phase = .probe) :
    TakesProbe build probe join := by
  obtain takes | takes | finished := fed.takes
  · simp [takes.phase] at probing
  · exact takes
  · simp [finished] at probing

end Join
end Spillway
