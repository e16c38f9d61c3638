import Spillway.Proofs.Operator.Accepting
import Spillway.Proofs.Operator.Asked
import Spillway.Proofs.Operator.Together

/-!
# Joins that are given chunks

A join is given build chunks, and probe chunks once its build side was ended, while the store serves every
call, nobody cancels the query, and the account of the join belongs to no other. If all build rows have the
same key, everything is accepted, and whatever is spilled on the way one root lists the build chunks that
have rows, in the order in which they were given. The rows of each chunk have different numbers.
-/

namespace Spillway

open Step

namespace Join

variable {build probe : ProbeSide} {key : Key} {hot : Nat} {others nextOthers : Nat → Nat}
  {builds probes : List Chunk} {given : Option (List Chunk)} {join before after : Join} {chunk : Chunk}

/-- A join that was given build chunks, and probe chunks once its build side was ended, with what the
accounts of its ledger hold for others by then. No call of the store fails, the query is not cancelled, and
the account of the join belongs to no other. Between requests others may use their blocks and their
accounts. -/
inductive Given (build probe : ProbeSide) :
    (Nat → Nat) → List Chunk → Option (List Chunk) → Join → Prop where
  | new
      {params : Params}
      {specs : List FilterSpec}
      {area : SpillArea}
      {ledger : Ledger}
      {new : Join}
      (made : make params build.schema build.key probe specs area ledger = .ok new)
      (reliable : area.store.Reliable) :
      Given build probe ledger.used [] none new
  | addBuildChunk
      {others : Nat → Nat}
      {builds : List Chunk}
      {before : Join}
      (given : Given build probe others builds none before)
      {chunk : Chunk}
      (fits : chunk.schema = build.schema)
      (numbered : chunk.Numbered) :
      Given build probe others (builds ++ [chunk]) none
        ((Request.addBuildChunk chunk).step.outcome before).2
  | finishBuild
      {others : Nat → Nat}
      {builds : List Chunk}
      {before : Join}
      (given : Given build probe others builds none before) :
      Given build probe others builds (some []) (Request.finishBuild.step.outcome before).2
  | probeChunk
      {others : Nat → Nat}
      {builds probes : List Chunk}
      {before : Join}
      (given : Given build probe others builds (some probes) before)
      {chunk : Chunk}
      (fits : chunk.schema = probe.schema)
      (numbered : chunk.Numbered) :
      Given build probe others builds (some (probes ++ [chunk]))
        ((Request.probeChunk chunk).step.outcome before).2
  | surroundings
      {others : Nat → Nat}
      {builds : List Chunk}
      {probes : Option (List Chunk)}
      {before : Join}
      (given : Given build probe others builds probes before)
      {area : SpillArea}
      (reliable : area.store.Reliable)
      (stays : before.input.area.store.Spares area.store before.input.Lists) :
      Given build probe others builds probes { before with input := { before.input with area } }
  | elsewhere
      {others nextOthers : Nat → Nat}
      {builds : List Chunk}
      {probes : Option (List Chunk)}
      {before : Join}
      {ledger : Ledger}
      (given : Given build probe others builds probes before)
      (elsewhere : Ledger.Elsewhere before.input.account before.input.ledger others ledger nextOthers) :
      Given build probe nextOthers builds probes { before with input := { before.input with ledger } }

theorem Given.asked (run : Given build probe others builds given join) :
    ∃ met, Asked others met join := by
  induction run with
  | new made _ => exact ⟨_, .new made⟩
  | addBuildChunk _ _ _ asked => exact ⟨_, asked.choose_spec.ask nofun⟩
  | finishBuild _ asked => exact ⟨_, asked.choose_spec.ask nofun⟩
  | probeChunk _ _ _ asked => exact ⟨_, asked.choose_spec.ask nofun⟩
  | @surroundings _ _ _ before _ area _ _ asked =>
      exact ⟨_, asked.choose_spec.surroundings area before.input.cancelledAt⟩
  | elsewhere _ elsewhere asked => exact ⟨_, asked.choose_spec.elsewhere elsewhere⟩

/-! ## What one root lists -/

/-- One root lists the build chunks that have rows, and it is the root of the key. The account is charged
for all that is in memory. -/
structure Gathers
    (build probe : ProbeSide)
    (key : Key)
    (hot : Nat)
    (others : Nat → Nat)
    (builds : List Chunk)
    (join : Join) : Prop where
  fed : Fed build probe others join
  bucket : (join.input.directory 0).bucketOfKey (some key) = hot
  tracks : join.input.Tracks build.schema hot (builds.filter fun chunk => !chunk.isEmpty)
  unsplit : join.input.repartitions = 0
  backed : join.input.AccountedBy Ledger.Backs [] 0

/-- Build rows are accepted. All that were belong to one root. -/
structure Loading
    (build probe : ProbeSide)
    (key : Key)
    (hot : Nat)
    (others : Nat → Nat)
    (builds : List Chunk)
    (join : Join) : Prop extends Gathers build probe key hot others builds join where
  phase : join.phase = .build
  sides : join.Between build probe
  tables : join.tables = []
  stored : ∃ contents, join.input.Rooted True (builds.flatMap Chunk.rows) contents ∧
    ∀ root, contents (.probe, root) = []
  only : ∀ filter ∈ join.filters, filter.Only key

/-- Probe rows are accepted. What the root of the key owes, if it has no table, is its join with all probe
rows of its bucket. -/
structure Loaded
    (build probe : ProbeSide)
    (key : Key)
    (hot : Nat)
    (others : Nat → Nat)
    (builds probes : List Chunk)
    (join : Join) : Prop extends Gathers build probe key hot others builds join where
  phase : join.phase = .probe
  sides : join.Between build probe
  stored : ∃ contents, join.input.Rooted True (builds.flatMap Chunk.rows) contents ∧
    join.Tabled False build contents ∧ (join.tables.lookup hot = none → owedBy build probe contents hot =
      innerJoin build probe (contents (.build, hot))
        ((probes.flatMap Chunk.rows).filter fun row => join.input.bucketOf .probe 0 row = hot))
  furnished : join.Furnished build

/-! ## Between requests -/

theorem Gathers.surround
    (gathers : Gathers build probe key hot others builds join)
    {area : SpillArea}
    (reliable : area.store.Reliable)
    (stays : join.input.area.store.Spares area.store join.input.Lists) :
    Gathers build probe key hot others builds { join with input := { join.input with area } } where
  fed := gathers.fed.surroundings reliable stays
  bucket := gathers.bucket
  tracks := gathers.tracks.elsewhere rfl stays.format reliable.faithful fun _ found path member _ there =>
    (stays.block path ⟨_, _, found, member⟩).trans there
  unsplit := gathers.unsplit
  backed := gathers.backed.transfer rfl rfl rfl rfl

theorem Gathers.elsewhere
    (gathers : Gathers build probe key hot others builds join)
    {ledger : Ledger}
    (elsewhere : Ledger.Elsewhere join.input.account join.input.ledger others ledger nextOthers) :
    Gathers build probe key hot nextOthers builds
      { join with input := { join.input with ledger } } where
  fed := gathers.fed.elsewhere elsewhere
  bucket := gathers.bucket
  tracks := gathers.tracks
  unsplit := gathers.unsplit
  backed :=
    { gathers.backed with books := gathers.backed.books.elsewhere elsewhere }

theorem Loading.surround
    {area : SpillArea}
    {ledger : Ledger}
    (loading : Loading build probe key hot others builds join)
    (gathers : Gathers build probe key hot nextOthers builds
      { join with input := { join.input with area, ledger } })
    (faithful : area.store.damage = [])
    (stays : join.input.area.store.Spares area.store join.input.Lists) :
    Loading build probe key hot nextOthers builds
      { join with input := { join.input with area, ledger } } where
  toGathers := gathers
  phase := loading.phase
  sides := ⟨loading.sides.buildSide, loading.sides.probeSide, loading.sides.own⟩
  tables := loading.tables
  stored := loading.stored.imp fun _ stored => ⟨rooted_surround stored.1 faithful stays, stored.2⟩
  only := loading.only

theorem Loaded.surround
    {area : SpillArea}
    {ledger : Ledger}
    (loaded : Loaded build probe key hot others builds probes join)
    (gathers : Gathers build probe key hot nextOthers builds
      { join with input := { join.input with area, ledger } })
    (faithful : area.store.damage = [])
    (stays : join.input.area.store.Spares area.store join.input.Lists) :
    Loaded build probe key hot nextOthers builds probes
      { join with input := { join.input with area, ledger } } where
  toGathers := gathers
  phase := loaded.phase
  sides := ⟨loaded.sides.buildSide, loaded.sides.probeSide, loaded.sides.own⟩
  stored := loaded.stored.imp fun _ stored => ⟨rooted_surround stored.1 faithful stays, stored.2⟩
  furnished := ⟨loaded.furnished.loaded, loaded.furnished.serves⟩

/-! ## Requests -/

section Requests

variable (buildKeyed : build.Keyed) (probeKeyed : probe.Keyed)
include buildKeyed probeKeyed

theorem Loading.able (loading : Loading build probe key hot others builds join) :
    join.Able build probe where
  sides := loading.sides
  buildKeyed := buildKeyed
  probeKeyed := probeKeyed
  sound := loading.fed.sound
  known root member := by
    obtain ⟨_, rooted, -⟩ := loading.stored
    exact rooted.size ▸ List.mem_range.mp member

theorem Loaded.able (loaded : Loaded build probe key hot others builds probes join) :
    join.Able build probe where
  sides := loaded.sides
  buildKeyed := buildKeyed
  probeKeyed := probeKeyed
  sound := loaded.fed.sound
  known root member := by
    obtain ⟨_, rooted, -⟩ := loaded.stored
    exact rooted.size ▸ List.mem_range.mp member

/-- A build chunk all of whose rows have the key is accepted. -/
theorem Loading.addBuildChunk
    (loading : Loading build probe key hot others builds before)
    (fits : chunk.schema = build.schema)
    (numbered : chunk.Numbered)
    (single : ∀ row ∈ chunk.rows, build.keyOf row = some key) :
    Loading build probe key hot others (builds ++ [chunk])
      ((Request.addBuildChunk chunk).step.outcome before).2 := by
  have able := loading.able buildKeyed probeKeyed
  have ends := able.ends_addBuildChunk loading.phase fits single loading.only
  obtain ⟨_, after, succeeds⟩ := ends.serves.exists_succeeds
  obtain ⟨only, became⟩ := ends.of_succeeds succeeds
  obtain ⟨feeds, phase⟩ := (takes_addBuildChunk chunk before).of_succeeds succeeds
  have params : after.input.params = before.input.params := feeds.evolves.params_eq
  have bounded : hot < before.input.params.partitionCount := loading.bucket ▸ Directory.bucketOfKey_lt _ _
  have asked : (Request.addBuildChunk chunk).step.Succeeds before () after := succeeds
  rw [show ((Request.addBuildChunk chunk).step.outcome before).2 = after from congrArg Prod.snd asked]
  refine
    { fed := loading.fed.ask (show (Request.addBuildChunk chunk).Declared build probe from fits) asked
      bucket := (Partitioned.directory_of_params params 0).symm ▸ loading.bucket
      tracks := ?_
      unsplit := feeds.repartitions_eq.trans loading.unsplit
      backed := (keeps_addBuildChunk chunk before loading.backed).of_succeeds succeeds
      phase := phase.trans loading.phase
      sides := loading.sides.addBuildChunk succeeds
      tables := ?_
      stored := ?_
      only }
  · obtain ⟨empty, rfl⟩ | ⟨full, -, added⟩ := became
    · simpa [empty] using loading.tracks
    · have together : ∀ row ∈ chunk.rows,
          (before.input.directory 0).bucketOfKey (build.keyOf row) = hot := fun row member => by
        rw [single row member, loading.bucket]
      simpa [full] using Partitioned.tracks_of_addBuildChunk added able.sides.buildSide buildKeyed fits full
        together bounded loading.tracks
  · obtain ⟨-, rfl⟩ | ⟨-, same, -⟩ := became
    · exact loading.tables
    · exact same.trans loading.tables
  · obtain ⟨contents, rooted, noProbe⟩ := loading.stored
    rw [List.flatMap_append, List.flatMap_singleton]
    obtain ⟨empty, rfl⟩ | ⟨-, -, added⟩ := became
    · rw [List.isEmpty_iff.mp empty, List.append_nil]
      exact ⟨contents, rooted, noProbe⟩
    · obtain ⟨-, filled, more, sameProbe⟩ :=
        rooted.addBuildChunk added ⟨fits.trans able.sides.buildSchema.symm, fun _ => numbered⟩
      exact ⟨filled, more, fun root => (sameProbe root).trans (noProbe root)⟩

/-- The build side can be ended. -/
theorem Loading.finishBuild (loading : Loading build probe key hot others builds before) :
    Loaded build probe key hot others builds [] (Request.finishBuild.step.outcome before).2 := by
  have able := loading.able buildKeyed probeKeyed
  obtain ⟨contents, rooted, noProbe⟩ := loading.stored
  have ends := able.ends_finishBuild loading.phase rooted.holds loading.tables
  obtain ⟨filters, after, succeeds⟩ := ends.serves.exists_succeeds
  obtain ⟨same, furnished⟩ := ends.of_succeeds succeeds
  obtain ⟨-, sides, tabled⟩ := tabled_of_finishBuild succeeds loading.sides rooted.holds.relax
    (fun impossible => impossible.elim) noProbe loading.tables
  have asked : Request.finishBuild.step.Succeeds before () after :=
    (succeeds_bind _ _ _ _ _).mpr ⟨filters, after, succeeds, rfl⟩
  rw [show (Request.finishBuild.step.outcome before).2 = after from congrArg Prod.snd asked]
  exact
    { fed := loading.fed.ask (show Request.finishBuild.Declared build probe from trivial) asked
      bucket := same ▸ loading.bucket
      tracks := same ▸ loading.tracks
      unsplit := same ▸ loading.unsplit
      backed := same ▸ loading.backed
      phase := ((ends_finishBuild before).of_succeeds succeeds).2.2
      sides
      stored := ⟨contents, same ▸ rooted, tabled, fun _ => by
        rw [owedBy, noProbe]
        rfl⟩
      furnished }

omit buildKeyed probeKeyed in
/-- What the root of the key owes grows by the join with the rows of its bucket. -/
theorem Loaded.stored_of_probeChunk
    {output : List Chunk}
    (loaded : Loaded build probe key hot others builds probes before)
    (succeeds : (probeChunk chunk).Succeeds before output after)
    (fits : chunk.schema = probe.schema)
    (numbered : chunk.Numbered) :
    after.Between build probe ∧ ∃ contents,
      after.input.Rooted True (builds.flatMap Chunk.rows) contents ∧ after.Tabled False build contents ∧
      (after.tables.lookup hot = none → owedBy build probe contents hot =
        innerJoin build probe (contents (.build, hot))
          ((probes.flatMap Chunk.rows ++ chunk.rows).filter fun row =>
            after.input.bucketOf .probe 0 row = hot)) := by
  have bounded : hot < before.input.params.partitionCount := loaded.bucket ▸ Directory.bucketOfKey_lt _ _
  obtain ⟨contents, rooted, tabled, owed⟩ := loaded.stored
  obtain ⟨-, kept, dropping, cases⟩ := probeChunk_cases succeeds
  rw [loaded.sides.own] at dropping cases
  have keyed := @innerJoin_dropAbsentKeys build _ _ _ dropping fits (contents (.build, hot))
    fun row => before.input.bucketOf .probe 0 row = hot
  obtain ⟨empty, rfl, rfl⟩ | ⟨-, parts, probed, splits, joined, same⟩ := cases
  · refine ⟨loaded.sides, contents, rooted, tabled, fun missing => ?_⟩
    rw [owed missing, List.filter_append, innerJoin_append_probe, ← keyed, empty, List.filter_nil,
      innerJoin_nil_probe, List.append_nil]
  · have suits : kept.Suits True probe.schema := suits_of_dropAbsentKeys dropping ⟨fits, fun _ => numbered⟩
    have deals := Directory.deals_of_split splits
    obtain ⟨filled, takes⟩ := succeeds_probeParts joined loaded.sides rooted.holds tabled
      (fun _ part member => deals.suits suits (List.of_mem_zip member).2) False.elim
      fun pair member => List.mem_range.mp (List.of_mem_zip (show (pair.1, pair.2) ∈ _ from member)).1
    have sides := takes.sides loaded.sides
    have params := Partitioned.params_of_outline takes.outline
    rw [← same]
    refine ⟨⟨sides.buildSide, sides.probeSide, sides.own⟩, filled,
      rooted.transfer takes.outline takes.holds fun is root known =>
        (takes.keeps root).trans (rooted.build is root known),
      takes.tabled, fun missing => ?_⟩
    have untabled : before.tables.lookup hot = none := takes.tables ▸ missing
    simp only [Partitioned.bucketOf_of_setting params (Partitioned.side?_of_outline takes.outline)]
    rw [takes.stored hot untabled, flatMap_share_root loaded.sides.probeSide deals suits.schema_eq
      (suits.numbered trivial) bounded, owed untabled, takes.keeps, keyed, List.filter_append,
      innerJoin_append_probe]

/-- A probe chunk is accepted. -/
theorem Loaded.probeChunk
    (loaded : Loaded build probe key hot others builds probes before)
    (fits : chunk.schema = probe.schema)
    (numbered : chunk.Numbered) :
    Loaded build probe key hot others builds (probes ++ [chunk])
      ((Request.probeChunk chunk).step.outcome before).2 := by
  have able := loaded.able buildKeyed probeKeyed
  obtain ⟨output, after, succeeds⟩ :=
    (able.serves_probeChunk loaded.phase loaded.furnished.serves fits).exists_succeeds
  obtain ⟨feeds, phase⟩ := (takes_probeChunk chunk before).of_succeeds succeeds
  obtain ⟨spares, tables, -⟩ :=
    (within_probeChunk Partitioned.sparesBuilds_appendProbe chunk before).of_succeeds succeeds
  obtain ⟨keeps, -⟩ :=
    (within_probeChunk Partitioned.keepsBlocks_appendProbe chunk before).of_succeeds succeeds
  have builds : ∀ partition, after.input.arena.part? (.build, partition) =
      before.input.arena.part? (.build, partition) := spares
  have stored := loaded.stored_of_probeChunk succeeds fits numbered
  have params : after.input.params = before.input.params := feeds.evolves.params_eq
  have asked : (Request.probeChunk chunk).step.Succeeds before () after :=
    (succeeds_bind _ _ _ _ _).mpr ⟨output, after, succeeds, rfl⟩
  rw [show ((Request.probeChunk chunk).step.outcome before).2 = after from congrArg Prod.snd asked]
  exact
    { fed := loaded.fed.ask (show (Request.probeChunk chunk).Declared build probe from fits) asked
      bucket := (Partitioned.directory_of_params params 0).symm ▸ loaded.bucket
      tracks := loaded.tracks.keeps (builds hot) keeps
      unsplit := feeds.repartitions_eq.trans loaded.unsplit
      backed := (keeps_probeChunk chunk before loaded.backed).of_succeeds succeeds
      phase := phase.trans loaded.phase
      sides := stored.1
      stored := by
        rw [List.flatMap_append, List.flatMap_singleton]
        exact stored.2
      furnished := by
        refine ⟨?_, ?_⟩ <;> rw [tables]
        · exact fun entry member part found =>
            loaded.furnished.loaded entry member part ((builds entry.1).symm.trans found)
        · exact loaded.furnished.serves }

end Requests

theorem loading_of_make
    {params : Params}
    {specs : List FilterSpec}
    {area : SpillArea}
    {ledger : Ledger}
    (made : make params build.schema build.key probe specs area ledger = .ok join)
    (reliable : area.store.Reliable)
    (key : Key) :
    Loading build probe key ((join.input.directory 0).bucketOfKey (some key)) ledger.used [] join := by
  have fed : Fed build probe ledger.used join := .new made reliable
  have sides := between_of_make made
  obtain ⟨input, makes, yields⟩ := bind_eq_ok_iff.mp made
  cases yields
  exact
    { fed
      bucket := rfl
      tracks := Partitioned.tracks_of_make makes reliable.faithful (Directory.bucketOfKey_lt _ _)
      unsplit := by
        obtain ⟨_, _, rfl, rfl⟩ := Partitioned.exists_bare_of_make makes
        rfl
      backed := Partitioned.accountedBy_of_make makes (Ledger.backs_openAccount _ _ _ _)
      phase := rfl
      sides
      tables := rfl
      stored := ⟨_, Partitioned.rooted_of_make makes reliable.faithful, fun _ => rfl⟩
      only := fun filter member => by
        obtain ⟨spec, _, rfl⟩ := List.mem_map.mp member
        exact KeyFilter.only_empty key _ _ }

/-! ## Runs -/

/-- What is known by then of a join that was given chunks. -/
def Stands
    (build probe : ProbeSide)
    (key : Key)
    (others : Nat → Nat)
    (builds : List Chunk)
    (join : Join) : Option (List Chunk) → Prop
  | none => ∃ hot, Loading build probe key hot others builds join
  | some probes => ∃ hot, Loaded build probe key hot others builds probes join

/-- If all build rows have one key, every chunk is accepted. -/
theorem Given.stands
    (run : Given build probe others builds given join)
    (buildKeyed : build.Keyed)
    (probeKeyed : probe.Keyed)
    (single : ∀ chunk ∈ builds, ∀ row ∈ chunk.rows, build.keyOf row = some key) :
    Stands build probe key others builds join given := by
  induction run with
  | new made reliable => exact ⟨_, loading_of_make made reliable key⟩
  | addBuildChunk _ fits numbered inductionHypothesis =>
      obtain ⟨hot, loading⟩ := inductionHypothesis fun chunk member =>
        single chunk (List.mem_append_left _ member)
      exact ⟨hot, loading.addBuildChunk buildKeyed probeKeyed fits numbered
        (single _ (List.mem_append_right _ List.mem_cons_self))⟩
  | finishBuild _ inductionHypothesis =>
      obtain ⟨hot, loading⟩ := inductionHypothesis single
      exact ⟨hot, loading.finishBuild buildKeyed probeKeyed⟩
  | probeChunk _ fits numbered inductionHypothesis =>
      obtain ⟨hot, loaded⟩ := inductionHypothesis single
      exact ⟨hot, loaded.probeChunk buildKeyed probeKeyed fits numbered⟩
  | @surroundings _ _ given _ _ _ reliable stays inductionHypothesis =>
      cases given with
      | none =>
          exact (inductionHypothesis single).imp fun _ loading =>
            loading.surround (loading.toGathers.surround reliable stays) reliable.faithful stays
      | some probes =>
          exact (inductionHypothesis single).imp fun _ loaded =>
            loaded.surround (loaded.toGathers.surround reliable stays) reliable.faithful stays
  | @elsewhere _ _ _ given _ _ _ elsewhere inductionHypothesis =>
      cases given with
      | none =>
          exact (inductionHypothesis single).imp fun _ loading =>
            loading.surround (loading.toGathers.elsewhere elsewhere) loading.fed.sound.reliable.faithful
              (.refl ..)
      | some probes =>
          exact (inductionHypothesis single).imp fun _ loaded =>
            loaded.surround (loaded.toGathers.elsewhere elsewhere) loaded.fed.sound.reliable.faithful
              (.refl ..)

end Join
end Spillway
