import Spillway.Proofs.Filter.Merging
import Spillway.Proofs.Operator.Fed
import Spillway.Proofs.Operator.Visits

/-!
# Chunks that are accepted

While the store serves every call and nobody cancels the query, a join accepts chunks of its sides if both
have a key. On the build side its filters have to take in the keys as well: a range refuses keys of two
classes, but it takes in one key over and over. So nothing can go wrong before the end of a join whose
build rows all have the same key.
-/

namespace Spillway

open Step

/-- Only a type that rows are keyed by admits a cell with a key. -/
theorem ColumnType.isKey_of_key?
    {type : ColumnType}
    {cell : Cell}
    {key : Key}
    (admitted : type.admits cell = true)
    (present : cell.key? = some key) :
    type.isKey = true := by
  cases type <;> cases cell <;> simp_all [isKey, isInteger, isText, admits, Cell.key?]

/-- A side has a key if one of its rows has. -/
theorem ProbeSide.Keyed.of_keyOf
    {side : ProbeSide}
    {row : Row}
    {key : Key}
    (admitted : side.schema.admits row = true)
    (present : side.keyOf row = some key) :
    side.Keyed := by
  obtain ⟨position, named, there⟩ := Option.bind_eq_some_iff.mp present
  obtain ⟨field, found⟩ := Schema.exists_field_of_position named
  refine ⟨position, field, named, found, ?_⟩
  have suits := Schema.admits_cell admitted found
  rw [Field.admits, Bool.and_eq_true] at suits
  exact ColumnType.isKey_of_key? suits.1 there

/-! ## Filters of one key -/

theorem Key.uniform_of_forall_eq
    {key : Key}
    {keys : List Key}
    (same : ∀ other ∈ keys, other = key) :
    Key.Uniform keys := by
  intro one member another otherMember
  rw [same one member, same another otherMember]
  exact key.sameClass_refl

/-- No other keys were inserted than one. -/
def KeyFilter.Only (key : Key) : KeyFilter → Prop
  | membership _ => True
  | range bounds => ∃ keys, (∀ other ∈ keys, other = key) ∧ bounds.Spans keys

theorem KeyFilter.only_empty
    (key : Key)
    (kind : FilterKind)
    (bloomBytes : Nat) :
    (empty kind bloomBytes).Only key := by
  cases kind with
  | bloom => trivial
  | minMax => exact ⟨[], fun _ member => absurd member List.not_mem_nil, rfl⟩

/-- The key can be inserted again and again. -/
theorem KeyFilter.Only.insertColumn
    {filter : KeyFilter}
    {key : Key}
    {cells : List Cell}
    (only : filter.Only key)
    (same : ∀ cell ∈ cells, cell.key? = some key) :
    ∃ next, filter.insertColumn cells = .ok next ∧ next.Only key := by
  rw [insertColumn_eq]
  cases filter with
  | membership bloom => exact ⟨_, rfl, trivial⟩
  | range bounds =>
      obtain ⟨inserted, old, spans⟩ := only
      have all : ∀ other ∈ inserted ++ cells.filterMap Cell.key?, other = key := by
        intro other member
        obtain before | new := List.mem_append.mp member
        · exact old other before
        · obtain ⟨column, inside, here⟩ := List.mem_filterMap.mp new
          exact Option.some.inj (here.symm.trans (same column inside))
      obtain ⟨extended, inserts, reaches⟩ :=
        KeyRange.spans_insertAll spans _ (Key.uniform_of_forall_eq all)
      refine ⟨range extended, ?_, _, all, reaches⟩
      rw [insertAll, inserts]

namespace Join

variable {build probe : ProbeSide} {join before after : Join} {chunk : Chunk} {key : Key}

theorem exists_dropAbsentKeys
    {side : ProbeSide}
    (keyed : side.Keyed)
    (fits : chunk.schema = side.schema) :
    ∃ kept, dropAbsentKeys chunk side.key = .ok kept := by
  obtain ⟨position, _, named, _⟩ := keyed
  rw [dropAbsentKeys, Chunk.position_eq_ok_iff.mpr (fits ▸ named)]
  exact ⟨_, rfl⟩

/-! ## The build side -/

theorem ends_insertKeys
    {cells : List Cell}
    {done filters : List KeyFilter}
    (same : ∀ cell ∈ cells, cell.key? = some key)
    (only : ∀ filter ∈ filters, filter.Only key)
    (onlyDone : ∀ filter ∈ done, filter.Only key) :
    (insertKeys cells done filters).Ends join
      (fun _ after => ∃ filled, after = { join with filters := filled } ∧
        ∀ filter ∈ filled, filter.Only key)
      fun _ _ => False := by
  induction filters generalizing done with
  | nil => exact ⟨done, rfl, onlyDone⟩
  | cons filter rest inductionHypothesis =>
      obtain ⟨first, later⟩ := List.forall_mem_cons.mp only
      obtain ⟨next, inserted, onlyNext⟩ := first.insertColumn same
      rw [insertKeys, inserted]
      refine inductionHypothesis later fun other member => ?_
      obtain old | new := List.mem_append.mp member
      · exact onlyDone other old
      · exact List.mem_singleton.mp new ▸ onlyNext

/-- Nothing is in the way of a join between two sides that have a key. -/
structure Able
    (build probe : ProbeSide)
    (join : Join) : Prop where
  sides : join.Between build probe
  buildKeyed : build.Keyed
  probeKeyed : probe.Keyed
  sound : join.input.Sound
  known : ∀ root ∈ join.input.roots, root < join.input.arena.size

theorem Able.ready (able : join.Able build probe) : join.input.Ready (· ∈ join.input.roots) :=
  ⟨able.sound.toUndisturbed, able.sound.probed, able.known⟩

theorem Able.tabled
    (able : join.Able build probe)
    (tables : List (Nat × JoinTable)) :
    Able build probe { join with tables } :=
  ⟨⟨able.sides.buildSide, able.sides.probeSide, able.sides.own⟩, able.buildKeyed, able.probeKeyed,
    able.sound, able.known⟩

/-- A chunk is accepted as it is if all its rows have a key. -/
theorem dropAbsentKeys_eq
    {side : ProbeSide}
    (keyed : side.Keyed)
    (fits : chunk.schema = side.schema)
    (present : ∀ row ∈ chunk.rows, side.keyOf row ≠ none) :
    dropAbsentKeys chunk side.key = .ok chunk := by
  obtain ⟨kept, dropped⟩ := exists_dropAbsentKeys keyed fits
  obtain ⟨schema, keep, rows, keeps⟩ := rows_of_dropAbsentKeys dropped
  rw [dropped, Chunk.ext schema (rows.trans (List.filter_eq_self.mpr fun row member => ?_))]
  exact keeps row (fits ▸ present row member)

/-- If all rows of a chunk have the one key that is in the filters, the chunk is accepted as it is. -/
theorem Able.ends_addBuildChunk
    (able : join.Able build probe)
    (building : join.phase = .build)
    (fits : chunk.schema = build.schema)
    (single : ∀ row ∈ chunk.rows, build.keyOf row = some key)
    (only : ∀ filter ∈ join.filters, filter.Only key) :
    (addBuildChunk chunk).Ends join
      (fun _ after => (∀ filter ∈ after.filters, filter.Only key) ∧
        (chunk.isEmpty = true ∧ after = join ∨
          chunk.isEmpty = false ∧ after.tables = join.tables ∧
            (Partitioned.addBuildChunk chunk).Succeeds join.input () after.input))
      fun _ _ => False := by
  have accepts : ∀ filters : List KeyFilter, (∀ filter ∈ filters, filter.Only key) →
      chunk.isEmpty = false →
      (onInput (Partitioned.addBuildChunk chunk)).Ends { join with filters }
        (fun _ after => (∀ filter ∈ after.filters, filter.Only key) ∧
          (chunk.isEmpty = true ∧ after = join ∨
            chunk.isEmpty = false ∧ after.tables = join.tables ∧
              (Partitioned.addBuildChunk chunk).Succeeds join.input () after.input))
        fun _ _ => False := by
    intro filters only full
    rw [ends_onInput]
    exact (Partitioned.serves_addBuildChunk able.ready able.sides.buildSide able.buildKeyed
      fits).and_succeeds.mono (fun _ _ accepted => ⟨only, .inr ⟨full, rfl, accepted.1⟩⟩) fun _ _ => id
  have kept := dropAbsentKeys_eq able.buildKeyed fits fun row member => by simp [single row member]
  rw [addBuildChunk, ends_bind, ends_get]
  dsimp only
  rw [ends_ite]
  refine ⟨fun other => absurd building other, fun _ => ?_⟩
  rw [ends_bind, able.sides.buildKey, kept]
  refine .of_ok rfl ?_
  rw [ends_ite]
  refine ⟨fun empty => ⟨only, .inl ⟨empty, rfl⟩⟩, fun full => ?_⟩
  rw [ends_ite]
  refine ⟨fun _ => accepts join.filters only (Bool.eq_false_iff.mpr full), fun _ => ?_⟩
  obtain ⟨position, located⟩ := able.buildKeyed.keyPosition fits
  obtain ⟨named, -⟩ := Chunk.keyPosition_eq_ok_iff.mp located
  have cells : chunk.keyCells build.key = .ok (chunk.rows.map fun row => Row.cell row position) := by
    rw [Chunk.keyCells, located]
    rfl
  rw [ends_bind, cells]
  refine .of_ok rfl ?_
  rw [ends_bind]
  refine (ends_insertKeys (fun cell member => ?_) only fun _ member => absurd member
    List.not_mem_nil).mono (fun _ _ inserted => ?_) fun _ _ => id
  · obtain ⟨row, inside, rfl⟩ := List.mem_map.mp member
    have present := single row inside
    rwa [ProbeSide.keyOf, ← fits, Schema.keyOf_of_position? named] at present
  · obtain ⟨filled, rfl, onlyFilled⟩ := inserted
    exact accepts filled onlyFilled (Bool.eq_false_iff.mpr full)

/-- The tables are of partitions in memory, and of build rows. -/
structure Furnished
    (build : ProbeSide)
    (join : Join) : Prop where
  loaded : ∀ entry ∈ join.tables, ∀ part, join.input.arena.part? (.build, entry.1) = some part →
    part.spilled = false
  serves : ∀ entry ∈ join.tables, entry.2.build.schema = build.schema

theorem Furnished.add
    {partition : Nat}
    {part : Partition}
    {table : JoinTable}
    {tables : List (Nat × JoinTable)}
    (furnished : join.Furnished build)
    (found : join.input.arena.part? (.build, partition) = some part)
    (loaded : part.spilled = false)
    (serves : table.build.schema = build.schema)
    (fewer : tables ⊆ join.tables) :
    Furnished build { join with tables := (partition, table) :: tables } where
  loaded := by
    refine List.forall_mem_cons.mpr ⟨fun other there => ?_, fun entry member =>
      furnished.loaded entry (fewer member)⟩
    rw [found, Option.some.injEq] at there
    exact there ▸ loaded
  serves := List.forall_mem_cons.mpr ⟨serves, fun entry member => furnished.serves entry (fewer member)⟩

/-- Tables can be made of all partitions in memory. -/
theorem ends_makeTables
    {precise : Prop}
    {contents : Contents}
    {partitions : List Nat}
    (furnished : join.Furnished build)
    (able : join.Able build probe)
    (holds : join.input.Holds precise contents)
    (known : ∀ partition ∈ partitions, partition < join.input.arena.size) :
    (makeTables partitions).Ends join
      (fun _ after => (∃ tables, after = { join with tables }) ∧ after.Furnished build)
      fun _ _ => False := by
  induction partitions generalizing join with
  | nil => exact ⟨⟨join.tables, rfl⟩, furnished⟩
  | cons partition rest inductionHypothesis =>
      obtain ⟨first, later⟩ := List.forall_mem_cons.mp known
      obtain ⟨record, found⟩ := Arena.exists_record_of_lt first
      obtain ⟨declared, declares, held⟩ := holds.holds _ _ (Arena.part?_build found)
      rw [able.sides.buildSide, Option.some.injEq] at declares
      subst declares
      rw [makeTables, ends_bind, ends_onInput, Partitioned.ends_record_of found, ends_ite]
      refine ⟨fun _ => inductionHypothesis furnished able holds later, fun full => ?_⟩
      rw [Bool.or_eq_true, not_or, Bool.not_eq_true, Bool.not_eq_true] at full
      have fits : ∀ chunk ∈ record.build.chunks, chunk.schema = build.schema :=
        fun chunk member => ((held.toStores.chunks_of_inMemory full.1).2 chunk member).schema_eq
      obtain ⟨table, made, schema⟩ := JoinTable.exists_ofChunks able.buildKeyed fits
      rw [ends_bind, ends_get, ends_bind]
      dsimp only
      rw [able.sides.buildSchema, able.sides.buildKey, made]
      refine .of_ok rfl ?_
      rw [ends_bind, ends_modify]
      have more : Furnished build
          { join with tables := (partition, table) :: join.tables.filter (·.1 ≠ partition) } :=
        furnished.add (Arena.part?_build found) full.1 schema
          fun _ member => (List.mem_filter.mp member).1
      refine (inductionHypothesis more (able.tabled _) holds later).mono (fun _ after made => ?_)
        fun _ _ => id
      obtain ⟨⟨tables, rfl⟩, furnished⟩ := made
      exact ⟨⟨tables, rfl⟩, furnished⟩

/-- The build side can be ended. -/
theorem Able.ends_finishBuild
    {precise : Prop}
    {contents : Contents}
    (able : join.Able build probe)
    (building : join.phase = .build)
    (holds : join.input.Holds precise contents)
    (tables : join.tables = []) :
    finishBuild.Ends join (fun _ after => after.input = join.input ∧ after.Furnished build)
      fun _ _ => False := by
  have none : ∀ entry, entry ∉ join.tables := by simp [tables]
  have furnished : join.Furnished build :=
    ⟨fun entry member => absurd member (none entry), fun entry member => absurd member (none entry)⟩
  rw [finishBuild, ends_bind, ends_get]
  dsimp only
  rw [ends_ite]
  refine ⟨fun other => absurd building other, fun _ => ?_⟩
  rw [ends_bind, ends_onInput]
  refine able.sound.serves_checkCancelled.and_succeeds.mono (fun _ checked running => ?_) fun _ _ => id
  obtain ⟨-, rfl⟩ := Partitioned.succeeds_checkCancelled.mp running.1
  rw [ends_bind]
  refine (ends_makeTables furnished able holds able.known).mono (fun _ made making => ?_) fun _ _ => id
  obtain ⟨⟨tables, rfl⟩, furnished⟩ := making
  exact ⟨rfl, furnished.loaded, furnished.serves⟩

/-! ## The probe side -/

theorem Able.evolves
    {targets : Nat → Prop}
    {met : Bool}
    {after : Partitioned}
    (able : join.Able build probe)
    (evolves : join.input.Evolves targets met after) :
    Able build probe { join with input := after } where
  sides := by
    have setting : after.setting = join.input.setting := evolves.setting_eq
    have side? : after.side? = join.input.side? := by
      funext side
      cases side with
      | build =>
          exact congrArg some (congrArg₂ ProbeSide.mk (congrArg Partitioned.Setting.buildSchema setting)
            (congrArg Partitioned.Setting.buildKey setting))
      | probe => exact congrArg Partitioned.Setting.probeSide setting
    exact able.sides.transfer side? rfl
  buildKeyed := able.buildKeyed
  probeKeyed := able.probeKeyed
  sound := evolves.sound able.sound
  known root member := by
    have params : after.params = join.input.params := evolves.params_eq
    rw [Partitioned.roots, params] at member
    exact Nat.lt_of_lt_of_le (able.known root member) evolves.size_le

/-- Probe rows can be taken by these roots. -/
structure Taking
    (build probe : ProbeSide)
    (roots : List Nat)
    (join : Join) : Prop where
  able : join.Able build probe
  roots : join.input.roots = roots
  serves : ∀ entry ∈ join.tables, entry.2.build.schema = build.schema

section Taking

variable {roots : List Nat}

/-- A part of a probe chunk is joined with a table, or stored. -/
theorem upholds_probePart
    {partition : Nat}
    (member : partition ∈ roots)
    (fits : chunk.schema = probe.schema) :
    (probePart partition chunk).Upholds (Taking build probe roots) := by
  intro join taking
  obtain ⟨able, rfl, serves⟩ := taking
  rw [probePart, ends_bind, ends_get]
  cases found : join.tables.lookup partition with
  | some table =>
      obtain ⟨_, _, split, -⟩ := List.lookup_eq_some_iff.mp found
      have schema := serves (partition, table) (by simp [split])
      refine (ends_joinWith able.probeKeyed schema able.sides fits).mono
        (fun _ after same => ?_) fun _ _ => id
      rw [show after = join from same]
      exact ⟨able, rfl, serves⟩
  | none =>
      obtain ⟨record, there⟩ := Arena.exists_record_of_lt (able.known partition member)
      have declared : join.input.probeSide.isSome = true := by
        rw [show join.input.probeSide = some probe from able.sides.probeSide]
        rfl
      have appends : (Partitioned.appendProbe partition chunk).Serves join.input :=
        (Partitioned.upholds_appendProbe member chunk).serves ⟨able.ready, declared⟩
      have follows : (Partitioned.appendProbe partition chunk).Follows
          (Partitioned.Feeds fun _ => True) :=
        Partitioned.follows_appendProbe trivial chunk
      dsimp only
      rw [ends_bind, ends_onInput, Partitioned.ends_record_of there, ends_ite]
      refine ⟨fun _ => ⟨able, rfl, serves⟩, fun _ => ?_⟩
      rw [ends_bind, ends_onInput]
      refine (appends.ends (follows join.input)).mono (fun _ after feeds => ?_) fun _ _ => id
      have params : after.params = join.input.params := feeds.evolves.params_eq
      exact ⟨able.evolves feeds.evolves, congrArg (fun params : Params => List.range params.partitionCount)
        params, serves⟩

theorem upholds_probeParts
    {parts : List (Nat × Option Chunk)}
    (known : ∀ partition part, (partition, some part) ∈ parts →
      partition ∈ roots ∧ part.schema = probe.schema) :
    (probeParts parts).Upholds (Taking build probe roots) := by
  induction parts with
  | nil => exact upholds_pure _
  | cons pair rest inductionHypothesis =>
      have others := inductionHypothesis fun partition part member =>
        known partition part (List.mem_cons_of_mem _ member)
      obtain ⟨partition, none | part⟩ := pair
      · exact others
      · obtain ⟨member, fits⟩ := known partition part List.mem_cons_self
        exact (upholds_probePart member fits).bind fun _ => others.bind fun _ => upholds_pure _

end Taking

/-- Every chunk of the probe side is accepted, whatever its rows. -/
theorem Able.serves_probeChunk
    (able : join.Able build probe)
    (probing : join.phase = .probe)
    (serves : ∀ entry ∈ join.tables, entry.2.build.schema = build.schema)
    (fits : chunk.schema = probe.schema) :
    (probeChunk chunk).Serves join := by
  obtain rfl : join.probe = probe := able.sides.own
  rw [probeChunk, Serves, ends_bind, ends_get]
  dsimp only
  rw [ends_ite]
  refine ⟨fun other => absurd probing other, fun _ => ?_⟩
  rw [ends_bind, ends_onInput]
  refine able.sound.serves_checkCancelled.and_succeeds.mono (fun _ checked running => ?_) fun _ _ => id
  obtain ⟨-, rfl⟩ := Partitioned.succeeds_checkCancelled.mp running.1
  obtain ⟨kept, dropped⟩ := exists_dropAbsentKeys able.probeKeyed fits
  obtain ⟨schema, -⟩ := rows_of_dropAbsentKeys dropped
  obtain ⟨parts, split⟩ := able.probeKeyed.exists_split (schema.trans fits) (join.input.directory 0)
  have deals := Directory.deals_of_split split
  rw [ends_bind, dropped]
  refine .of_ok rfl ?_
  rw [ends_ite]
  refine ⟨fun _ => trivial, fun _ => ?_⟩
  rw [ends_bind, split]
  refine .of_ok rfl ?_
  have takes : (probeParts (join.input.roots.zip parts)).Upholds
      (Taking build join.probe join.input.roots) :=
    upholds_probeParts fun partition part member =>
      ⟨(List.of_mem_zip member).1, (deals.schema_eq (List.of_mem_zip member).2).trans
        (schema.trans fits)⟩
  rw [ends_bind]
  exact (takes join ⟨able, rfl, serves⟩).mono (fun _ _ _ => trivial) fun _ _ => id

end Join
end Spillway
