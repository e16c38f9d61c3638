import Spillway.Proofs.Operator.Processing

/-!
# Partitions that were not split

As long as no partition is split, an operator has one root for each bucket of level zero, and every
root holds the build rows of its bucket in the order in which they were accepted. New input starts
that way, and accepting chunks and spilling partitions keep it so.
-/

namespace Spillway

namespace Partitioned

variable {precise : Prop}

/-- The input has its roots only. Where this is to be `precise`, they hold the accepted build rows, each in
the root of its bucket. -/
structure Rooted
    (precise : Prop)
    (input : Partitioned)
    (rows : List Row)
    (contents : Contents) : Prop where
  holds : input.Holds precise contents
  size : input.arena.size = input.params.partitionCount
  place : ∀ root < input.params.partitionCount,
    input.arena.place? root = some ⟨none, 0, root, .opened⟩
  build : precise → ∀ root < input.params.partitionCount,
    contents (.build, root) = rows.filter fun row => input.bucketOf .build 0 row = root

/-- Steps that keep the outline and the build rows keep the roots. -/
theorem Rooted.transfer
    {before after : Partitioned}
    {rows more : List Row}
    {contents filled : Contents}
    (rooted : before.Rooted precise rows contents)
    (outline : after.outline = before.outline)
    (holds : after.Holds precise filled)
    (build : precise → ∀ root < before.params.partitionCount,
      filled (.build, root) = more.filter fun row => before.bucketOf .build 0 row = root) :
    after.Rooted precise more filled where
  holds := holds
  size := by rw [size_of_outline outline, params_of_outline outline, rooted.size]
  place := by rw [place?_of_outline outline, params_of_outline outline]; exact rooted.place
  build := by
    rw [params_of_outline outline,
      bucketOf_of_setting (params_of_outline outline) (side?_of_outline outline)]
    exact build

/-- Steps that change no partition keep the rows of the roots. -/
theorem Rooted.of_quiet
    {before after : Partitioned}
    {rows : List Row}
    {contents : Contents}
    (rooted : before.Rooted precise rows contents)
    (quiet : before.Quiet after) :
    after.Rooted precise rows contents :=
  rooted.transfer quiet.outline (quiet.holds rooted.holds) rooted.build

/-- There are numbers for the rows of every bucket of level zero. -/
def Numbers
    (input : Partitioned)
    (rows : List Row) : Prop :=
  ∀ root < input.params.partitionCount,
    (rows.filter fun row => input.bucketOf .build 0 row = root).length ≤ UInt32.size

theorem Numbers.of_outline
    {before after : Partitioned}
    {rows : List Row}
    (numbers : before.Numbers rows)
    (outline : after.outline = before.outline) :
    after.Numbers rows := by
  rw [Numbers, params_of_outline outline,
    bucketOf_of_setting (params_of_outline outline) (side?_of_outline outline)]
  exact numbers

/-- If there are numbers for the rows that were accepted, there are numbers for those of every partition. -/
theorem Rooted.loadable
    {input : Partitioned}
    {kept rows : List Row}
    {contents : Contents}
    (rooted : input.Rooted precise kept contents)
    (sublist : kept.Sublist rows)
    (numbers : precise → input.Numbers rows) :
    contents.Loadable precise := by
  intro is root
  by_cases known : root < input.params.partitionCount
  · rw [rooted.build is root known]
    exact Nat.le_trans (sublist.filter _).length_le (numbers is root known)
  · rw [rooted.holds.absent _ (part?_of_size_le (rooted.size ▸ Nat.le_of_not_lt known))]
    exact Nat.zero_le _

/-- There is no partition but the roots. -/
theorem Rooted.cleared
    {input : Partitioned}
    {rows : List Row}
    {contents : Contents}
    (rooted : input.Rooted precise rows contents) :
    input.Cleared input.roots contents := by
  intro root outside _ found
  have known := Arena.lt_size_of_place? found
  rw [rooted.size] at known
  exact absurd (List.mem_range.mpr known) outside

/-- All roots are open. -/
theorem Rooted.awaits
    {input : Partitioned}
    {rows : List Row}
    {contents : Contents}
    (rooted : input.Rooted precise rows contents) :
    input.Awaits input.roots := by
  intro root member record found _ _
  have placed := rooted.place root (List.mem_range.mp member)
  rw [Arena.place?_of_record found, Option.some.injEq] at placed
  exact congrArg PartitionPlace.state placed

/-- Accepting a chunk adds its rows to those of the roots. -/
theorem Rooted.addBuildChunk
    {chunk : Chunk}
    {before after : Partitioned}
    {rows : List Row}
    {contents : Contents}
    {value : Unit}
    (rooted : before.Rooted precise rows contents)
    (succeeds : (addBuildChunk chunk).Succeeds before value after)
    (suits : chunk.Suits precise before.buildSchema) :
    after.outline = before.outline ∧
      ∃ filled, after.Rooted precise (rows ++ chunk.rows) filled ∧
        ∀ root, filled (.probe, root) = contents (.probe, root) := by
  obtain ⟨filled, held, deals, fills⟩ := succeeds_addBuildChunk succeeds rooted.holds suits
  refine ⟨fills.outline, filled, rooted.transfer fills.outline held fun is root bounded => ?_, ?_⟩
  · rw [deals.routed is, Contents.receive, if_pos rfl, rooted.build is root bounded, List.filter_append]
    simp only [Option.some.injEq]
  · exact fun root => deals.others _ (by simp)

/-- Charges the input to an account of the ledger, if one is given. -/
def chargeWithin : Option Nat → Step Partitioned Unit
  | none => return ()
  | some account => chargeTo account

/-- Charging an account touches the ledger alone. -/
theorem succeeds_chargeWithin
    {account : Option Nat}
    {before after : Partitioned}
    {value : Unit}
    (succeeds : (chargeWithin account).Succeeds before value after) :
    before.Quiet after := by
  cases account with
  | none =>
      rw [chargeWithin, Step.succeeds_pure] at succeeds
      exact succeeds.2 ▸ .refl _
  | some account =>
      simp only [chargeWithin, chargeTo, Step.succeeds_bind, Step.succeeds_get] at succeeds
      obtain ⟨_, _, ⟨rfl, rfl⟩, charged⟩ := succeeds
      split at charged
      · simp only [Step.succeeds_bind, Step.succeeds_fail, false_and, exists_false] at charged
      · rw [Step.succeeds_modify] at charged
        subst charged
        exact ⟨rfl, rfl, .refl _⟩

/-- What input is made with. -/
structure Made
    (input : Partitioned)
    (params : Params)
    (build : ProbeSide)
    (probeSide : Option ProbeSide)
    (area : SpillArea) : Prop where
  params : input.params = params
  buildSchema : input.buildSchema = build.schema
  buildKey : input.buildKey = build.key
  probeSide : input.probeSide = probeSide
  area : input.area = area

theorem getElem?_newRoots
    (bare : Partitioned)
    (root : Nat) :
    (bare.roots.map (bare.newRecord none 0)).toArray[root]? =
      if root < bare.params.partitionCount then some (bare.newRecord none 0 root) else none := by
  rw [List.getElem?_toArray, List.getElem?_map, roots]
  split
  · next inside => rw [List.getElem?_range inside, Option.map_some]
  · next outside =>
    rw [List.getElem?_eq_none (by simpa using outside), Option.map_none]

/-- Empty roots hold no rows. -/
theorem rooted_newRoots
    (bare : Partitioned)
    (faithful : bare.area.store.damage = []) :
    Rooted precise
      { bare with arena := { records := (bare.roots.map (bare.newRecord none 0)).toArray } }
      [] (fun _ => []) := by
  have parts : ∀ slot partition,
      Arena.part? ⟨(bare.roots.map (bare.newRecord none 0)).toArray⟩ slot = some partition →
      ∃ declared, bare.side? slot.1 = some declared ∧
        partition.Holds precise bare.area.store declared.schema [] ∧ partition.blocks = [] ∧
          (slot.1 = .probe → partition.spilled = true) := by
    rintro ⟨side, root⟩ partition found
    rw [Arena.part?, getElem?_newRoots] at found
    split at found
    · cases side with
      | build =>
          cases found
          exact ⟨_, rfl, Partition.holds_empty _ _, rfl, fun other => absurd other Side.noConfusion⟩
      | probe =>
          obtain ⟨declared, declares, rfl⟩ := Option.map_eq_some_iff.mp found
          exact ⟨declared, declares, Partition.holds_emptySpilled _ _, rfl, fun _ => rfl⟩
    · cases found
  refine ⟨⟨faithful, ?_, fun _ _ => rfl, ?_, ?_⟩, ?_, ?_, fun _ _ _ => rfl⟩
  · intro slot partition found
    obtain ⟨declared, declares, holds, _⟩ := parts slot partition found
    exact ⟨declared, declares, holds⟩
  · intro slot other partition another _ found _ path member
    obtain ⟨_, _, _, none, _⟩ := parts slot partition found
    simp [Partition.paths, none] at member
  · intro root partition found
    obtain ⟨_, _, _, _, spilled⟩ := parts _ partition found
    exact spilled rfl
  · simp [Arena.size, roots]
  · intro root bounded
    rw [Arena.place?, getElem?_newRoots, if_pos bounded]
    rfl

/-- What new input is made from: it has no records yet, and an account of its own. -/
def bare
    (operator : String)
    (params : Params)
    (valid : params.Valid)
    (build : ProbeSide)
    (probeSide : Option ProbeSide)
    (area : SpillArea)
    (ledger : Ledger) :
    Partitioned where
  operator
  params
  valid
  buildSchema := build.schema
  buildKey := build.key
  probeSide
  area
  ledger := (ledger.openAccount operator params.memLimit).2
  account := (ledger.openAccount operator params.memLimit).1

/-- New input differs from what it is made from by its roots. -/
theorem exists_bare_of_make
    {operator : String}
    {params : Params}
    {buildSchema : Schema}
    {buildKey : String}
    {probeSide : Option ProbeSide}
    {area : SpillArea}
    {ledger : Ledger}
    {input : Partitioned}
    (made : make operator params buildSchema buildKey probeSide area ledger = .ok input) :
    ∃ (valid : params.Valid) (start : Partitioned),
      start = bare operator params valid ⟨buildSchema, buildKey⟩ probeSide area ledger ∧
        { start with arena := { records := (start.roots.map (start.newRecord none 0)).toArray } } =
          input := by
  unfold make at made
  simp only [bind_eq_ok_iff, mapError_eq_ok_iff] at made
  obtain ⟨valid, _, made⟩ := made
  refine ⟨valid.down, _, rfl, ?_⟩
  split at made
  · obtain ⟨_, thrown, _⟩ := bind_eq_ok_iff.mp made
    exact absurd thrown throw_ne_ok
  · split at made
    · exact pure_eq_ok_iff.mp made
    · split at made
      · obtain ⟨_, thrown, _⟩ := bind_eq_ok_iff.mp made
        exact absurd thrown throw_ne_ok
      · exact pure_eq_ok_iff.mp made

/-- New input is made with what it is given, and with new roots. -/
theorem made_of_make
    {operator : String}
    {params : Params}
    {buildSchema : Schema}
    {buildKey : String}
    {probeSide : Option ProbeSide}
    {area : SpillArea}
    {ledger : Ledger}
    {input : Partitioned}
    (made : make operator params buildSchema buildKey probeSide area ledger = .ok input) :
    input.Made params ⟨buildSchema, buildKey⟩ probeSide area ∧
      ∃ bare : Partitioned,
        { bare with arena := { records := (bare.roots.map (bare.newRecord none 0)).toArray } } =
          input := by
  obtain ⟨valid, start, rfl, rfl⟩ := exists_bare_of_make made
  exact ⟨⟨rfl, rfl, rfl, rfl, rfl⟩, _, rfl⟩

/-- New input has empty roots. -/
theorem rooted_of_make
    {operator : String}
    {params : Params}
    {buildSchema : Schema}
    {buildKey : String}
    {probeSide : Option ProbeSide}
    {area : SpillArea}
    {ledger : Ledger}
    {input : Partitioned}
    (made : make operator params buildSchema buildKey probeSide area ledger = .ok input)
    (faithful : area.store.damage = []) :
    input.Rooted precise [] (fun _ => []) := by
  obtain ⟨setUp, bare, rfl⟩ := made_of_make made
  refine rooted_newRoots bare ?_
  rw [← faithful, ← setUp.area]

end Partitioned

end Spillway
