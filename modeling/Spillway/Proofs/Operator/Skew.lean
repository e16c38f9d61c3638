import Spillway.Proofs.Operator.Supplied
import Spillway.Proofs.Partition.Copartition

/-!
# Skew

However many rows an aggregation has of one key, its table has one group for them. So a partition is split
only if it has rows of different keys, and skew alone never leads to the depth limit: whenever it is
reached there are different keys that no level above it tells apart. Where the first level tells all keys
apart and no sum leaves the range, the end succeeds.
-/

namespace Spillway

open Step

variable {side : ProbeSide} {aggregates : List Aggregate} {rows : List Row} {chunks : List Chunk}

/-! ## Keys that the first level tells apart -/

namespace Partitioned

variable {input : Partitioned} {levels : Nat}

/-- No bucket of the first level has rows of different keys. -/
def Apart
    (input : Partitioned)
    (side : ProbeSide)
    (rows : List Row) : Prop :=
  ∀ one ∈ rows, ∀ another ∈ rows,
    (input.directory 0).bucketOfKey (side.keyOf one) =
        (input.directory 0).bucketOfKey (side.keyOf another) →
      side.keyOf one = side.keyOf another

theorem Apart.not_collides
    (apart : input.Apart side rows)
    (some : 0 < levels) :
    ¬ input.Collides side rows levels := by
  rintro ⟨one, inside, another, alsoInside, different, same⟩
  exact different (apart one inside another alsoInside (same 0 some))

end Partitioned

namespace Aggregation

variable {aggregation : Aggregation}

/-! ## Reasons for failures -/

theorem params_finish (aggregation : Aggregation) :
    (finish.outcome aggregation).2.input.params = aggregation.input.params :=
  Ends.state <| (ends_finish aggregation).mono (fun _ _ ended => ended.1.params_eq)
    fun _ _ evolves => evolves.params_eq

namespace Sample

/-- An aggregation that may split no partition. -/
def flat : Aggregation :=
  valueOf (make ⟨2, 2, 1⟩ keyed.schema keyed.key asked {} {}) (by decide +kernel)

/-- The aggregation after rows of three keys were added, which are too many for two partitions. -/
def crowded : Aggregation :=
  ((addChunk chunk).outcome flat).2

/-- Rows of one key. -/
def alike : Chunk :=
  ⟨keyed.schema, [[.int 7, .int 1], [.int 7, .int 5], [.int 7, .null], [.int 7, .int 2]], by decide⟩

/-- The aggregation after rows of one key were added, which are too many to be kept in memory. -/
def hot : Aggregation :=
  ((addChunk alike).outcome flat).2

end Sample

/-- Where the first level tells all keys apart and no sum leaves the range, the end succeeds. -/
theorem Gathers.exists_succeeds
    (gathers : aggregation.Gathers side aggregates rows)
    (apart : aggregation.input.Apart side rows)
    (within : ∀ key, ¬ side.Exceeds aggregates rows key) :
    ∃ output after, finish.Succeeds aggregation output after := by
  have params := params_finish aggregation
  have ends := gathers.ends_finish
  rw [Ends] at ends
  cases outcome : finish.outcome aggregation with
  | mk result after =>
      rw [outcome] at ends params
      cases result with
      | ok output => exact ⟨output, after, outcome⟩
      | error status =>
          have kept : ∀ {levels}, 0 < levels → ¬ after.input.Collides side rows levels :=
            fun some collides => apart.not_collides some
              ((Partitioned.collides_of_params params).mp collides)
          obtain ⟨refuses, -⟩ := ends
          cases refuses with
          | exceeded _ exceeds => exact absurd exceeds (within _)
          | tooDeep _ collides => exact absurd collides (kept after.input.valid.maxDepth)
          | full _ _ collides => exact absurd collides (kept Nat.one_pos)

/-- While nothing is in the way, every chunk of the schema is accepted. -/
theorem Gathers.serves_addChunk
    {chunk : Chunk}
    (gathers : aggregation.Gathers side aggregates rows)
    (keyed : side.Keyed)
    (fits : chunk.schema = side.schema) :
    (Aggregation.addChunk chunk).Serves aggregation := by
  obtain ⟨⟨asks, contents, rooted⟩, served, -, -⟩ := gathers
  have ready : aggregation.input.Ready (· ∈ aggregation.input.roots) :=
    ⟨served.toUndisturbed, served.probed, fun root member => by
      rw [rooted.size]
      exact List.mem_range.mp member⟩
  exact (ends_onInput _).mpr (Partitioned.serves_addBuildChunk ready asks.side? keyed fits)

/-! ## More rows than numbers -/

/-- A chunk is accepted when its parts are appended to the roots. -/
theorem succeeds_addChunk_iff
    {chunk : Chunk} :
    (addChunk chunk).Succeeds before () after ↔ before.input.cancelled = false ∧ ∃ parts,
      (before.input.directory 0).split chunk before.input.buildKey = .ok parts ∧ ∃ input,
        (Partitioned.deal Partitioned.appendBuild (before.input.roots.zip parts)).Succeeds
          before.input () input ∧ { before with input } = after := by
  simp only [addChunk, succeeds_onInput_iff, Partitioned.addBuildChunk, Partitioned.route, succeeds_bind,
    Partitioned.succeeds_checkCancelled, succeeds_get, succeeds_ofExcept]
  constructor
  · rintro ⟨input, ⟨_, _, ⟨running, rfl⟩, _, _, ⟨rfl, rfl⟩, parts, _, ⟨splits, rfl⟩, dealt⟩, same⟩
    exact ⟨running, parts, splits, input, dealt, same⟩
  · rintro ⟨running, parts, splits, input, dealt, same⟩
    exact ⟨input, ⟨(), _, ⟨running, rfl⟩, _, _, ⟨rfl, rfl⟩, parts, _, ⟨splits, rfl⟩, dealt⟩, same⟩

open Directory.Sample (looped middle doubled most four)

namespace Sample

/-- A side of small integers. -/
def small : ProbeSide :=
  ⟨[⟨"n", .int8, true⟩], "n"⟩

/-- Counts rows in four partitions. -/
def counting : Aggregation :=
  valueOf (make ⟨4, 1000, 2⟩ small.schema small.key [.countStar] {} {}) (by decide +kernel)

theorem made_counting :
    make ⟨4, 1000, 2⟩ small.schema small.key [.countStar] {} {} = .ok counting :=
  eq_ok_valueOf _ _

theorem directory_of_params
    {input : Partitioned}
    (params : input.params = ⟨4, 1000, 2⟩) :
    input.directory 0 = four := by
  simp only [Partitioned.directory, params]
  rfl

variable {count : Nat}

/-- A chunk with one row more than there are numbers is taken like the rows in its middle, followed by its
first row twice. -/
theorem succeeds_addChunk_looped
    (long : 0 < count)
    (full : count + 1 = UInt32.size)
    (first : (addChunk (middle count)).Succeeds counting () between)
    (second : (addChunk doubled).Succeeds between () after) :
    (addChunk (looped count)).Succeeds counting () after := by
  have feeds : counting.input.Feeds (fun _ => True) true between.input :=
    (follows_addChunk _ counting).of_succeeds first
  have setting : between.input.setting = counting.input.setting := feeds.evolves.setting_eq
  have params : between.input.params = counting.input.params :=
    congrArg Partitioned.Setting.params setting
  have key : between.input.buildKey = "n" := congrArg Partitioned.Setting.buildKey setting
  have directory := directory_of_params params
  obtain ⟨running, parts, splits, input, dealt, rfl⟩ := succeeds_addChunk_iff.mp first
  obtain ⟨-, others, more, last, rest, rfl⟩ := succeeds_addChunk_iff.mp second
  have apart : four.split (middle count) "n" = .ok [none, some (middle count), none, none] :=
    Directory.Sample.split_middle long
  have together : four.split doubled "n" = .ok [none, none, none, some doubled] := by decide +kernel
  have roots : counting.input.roots = [0, 1, 2, 3] := rfl
  have stillRoots : Partitioned.roots input = [0, 1, 2, 3] := by
    rw [← roots, Partitioned.roots, Partitioned.roots]
    exact congrArg (fun params : Params => List.range params.partitionCount) params
  cases splits.symm.trans apart
  rw [directory, key] at more
  cases more.symm.trans together
  rw [roots] at dealt
  rw [stillRoots] at rest
  refine succeeds_addChunk_iff.mpr ⟨running, _, Directory.Sample.split_looped long full, last, ?_, rfl⟩
  rw [roots]
  simp only [List.zip_cons_cons, List.zip_nil_left, Partitioned.deal, succeeds_bind, succeeds_pure]
    at dealt rest ⊢
  obtain ⟨_, _, front, -, rfl⟩ := dealt
  exact ⟨(), _, front, rest⟩

theorem keyed_small : small.Keyed :=
  ⟨0, ⟨"n", .int8, true⟩, rfl, rfl, rfl⟩

theorem suits_middle (full : count + 1 = UInt32.size) : (middle count).Suits True small.schema := by
  have length : (middle count).rows.length = count := List.length_replicate
  refine ⟨rfl, fun _ => ?_⟩
  rw [Chunk.Numbered, Chunk.length, length, ← full]
  exact Nat.le_succ count

theorem eq_of_mem_append_doubled
    {row : Row}
    (member : row ∈ (middle count).rows ++ doubled.rows) :
    row = [.int 1] ∨ row = [.int 2] := by
  rcases List.mem_append.mp member with inside | inside
  · exact .inl (List.eq_of_mem_replicate inside)
  · exact .inr (List.eq_of_mem_replicate (show _ ∈ List.replicate 2 [Cell.int 2] from inside))

/-- The first level tells the two keys apart. -/
theorem apart_looped (params : aggregation.input.params = ⟨4, 1000, 2⟩) :
    aggregation.input.Apart small ((middle count).rows ++ doubled.rows) := by
  intro one inside another alsoInside
  rw [directory_of_params params]
  obtain rfl | rfl := eq_of_mem_append_doubled inside <;>
    obtain rfl | rfl := eq_of_mem_append_doubled alsoInside <;> decide +kernel

/-- With one row more than there are numbers, it yields the groups of what it has taken the rows for. -/
theorem exists_run_looped
    (long : 0 < count)
    (full : count + 1 = UInt32.size) :
    ∃ output after, (run none [looped count]).Succeeds counting output after ∧
      (output.flatMap Chunk.values).Perm
        (grouped small [.countStar] ((middle count).rows ++ doubled.rows)) := by
  have gathers : counting.Gathers small [.countStar] [] :=
    gathers_of_make made_counting ⟨rfl, fun _ => rfl, fun _ _ => rfl⟩
  have suits := suits_middle full
  have suitsDoubled : doubled.Suits True small.schema := ⟨rfl, fun _ => by decide⟩
  obtain ⟨_, between, first⟩ := (gathers.serves_addChunk keyed_small suits.schema_eq).exists_succeeds
  have gathers := gathers.addChunk first suits
  obtain ⟨_, filled, second⟩ :=
    (gathers.serves_addChunk keyed_small suitsDoubled.schema_eq).exists_succeeds
  have gathers := gathers.addChunk second suitsDoubled
  have added := succeeds_addChunk_looped long full first second
  have feeds : counting.input.Feeds (fun _ => True) true filled.input :=
    (follows_addChunk _ counting).of_succeeds added
  have params : filled.input.params = ⟨4, 1000, 2⟩ := feeds.evolves.params_eq
  obtain ⟨output, after, ends⟩ := gathers.exists_succeeds (apart_looped params) fun _ exceeds => by
    obtain ⟨_, _, asked, -⟩ := exceeds
    cases List.mem_singleton.mp asked
  have yields := gathers.toCollecting.finish ends
  refine ⟨output, after, ?_, yields⟩
  simp only [run, succeeds_bind, succeeds_onInput_iff, Partitioned.chargeWithin, succeeds_pure,
    List.forM_eq_forM, List.forM_cons, List.forM_nil]
  exact ⟨(), counting, ⟨_, ⟨trivial, rfl⟩, rfl⟩, (), filled, ⟨(), filled, added, trivial, rfl⟩, ends⟩

end Sample

/-- An aggregation that is given one row more than there are numbers has no group for the last one. -/
theorem not_perm_grouped_looped :
    make ⟨4, 1000, 2⟩ Sample.small.schema Sample.small.key [.countStar] {} {} = .ok Sample.counting ∧
      ∃ output after, (run none [looped most]).Succeeds Sample.counting output after ∧
        ¬ (output.flatMap Chunk.values).Perm (grouped Sample.small [.countStar] (looped most).rows) := by
  obtain ⟨output, after, succeeds, yields⟩ := @Sample.exists_run_looped most (by decide) (by decide)
  refine ⟨Sample.made_counting, output, after, succeeds, fun whole => ?_⟩
  have last : groupOf Sample.small [.countStar] (looped most).rows (some (.int 3)) ∈
      grouped Sample.small [.countStar] (looped most).rows := by
    refine List.mem_map_of_mem (List.mem_dedup.mpr (List.mem_map.mpr ⟨[.int 3], ?_, rfl⟩))
    rw [Directory.Sample.rows_looped]
    exact List.mem_append_right _ (List.mem_append_right _ (List.mem_singleton_self _))
  obtain ⟨key, known, same⟩ := List.mem_map.mp ((yields.symm.trans whole).mem_iff.mpr last)
  obtain ⟨row, member, rfl⟩ := List.mem_map.mp (List.mem_dedup.mp known)
  rw [groupOf, groupOf] at same
  have heads := (List.cons.inj same).1
  obtain rfl | rfl := Sample.eq_of_mem_append_doubled member <;> revert heads <;> decide +kernel

end Aggregation
end Spillway
