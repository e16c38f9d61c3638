import Spillway.Operator.JoinTable
import Spillway.Proofs.Operator.Contents

/-!
# Inner joins

An inner join pairs every probe row with every build row of the same key, and rows without a key with
none. Rows of different buckets have different keys, so the join is put together from the joins of the
buckets. A table of build rows yields for each probe row the pairs that the join has for it, if the rows on
either side have different numbers.
-/

namespace Spillway

/-- A probe row followed by each build row of its key. -/
def joinedRows
    (build probe : ProbeSide)
    (buildRows : List Row)
    (row : Row) : List Row :=
  (buildRows.filter fun other =>
    probe.keyOf row ≠ none ∧ build.keyOf other = probe.keyOf row).map (row ++ ·)

/-- Every probe row followed by each build row of its key. -/
def innerJoin
    (build probe : ProbeSide)
    (buildRows probeRows : List Row) : List Row :=
  probeRows.flatMap (joinedRows build probe buildRows)

section InnerJoin

variable {build probe : ProbeSide}

theorem innerJoin_nil_build (probeRows : List Row) : innerJoin build probe [] probeRows = [] := by
  induction probeRows with
  | nil => rfl
  | cons row rest inductionHypothesis =>
      rw [innerJoin, List.flatMap_cons, ← innerJoin, inductionHypothesis]
      rfl

theorem innerJoin_nil_probe (buildRows : List Row) : innerJoin build probe buildRows [] = [] :=
  rfl

theorem innerJoin_append_probe (buildRows probeRows more : List Row) :
    innerJoin build probe buildRows (probeRows ++ more) =
      innerJoin build probe buildRows probeRows ++ innerJoin build probe buildRows more :=
  List.flatMap_append

/-- A join yields something if and only if two rows have the same key. -/
theorem innerJoin_ne_nil_iff {buildRows probeRows : List Row} :
    innerJoin build probe buildRows probeRows ≠ [] ↔
      ∃ row ∈ probeRows, ∃ other ∈ buildRows,
        probe.keyOf row ≠ none ∧ build.keyOf other = probe.keyOf row := by
  simp [innerJoin, joinedRows, List.flatMap_eq_nil_iff]

theorem joinedRows_append
    (buildRows more : List Row)
    (row : Row) :
    joinedRows build probe (buildRows ++ more) row =
      joinedRows build probe buildRows row ++ joinedRows build probe more row := by
  rw [joinedRows, List.filter_append, List.map_append]
  rfl

/-- A probe row without a key is joined with nothing. -/
theorem joinedRows_eq_nil
    {row : Row}
    (absent : probe.keyOf row = none)
    (buildRows : List Row) :
    joinedRows build probe buildRows row = [] := by
  simp [joinedRows, absent]

/-- Only build rows of the key of the probe row matter. -/
theorem joinedRows_filter
    {keep : Row → Bool}
    {row : Row}
    {buildRows : List Row}
    (kept : ∀ other ∈ buildRows, build.keyOf other = probe.keyOf row → probe.keyOf row ≠ none →
      keep other = true) :
    joinedRows build probe (buildRows.filter keep) row = joinedRows build probe buildRows row := by
  rw [joinedRows, joinedRows, List.filter_filter]
  congr 1
  refine List.filter_congr fun other member => ?_
  rw [Bool.eq_iff_iff]
  simp only [Bool.and_eq_true, decide_eq_true_eq]
  exact ⟨fun both => both.1, fun matched => ⟨matched, kept other member matched.2 matched.1⟩⟩

/-- Probe rows without a partner make no difference. -/
theorem innerJoin_filter_probe
    {keep : Row → Bool}
    {buildRows probeRows : List Row}
    (kept : ∀ row ∈ probeRows, joinedRows build probe buildRows row ≠ [] → keep row = true) :
    innerJoin build probe buildRows (probeRows.filter keep) =
      innerJoin build probe buildRows probeRows := by
  refine flatMap_filter fun row member dropped => ?_
  by_contra joined
  rw [kept row member joined] at dropped
  cases dropped

/-- Only build rows of the bucket matter for probe rows of a bucket, if the bucket of a row is decided by
its key. -/
theorem innerJoin_bucket
    (bucket : Option Key → Nat)
    (index : Nat)
    (buildRows probeRows : List Row) :
    innerJoin build probe (buildRows.filter fun row => bucket (build.keyOf row) = index)
        (probeRows.filter fun row => bucket (probe.keyOf row) = index) =
      innerJoin build probe buildRows
        (probeRows.filter fun row => bucket (probe.keyOf row) = index) := by
  refine List.flatMap_congr fun row member => joinedRows_filter fun other _ same _ => ?_
  rw [same]
  exact (List.mem_filter.mp member).2

/-- A join with parts of the probe rows, each for a bucket, is the join with all of them. -/
theorem perm_innerJoin_parts
    {count : Nat}
    {bucket : Row → Nat}
    (bounded : ∀ row, bucket row < count)
    (buildRows probeRows : List Row) :
    ((List.range count).flatMap fun index =>
      innerJoin build probe buildRows (probeRows.filter fun row => bucket row = index)).Perm
      (innerJoin build probe buildRows probeRows) := by
  simp only [innerJoin]
  rw [← List.flatMap_assoc]
  exact (perm_flatMap_filter_range fun row _ => bounded row).flatMap_right _

/-- The joins of the buckets together are the join, if the bucket of a row is decided by its key. -/
theorem perm_innerJoin_buckets
    {count : Nat}
    {bucket : Option Key → Nat}
    (bounded : ∀ key, bucket key < count)
    (buildRows probeRows : List Row) :
    ((List.range count).flatMap fun index =>
      innerJoin build probe (buildRows.filter fun row => bucket (build.keyOf row) = index)
        (probeRows.filter fun row => bucket (probe.keyOf row) = index)).Perm
      (innerJoin build probe buildRows probeRows) := by
  rw [List.flatMap_congr fun index _ => innerJoin_bucket bucket index buildRows probeRows]
  exact perm_innerJoin_parts (fun row => bounded (probe.keyOf row)) buildRows probeRows

/-- The joins with the parts for some of the buckets are the join with the rows of these buckets. -/
theorem perm_innerJoin_some
    {count : Nat}
    {bucket : Row → Nat}
    (bounded : ∀ row, bucket row < count)
    (some : Nat → Bool)
    (buildRows probeRows : List Row) :
    ((List.range count).flatMap fun index => if some index then
        innerJoin build probe buildRows (probeRows.filter fun row => bucket row = index)
      else []).Perm
      (innerJoin build probe buildRows (probeRows.filter fun row => some (bucket row))) := by
  have part : ∀ index, (if some index then
        innerJoin build probe buildRows (probeRows.filter fun row => bucket row = index) else []) =
      innerJoin build probe buildRows
        ((probeRows.filter fun row => some (bucket row)).filter fun row => bucket row = index) := by
    intro index
    rw [List.filter_filter]
    split
    · next here =>
      refine congrArg _ (List.filter_congr fun row _ => ?_)
      by_cases same : bucket row = index <;> simp [same, here]
    · next absent =>
      rw [List.filter_eq_nil_iff.mpr, innerJoin_nil_probe]
      intro row _
      by_cases same : bucket row = index <;> simp [same, absent]
  rw [List.flatMap_congr fun index _ => part index]
  exact perm_innerJoin_parts bounded buildRows _

end InnerJoin

namespace JoinTable

/-- The build rows with the numbers that are found for a key. -/
def rowsOf (table : JoinTable) (key : Key) : List Row :=
  (table.find key).filterMap fun number => table.build.rows[number.toNat]?

/-- A table finds the rows of every key, in order. -/
def Finds
    (table : JoinTable)
    (build : ProbeSide)
    (rows : List Row) : Prop :=
  ∀ key, table.rowsOf key = rows.filter fun row => build.keyOf row = some key

/-- A table finds the rows that it is made of, if they have different numbers. -/
theorem finds_ofChunks
    {build : ProbeSide}
    {chunks : List Chunk}
    {table : JoinTable}
    (made : ofChunks build.schema chunks build.key = .ok table)
    (fits : ∀ chunk ∈ chunks, chunk.schema = build.schema)
    (few : (chunks.flatMap Chunk.rows).length ≤ UInt32.size) :
    table.Finds build (chunks.flatMap Chunk.rows) := by
  intro key
  simp only [ofChunks, bind_eq_ok_iff, mapError_eq_ok_iff] at made
  obtain ⟨whole, concatenated, made⟩ := made
  obtain ⟨schema, rows⟩ := Chunk.rows_of_concat fits concatenated
  rw [← rows] at few ⊢
  split at made
  · next empty =>
    rw [pure_eq_ok_iff] at made
    subst made
    have none : whole.rows = [] := List.isEmpty_iff.mp empty
    simp [rowsOf, none]
  · simp only [bind_eq_ok_iff, pure_eq_ok_iff] at made
    obtain ⟨position, located, rfl⟩ := made
    obtain ⟨named, _⟩ := Chunk.keyPosition_eq_ok_iff.mp located
    rw [schema] at named
    rw [rowsOf, find, getD_numbersByKey]
    simp only [ProbeSide.keyOf, Schema.keyOf_of_position? named]
    exact filterMap_numbersOf few fun row => Chunk.rowKey position row = some key

/-- A table can be made of chunks that fit a side with a key. -/
theorem exists_ofChunks
    {build : ProbeSide}
    {chunks : List Chunk}
    (keyed : build.Keyed)
    (fits : ∀ chunk ∈ chunks, chunk.schema = build.schema) :
    ∃ table, ofChunks build.schema chunks build.key = .ok table ∧ table.build.schema = build.schema := by
  obtain ⟨whole, concatenated⟩ := Chunk.exists_concat fits
  obtain ⟨schema, -⟩ := Chunk.rows_of_concat fits concatenated
  obtain ⟨position, located⟩ := keyed.keyPosition schema
  unfold ofChunks
  rw [concatenated]
  by_cases empty : whole.isEmpty = true
  · exact ⟨_, if_pos empty, schema⟩
  · refine ⟨⟨whole, numbersByKey position whole.rows.zipIdx⟩, (if_neg empty).trans ?_, schema⟩
    rw [located]
    rfl

theorem joinedRow?_eq_some_iff
    {probe build : List Row}
    {pair : UInt32 × UInt32}
    {row : Row} :
    joinedRow? probe.toArray build.toArray pair = some row ↔
      ∃ left right, probe[pair.1.toNat]? = some left ∧ build[pair.2.toNat]? = some right ∧
        left ++ right = row := by
  simp [joinedRow?, Option.bind_eq_some_iff]

/-- A chunk that fits a side with a key can be joined with a table of rows that fit. -/
theorem exists_joinChunk
    {build probe : ProbeSide}
    {table : JoinTable}
    {chunk : Chunk}
    (keyed : probe.Keyed)
    (schema : table.build.schema = build.schema)
    (fits : chunk.schema = probe.schema) :
    ∃ joined, table.joinChunk (probe.schema ++ build.schema) chunk probe.key = .ok joined := by
  obtain ⟨position, located⟩ := keyed.keyPosition fits
  have joinedFits : ∀ row ∈ (chunk.rows.zipIdx.flatMap (table.pairsOf position)).filterMap
      (joinedRow? chunk.rows.toArray table.build.rows.toArray),
      (probe.schema ++ build.schema).admits row = true := by
    intro row member
    obtain ⟨pair, -, joins⟩ := List.mem_filterMap.mp member
    obtain ⟨left, right, inProbe, inBuild, rfl⟩ := joinedRow?_eq_some_iff.mp joins
    exact Schema.admits_append (fits ▸ chunk.fits left (List.mem_of_getElem? inProbe))
      (schema ▸ table.build.fits right (List.mem_of_getElem? inBuild))
  simp only [joinChunk, located, schema, fits]
  by_cases empty : (chunk.rows.zipIdx.flatMap (table.pairsOf position)).isEmpty = true
  · exact ⟨none, if_pos empty⟩
  · refine ⟨some ⟨_, _, joinedFits⟩, (if_neg empty).trans ?_⟩
    rw [Chunk.assemble_of_fits joinedFits]
    rfl

/-- A row of a chunk whose rows have different numbers is joined with the rows found for its key. -/
theorem joinedRows_of_pairsOf
    {build probe : ProbeSide}
    {rows : List Row}
    {table : JoinTable}
    {chunk : Chunk}
    {position : Nat}
    {found : Row × Nat}
    (named : probe.schema.position? probe.key = some position)
    (finds : table.Finds build rows)
    (numbered : chunk.Numbered)
    (member : found ∈ chunk.rows.zipIdx) :
    (table.pairsOf position found).filterMap
        (joinedRow? chunk.rows.toArray table.build.rows.toArray) =
      joinedRows build probe rows found.1 := by
  have self := getElem?_number numbered member
  rw [pairsOf, joinedRows, ProbeSide.keyOf, Schema.keyOf_of_position? named]
  cases Chunk.rowKey position found.1 with
  | none => simp
  | some key =>
      have pairs : ∀ number, joinedRow? chunk.rows.toArray table.build.rows.toArray
          (found.2.toUInt32, number) =
            table.build.rows[number.toNat]?.map (found.1 ++ ·) := by
        intro number
        rw [joinedRow?, List.getElem?_toArray, List.getElem?_toArray, self]
        cases table.build.rows[number.toNat]? <;> rfl
      have those := finds key
      rw [rowsOf] at those
      simp only [List.filterMap_map, Function.comp_def, pairs, ← List.map_filterMap, those]
      simp

/-- A chunk whose rows have different numbers is joined with a table as with the rows that the table
finds. -/
theorem rows_of_joinChunk
    {build probe : ProbeSide}
    {rows : List Row}
    {table : JoinTable}
    {output : Schema}
    {chunk : Chunk}
    {joined : Option Chunk}
    (succeeds : table.joinChunk output chunk probe.key = .ok joined)
    (finds : table.Finds build rows)
    (suits : chunk.Suits True probe.schema) :
    joined.toList.flatMap Chunk.rows = innerJoin build probe rows chunk.rows := by
  simp only [joinChunk, bind_eq_ok_iff] at succeeds
  obtain ⟨position, located, succeeds⟩ := succeeds
  obtain ⟨named, _⟩ := Chunk.keyPosition_eq_ok_iff.mp located
  rw [suits.schema_eq] at named
  have whole : (chunk.rows.zipIdx.flatMap (table.pairsOf position)).filterMap
        (joinedRow? chunk.rows.toArray table.build.rows.toArray) =
      innerJoin build probe rows chunk.rows := by
    calc (chunk.rows.zipIdx.flatMap (table.pairsOf position)).filterMap
          (joinedRow? chunk.rows.toArray table.build.rows.toArray)
        = chunk.rows.zipIdx.flatMap fun found => joinedRows build probe rows found.1 := by
          rw [List.filterMap_flatMap]
          exact List.flatMap_congr fun found member =>
            joinedRows_of_pairsOf named finds (suits.numbered trivial) member
      _ = (chunk.rows.zipIdx.map Prod.fst).flatMap (joinedRows build probe rows) :=
          (List.flatMap_map ..).symm
      _ = innerJoin build probe rows chunk.rows := by rw [List.zipIdx_map_fst, innerJoin]
  split at succeeds
  · next empty =>
    rw [pure_eq_ok_iff] at succeeds
    subst succeeds
    rw [← whole, List.isEmpty_iff.mp empty]
    rfl
  · simp only [bind_eq_ok_iff, mapError_eq_ok_iff, pure_eq_ok_iff] at succeeds
    obtain ⟨chunk, assembled, rfl⟩ := succeeds
    simp [(Chunk.eq_of_assemble assembled).2, whole]

end JoinTable

end Spillway
