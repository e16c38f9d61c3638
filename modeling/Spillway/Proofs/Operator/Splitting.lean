import Spillway.Proofs.Operator.DepthLimit

/-!
# How often partitions are split

Only a visit that splits its partition counts a split. All other visits leave the count as it is, and all
other partitions as they are.
-/

namespace Spillway

open Step

namespace Partitioned

variable {partition : Nat} {before after : Partitioned} {α β : Type}

/-- No split was counted. -/
def SplitsNone (_ : Bool) (before after : Partitioned) : Prop :=
  after.repartitions = before.repartitions

instance : Composes SplitsNone where
  refl _ _ := rfl
  trans one another := another.trans one

theorem splitsNone_of_feeds
    {step : Step Partitioned α}
    (follows : step.Follows (Feeds fun _ => True)) :
    step.Follows SplitsNone :=
  fun input => (follows input).mono (fun _ _ feeds => feeds.repartitions_eq)
    fun _ _ feeds => feeds.repartitions_eq

theorem splitsNone_onArena (step : Arena → Except ArenaFault (α × Arena)) :
    (onArena step).Follows SplitsNone := by
  intro input
  unfold Ends onArena outcome
  simp only [ExceptT.run, StateT.run]
  cases step input.arena <;> exact rfl

theorem splitsNone_onBuild (step : Step Holding α) : (onBuild partition step).Follows SplitsNone :=
  fun _ => ends_onBuild_of (fun _ _ => .of_forall (fun _ _ => rfl) fun _ _ => rfl) fun _ => rfl

theorem splitsNone_onProbe
    {absent : Step Partitioned α}
    (otherwise : absent.Follows SplitsNone)
    (step : Step Holding α) :
    (onProbe partition absent step).Follows SplitsNone := by
  refine fun input => ends_onProbe_of (otherwise input) (fun _ _ _ _ => ?_) fun _ => rfl
  exact .of_forall (fun _ _ => rfl) fun _ _ => rfl

theorem splitsNone_setState (state : PartitionState) : (setState partition state).Follows SplitsNone :=
  follows_modify fun _ => rfl

theorem splitsNone_addChildren
    (parent level : Nat)
    (buckets : List Nat) :
    (addChildren parent level buckets).Follows SplitsNone := by
  induction buckets with
  | nil => exact follows_pure _
  | cons bucket rest inductionHypothesis =>
      exact follows_get.bind fun _ => (splitsNone_onArena _).bind fun _ =>
        inductionHypothesis.bind fun _ => follows_pure _

theorem splitsNone_keepNonEmpty (children : List Nat) : (keepNonEmpty children).Follows SplitsNone := by
  induction children with
  | nil => exact follows_pure _
  | cons child rest inductionHypothesis =>
      refine follows_record.bind fun record => ?_
      split
      · exact (splitsNone_setState _).bind fun _ => (splitsNone_onProbe (follows_pure _) _).bind fun _ =>
          inductionHypothesis
      · exact inductionHypothesis.bind fun _ => follows_pure _

theorem splitsNone_loadBuild : (loadBuild partition).Follows SplitsNone := by
  refine (splitsNone_setState _).bind fun _ => follows_record.bind fun loading => ?_
  split
  · exact follows_pure _
  · refine (splitsNone_onBuild _).bind fun chunks => ?_
    have charges : (chargeBytes loading.build.estimatedSize).Follows SplitsNone :=
      follows_modify fun _ => rfl
    exact charges.bind fun _ => (follows_modify fun _ => rfl).bind fun _ => follows_pure _

theorem splitsNone_complete : (complete partition).Follows SplitsNone := by
  have releases : ∀ bytes, (releaseBytes bytes).Follows SplitsNone := fun _ => follows_modify fun _ => rfl
  refine follows_record.bind fun record => (splitsNone_onBuild _).bind fun _ =>
    (splitsNone_onProbe (follows_pure _) _).bind fun _ => (splitsNone_setState _).bind fun _ =>
    (releases _).bind fun _ => follows_get.bind fun input => ?_
  split
  · exact follows_pure _
  · exact (follows_modify fun _ => rfl).bind fun _ => releases _

/-! ## Counting a split -/

/-- Wherever the step succeeds, one split more was counted. -/
def CountsSplit (step : Step Partitioned α) : Prop :=
  ∀ input, step.Ends input (fun _ after => after.repartitions = input.repartitions + 1) fun _ _ => True

theorem countsSplit_bind
    {first : Step Partitioned α}
    {second : α → Step Partitioned β}
    (unsplit : first.Follows SplitsNone)
    (counts : ∀ value, CountsSplit (second value)) :
    CountsSplit (first >>= second) := by
  intro input
  rw [ends_bind]
  refine (unsplit input).mono (fun value between same => ?_) fun _ _ _ => trivial
  exact (counts value between).mono (fun _ _ more => more.trans (congrArg (· + 1) same))
    fun _ _ => id

theorem CountsSplit.bind
    {first : Step Partitioned α}
    {second : α → Step Partitioned β}
    (counts : CountsSplit first)
    (unsplit : ∀ value, (second value).Follows SplitsNone) :
    CountsSplit (first >>= second) := by
  intro input
  rw [ends_bind]
  refine (counts input).mono (fun value between more => ?_) fun _ _ => id
  exact (unsplit value between).mono (fun _ _ same => Eq.trans same more) fun _ _ _ => trivial

/-- Splitting a partition counts one split. -/
theorem countsSplit_repartition (partition : Nat) : CountsSplit (repartition partition) := by
  refine countsSplit_bind follows_record fun before => countsSplit_bind follows_get fun input => ?_
  dsimp only
  split
  · exact fun _ => trivial
  refine countsSplit_bind (splitsNone_setState _) fun _ => countsSplit_bind (splitsNone_addChildren _ _ _)
    fun children => countsSplit_bind follows_record fun record => countsSplit_bind (splitsNone_of_feeds
      (follows_dealBuild trivial (fun _ _ => trivial) _ _ _)) fun _ => ?_
  have counts : CountsSplit (modify fun input : Partitioned =>
      { input with repartitions := input.repartitions + 1 }) := fun _ => rfl
  have giveUp : CountsSplit (do
      onBuild partition Partition.release
      releaseProbe partition
      setState partition .repartitioned
      modify fun input => { input with repartitions := input.repartitions + 1 }
      keepNonEmpty children : Step Partitioned (List Nat)) :=
    countsSplit_bind (splitsNone_onBuild _) fun _ =>
      countsSplit_bind (splitsNone_onProbe (follows_pure _) _) fun _ =>
      countsSplit_bind (splitsNone_setState _) fun _ => counts.bind fun _ =>
      splitsNone_keepNonEmpty children
  split
  · exact giveUp
  · exact countsSplit_bind follows_probeBlocks fun _ => countsSplit_bind (splitsNone_of_feeds
      (follows_dealProbe trivial (fun _ _ => trivial) _ _ _)) fun _ => giveUp

end Partitioned

namespace Join

variable {partition : Nat} {before after : Join} {record : PartitionRecord}

/-! ## Visits -/

/-- A visit that does not split its partition leaves all as it is, completes the partition, or joins it,
which is to load it, read its probe rows and complete it. -/
theorem Visited.of_done
    {relation : Bool → Partitioned → Partitioned → Prop}
    [Composes relation]
    {output : List Chunk}
    (visited : Visited partition record before (.done output) after)
    (loads : (Partitioned.loadBuild partition).Follows relation)
    (reads : ∀ block, (Partitioned.restoreProbeBlock partition block).Follows relation)
    (completes : (Partitioned.complete partition).Follows relation) :
    relation true before.input after.input := by
  cases visited with
  | closed => exact Composes.refl true before.input
  | completed _ _ completed => exact (completes before.input).of_succeeds completed
  | joined _ _ joins => exact ((within_joinPartition loads reads completes before).of_succeeds joins).1

/-- All other partitions are left as they are, and no split is counted. -/
theorem Visited.spares_of_done
    {output : List Chunk}
    (visited : Visited partition record before (.done output) after) :
    Partitioned.Spares partition true before.input after.input :=
  visited.of_done Partitioned.spares_loadBuild (fun _ => Partitioned.spares_onProbe (follows_pure _) _)
    Partitioned.spares_complete

theorem Visited.repartitions_of_done
    {output : List Chunk}
    (visited : Visited partition record before (.done output) after) :
    after.input.repartitions = before.input.repartitions :=
  visited.of_done Partitioned.splitsNone_loadBuild
    (fun _ => Partitioned.splitsNone_onProbe (follows_pure _) _) Partitioned.splitsNone_complete

end Join
end Spillway
