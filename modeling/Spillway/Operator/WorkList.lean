import Spillway.Status

/-!
# Work lists

Partitions are processed one after the other, and a partition that is split is replaced by its
children, which are processed before the partitions that come after it. Every split goes one level
deeper, so the work ends.
-/

namespace Spillway

/-- What comes of visiting a partition: output, or the partitions to visit in its place. -/
inductive Visit (α : Type) where
  | done (output : List α)
  | split (partitions : List Nat)

/-- The output of a visit, where the partitions to visit in its place are left to another step. -/
def Visit.follow {σ α : Type} (deeper : List Nat → Step σ (List α)) : Visit α → Step σ (List α)
  | done output => return output
  | split partitions => deeper partitions

/-- Visits partitions in order, leaves those that come of a split to another step, and collects the
output. -/
def drainWith {σ α : Type}
    (visit : Nat → Step σ (Visit α))
    (deeper : List Nat → Step σ (List α)) :
    List Nat → Step σ (List α)
  | [] => return []
  | partition :: rest => do
    let result ← visit partition
    let output ← result.follow deeper
    let others ← drainWith visit deeper rest
    return output ++ others

/-- Visits partitions in order, those of a split one in its place, and collects the output. At most
`depth` splits lie within one another. -/
def drain {σ α : Type} (visit : Nat → Step σ (Visit α)) : Nat → List Nat → Step σ (List α)
  | 0 => drainWith visit fun _ =>
    Step.fail (.internal "partitions were split below the depth limit")
  | depth + 1 => drainWith visit (drain visit depth)

end Spillway
