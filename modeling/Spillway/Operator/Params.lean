import Spillway.Partition.FanOut

/-!
# Sizing of an operator

An operator that partitions its input is sized by its fan-out, its memory limit and the number of
levels it may split partitions to.
-/

namespace Spillway

/-- Sizing of one operator. -/
structure Params where
  partitionCount : Nat
  memLimit : Nat
  maxDepth : Nat
  deriving DecidableEq, Repr

namespace Params

/-- Why a sizing cannot be used. -/
inductive Fault where
  | partitionCount (found : Nat)
  | maxDepth
  | memLimit
  deriving DecidableEq, Repr

/-- The status that reports the fault. -/
def Fault.status : Fault → Status
  | partitionCount found =>
    .invalidArgument ("partition_count must be a power of two in [2, " ++ toString FanOut.max ++
      "], got " ++ toString found)
  | maxDepth => .invalidArgument "max_partition_depth must be positive"
  | memLimit => .invalidArgument "mem_limit must be positive"

/-- Whether an operator can be run with the sizing. -/
structure Valid (params : Params) : Prop where
  partitionCount : FanOut.Valid params.partitionCount
  maxDepth : 0 < params.maxDepth
  memLimit : 0 < params.memLimit

/-- Accepts a sizing, or says what is wrong with it first. -/
def validate (params : Params) : Except Fault (PLift params.Valid) :=
  if partitionCount : FanOut.Valid params.partitionCount then
    if maxDepth : 0 < params.maxDepth then
      if memLimit : 0 < params.memLimit then .ok ⟨⟨partitionCount, maxDepth, memLimit⟩⟩
      else .error .memLimit
    else .error .maxDepth
  else .error (.partitionCount params.partitionCount)

/-- The sizing for an estimated build side, where an unknown estimate is zero. -/
def forEstimate (estimated memLimit configuredCount maxDepth : Nat) : Params where
  partitionCount := FanOut.forBudget memLimit estimated configuredCount
  memLimit
  maxDepth

end Params

end Spillway
