import Spillway.Partition.Partition

/-!
# Arenas

An arena keeps every partition that an operator creates, numbered in order of creation. Partitions
form a forest: a partition that is split again has its children one level deeper, and the partitions
that were not split are the leaves. Records are never removed.
-/

namespace Spillway

/-- Where a partition stands. -/
inductive PartitionState where
  /-- Accepting rows. -/
  | opened
  /-- Being loaded or processed, and never chosen to be spilled. -/
  | pinned
  /-- Its rows were moved to its children. -/
  | repartitioned
  /-- Its output was produced and its storage given up. -/
  | completed
  deriving DecidableEq, Repr

/-- Name of a state as it is printed. -/
def PartitionState.name : PartitionState → String
  | opened => "OPEN"
  | pinned => "PINNED"
  | repartitioned => "REPARTITIONED"
  | completed => "COMPLETED"

/-- A partition in an arena: its place in the forest, its build side, and its probe side in
operators that have one. -/
structure PartitionRecord where
  parent : Option Nat
  level : Nat
  bucket : Nat
  children : List Nat := []
  build : Partition
  probe : Option Partition
  state : PartitionState := .opened
  deriving DecidableEq

/-- Whether the partition was not split. -/
def PartitionRecord.isLeaf (record : PartitionRecord) : Bool :=
  record.state ≠ .repartitioned

/-- Every partition that an operator creates. -/
structure Arena where
  records : Array PartitionRecord := #[]
  deriving DecidableEq

/-- Why an arena refuses a request. -/
inductive ArenaFault where
  | full
  | unknown (partition : Nat)
  | wrongLevel (partition level child : Nat)
  deriving DecidableEq, Repr

/-- The status that reports the fault. -/
def ArenaFault.status : ArenaFault → Status
  | full => .resourceLimitExceeded "too many partitions in one operator"
  | unknown partition => .internal ("unknown partition " ++ toString partition)
  | wrongLevel partition level child =>
    .internal ("partition " ++ toString partition ++ " at level " ++ toString level ++
      " cannot have a child at level " ++ toString child)

namespace Arena

/-- Number of partitions that an arena can hold. -/
def capacity : Nat := UInt32.size

/-- Number of partitions. -/
def size (arena : Arena) : Nat :=
  arena.records.size

/-- The record of a partition. -/
def record (arena : Arena) (partition : Nat) : Except ArenaFault PartitionRecord :=
  match arena.records[partition]? with
  | some record => .ok record
  | none => .error (.unknown partition)

/-- Changes the record of a partition. -/
def modify (arena : Arena) (partition : Nat) (change : PartitionRecord → PartitionRecord) : Arena :=
  { records := arena.records.modify partition change }

/-- Appends a record. -/
def push (arena : Arena) (record : PartitionRecord) : Arena :=
  { records := arena.records.push record }

/-- Adds a partition and yields its number. A child is one level deeper than its parent. -/
def add (arena : Arena) (record : PartitionRecord) : Except ArenaFault (Nat × Arena) := do
  if capacity ≤ arena.size then throw .full
  match record.parent with
  | none => return (arena.size, arena.push record)
  | some parent =>
    let above ← arena.record parent
    if above.level + 1 ≠ record.level then throw (.wrongLevel parent above.level record.level)
    let linked := arena.modify parent fun above =>
      { above with children := above.children ++ [arena.size] }
    return (arena.size, linked.push record)

/-- The partitions that were not split, by number. -/
def leaves (arena : Arena) : List Nat :=
  (List.range arena.size).filter fun partition =>
    arena.records[partition]?.any PartitionRecord.isLeaf

/-- The partitions above a partition, nearest first. -/
def above (arena : Arena) (partition : Nat) : List Nat :=
  match arena.records[partition]? with
  | none => []
  | some record =>
    match record.parent with
    | none => []
    | some parent =>
      if _earlier : parent < partition then parent :: arena.above parent else []
termination_by partition

/-- The partitions above a partition that is known, nearest first. -/
def ancestors (arena : Arena) (partition : Nat) : Except ArenaFault (List Nat) := do
  let _ ← arena.record partition
  return arena.above partition

/-- Deepest level of any partition. -/
def maxLevel (arena : Arena) : Nat :=
  arena.records.foldl (fun deepest record => max deepest record.level) 0

end Arena

end Spillway
