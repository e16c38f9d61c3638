import Spillway.Spill.Plain
import Spillway.Status

/-!
# Block store

A store keeps blocks of bytes by path. A block is never overwritten: writing to a path that is taken
does nothing and says so. A store can be out of order, for reading, writing or deleting, at any of its
calls, and it can hand out damaged bytes; both are part of its state, so that whoever uses it can be
reasoned about under any pattern of faults.
-/

namespace Spillway

/-- What happens to the bytes of a block between writing and reading. -/
inductive Damage where
  | cut (count : Nat)
  | keep (count : Nat)
  | add (bytes : List UInt8)
  | overwrite (position : Nat) (bytes : List UInt8)
  deriving DecidableEq, Repr

/-- The bytes after the damage. Only bytes that exist are overwritten. -/
def Damage.apply (bytes : List UInt8) : Damage → List UInt8
  | cut count => bytes.take (bytes.length - count)
  | keep count => bytes.take count
  | add more => bytes ++ more
  | overwrite position patch =>
    (bytes.take position ++ patch ++ bytes.drop (position + patch.length)).take bytes.length

/-- Which calls fail. -/
structure Outage where
  reads : Bool := false
  writes : Bool := false
  deletes : Bool := false
  deriving DecidableEq, Repr

/-- Blocks by path, with the format of their bodies, the number of the next block name, the damage to
blocks, and the outages of every call from the first on. -/
structure Store where
  blocks : List (String × List UInt8) := []
  format : Body.Format := Body.plain
  nextName : Nat := 0
  damage : List (String × List Damage) := []
  calls : Nat := 0
  outageAt : Nat → Outage := fun _ => {}

namespace Store

/-- Which kinds of call fail at present. -/
def outage (store : Store) : Outage :=
  store.outageAt store.calls

/-- The store after one call. -/
def tick (store : Store) : Store :=
  { store with calls := store.calls + 1 }

/-- The store whose calls fail in the same way from now on. -/
def withOutage (store : Store) (outage : Outage) : Store :=
  { store with outageAt := fun _ => outage }

/-- The store that damages a block in the given way from now on. -/
def withDamage (store : Store) (path : String) (damage : List Damage) : Store :=
  { store with damage := (path, damage) :: store.damage }

/-- The bytes of the block at a path. -/
def block? (store : Store) (path : String) : Option (List UInt8) :=
  store.blocks.lookup path

/-- Number of blocks. -/
def size (store : Store) : Nat :=
  store.blocks.length

/-- The path of a block name. -/
def pathOf (name : String) : String :=
  "mem://" ++ name

/-- The bytes that reading a block gives. -/
def damaged (store : Store) (path : String) (bytes : List UInt8) : List UInt8 :=
  ((store.damage.lookup path).getD []).foldl Damage.apply bytes

/-- The store with a block at a path. -/
def insert (store : Store) (path : String) (bytes : List UInt8) : Store :=
  { store with blocks := (path, bytes) :: store.blocks }

/-- The store without a block at a path. -/
def erase (store : Store) (path : String) : Store :=
  { store with blocks := store.blocks.filter fun block => block.1 ≠ path }

/-- Writes a new block, or yields `false` if the path is taken. -/
def create (path : String) (bytes : List UInt8) : Step Store Bool := fun store =>
  if store.outage.writes then
    (.error (.storage ("write spill block " ++ path ++ " failed: storage unavailable")), store.tick)
  else if (store.block? path).isSome then (.ok false, store.tick)
  else (.ok true, (store.insert path bytes).tick)

/-- Reads a block. -/
def read (path : String) : Step Store (List UInt8) := fun store =>
  if store.outage.reads then
    (.error (.storage ("read spill block " ++ path ++ " failed: storage unavailable")), store.tick)
  else
    match store.block? path with
    | some bytes => (.ok (store.damaged path bytes), store.tick)
    | none => (.error (.storage ("spill block " ++ path ++ " not found")), store.tick)

/-- Deletes the block at a path, if there is one. -/
def delete (path : String) : Step Store Unit := fun store =>
  if store.outage.deletes then
    (.error (.storage ("delete spill block " ++ path ++ " failed: storage unavailable")), store.tick)
  else (.ok (), (store.erase path).tick)

/-- Name of the block of a number. -/
def blockName (number : Nat) : String :=
  "b" ++ toString number ++ ".ipc"

/-- Draws the path of a new block. No number is drawn twice. -/
def drawPath : Step Store String := fun store =>
  (.ok (pathOf (blockName store.nextName)), { store with nextName := store.nextName + 1 })

/-- The store in which another writer has taken the next `count` paths. -/
def occupy (store : Store) (count : Nat) : Store :=
  (List.range count).foldl (fun store offset =>
    let path := pathOf (blockName (store.nextName + offset))
    if (store.block? path).isSome then store else store.insert path []) store

end Store

end Spillway
