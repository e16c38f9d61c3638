import Spillway.Data.Chunk
import Spillway.Filter.Range
import Spillway.Filter.Sizing
import Spillway.Text.Blank

/-!
# Key filters

A filter describes the keys of a build side: a Bloom directory of their hashes, or the range that they
lie in. It lets every inserted key through, so rows that it drops cannot find a partner. Filters of one
kind and size are merged into a filter of the keys of both.
-/

namespace Spillway

/-- How a filter describes keys. -/
inductive FilterKind where
  | bloom
  | minMax
  deriving DecidableEq, Repr

/-- Name of a kind as it is printed. -/
def FilterKind.name : FilterKind → String
  | bloom => "BLOOM"
  | minMax => "MIN_MAX"

/-- Reads the name of a kind; blanks around it and the case of its letters do not matter. Failure is
described by a message. -/
def FilterKind.parse (text : String) : Except String FilterKind :=
  let wanted := Text.upper (Text.trim text)
  if wanted = "BLOOM" then .ok bloom
  else if wanted = "MIN_MAX" ∨ wanted = "MINMAX" then .ok minMax
  else .error ("unknown runtime filter kind: " ++ wanted)

/-- A description of keys. -/
inductive KeyFilter where
  | membership (bloom : Bloom)
  | range (range : KeyRange)
  deriving DecidableEq

/-- Why keys cannot be inserted or filters merged. -/
inductive FilterFault where
  | range (cause : RangeFault)
  | sizes (bytes other : Nat)
  | kinds (kind other : FilterKind)
  deriving DecidableEq, Repr

/-- The status that reports the fault. -/
def FilterFault.status : FilterFault → Status
  | range cause => .invalidArgument cause.message
  | sizes bytes other =>
    .invalidArgument ("runtime bloom filter merge size mismatch: " ++ toString bytes ++ " vs " ++
      toString other ++ " bytes")
  | kinds kind other =>
    .invalidArgument ("cannot merge runtime filter of kind " ++ other.name ++ " into " ++ kind.name)

namespace KeyFilter

/-- The filter of no keys. A range has no size. -/
def empty (kind : FilterKind) (bloomBytes : Nat) : KeyFilter :=
  match kind with
  | .bloom => membership (.withSize bloomBytes)
  | .minMax => range .empty

/-- How the filter describes keys. -/
def kind : KeyFilter → FilterKind
  | membership _ => .bloom
  | range _ => .minMax

/-- Hash of a key in a membership filter. -/
def hashOf (key : Key) : UInt64 :=
  key.hashed Hash.filterSeed

/-- Adds keys. -/
def insertAll (filter : KeyFilter) (keys : List Key) : Except FilterFault KeyFilter :=
  match filter with
  | membership bloom => .ok (membership (keys.foldl (fun bloom key => bloom.insert (hashOf key)) bloom))
  | range bounds =>
    match bounds.insertAll keys with
    | .ok bounds => .ok (range bounds)
    | .error cause => .error (.range cause)

/-- Adds a cell of a column to a directory by the hash of the cell, unless it has no key. -/
def insertCell (bloom : Bloom) (cell : Cell) : Bloom :=
  if cell.key?.isSome then bloom.insert (cell.hash Hash.filterSeed) else bloom

/-- Adds the keys of a column; cells without a key are passed over. -/
def insertColumn (filter : KeyFilter) (cells : List Cell) : Except FilterFault KeyFilter :=
  match filter with
  | membership bloom => .ok (membership (cells.foldl insertCell bloom))
  | range bounds =>
    match bounds.insertAll (cells.filterMap Cell.key?) with
    | .ok bounds => .ok (range bounds)
    | .error cause => .error (.range cause)

/-- The filter of the keys of both filters. -/
def merge (filter other : KeyFilter) : Except FilterFault KeyFilter :=
  match filter, other with
  | membership bloom, membership more =>
    match bloom.merge? more with
    | some merged => .ok (membership merged)
    | none => .error (.sizes bloom.sizeBytes more.sizeBytes)
  | range bounds, range more =>
    match bounds.merge more with
    | .ok merged => .ok (range merged)
    | .error cause => .error (.range cause)
  | filter, other => .error (.kinds filter.kind other.kind)

/-- Whether a key may have been inserted; if not, it was not. -/
def test (filter : KeyFilter) (key : Key) : Bool :=
  match filter with
  | membership bloom => bloom.test (hashOf key)
  | range bounds => bounds.test key

/-- Whether some key between two keys may have been inserted. -/
def overlaps (filter : KeyFilter) (low high : Key) : Bool :=
  match filter with
  | membership _ => if low = high then filter.test low else true
  | range bounds => bounds.overlaps low high

/-- Whether a row may find a partner by its cell in a column; a cell without a key finds none. A directory
is asked for the hash of the cell. -/
def testRow (filter : KeyFilter) (cell : Cell) : Bool :=
  match cell.key?, filter with
  | none, _ => false
  | some _, membership bloom => bloom.test (cell.hash Hash.filterSeed)
  | some key, range bounds => bounds.test key

/-- The rows of a chunk that may find a partner by the key in a column. -/
def filterChunk (filter : KeyFilter) (chunk : Chunk) (column : String) : Except Status Chunk :=
  if chunk.isEmpty then .ok chunk
  else do
    let position ← chunk.keyPosition column
    return chunk.filterRows fun row => filter.testRow (Row.cell row position)

end KeyFilter

end Spillway
