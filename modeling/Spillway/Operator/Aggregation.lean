import Spillway.Operator.Partitioned
import Spillway.Operator.WorkList
import Std.Data.TreeMap

/-!
# Partitioned aggregation

Rows are grouped by one key, and the absent key forms a group of its own. Partitions in memory are
aggregated as they are; spilled ones block by block, and a spilled partition is split only when its
groups, more than one of them, outgrow what is left of the account. The rows of a single key never
cause a split.
-/

namespace Spillway

/-- What is computed for each group. -/
inductive Aggregate where
  | countStar
  | count (column : String)
  | sum (column : String)
  | min (column : String)
  | max (column : String)
  deriving DecidableEq, Repr

namespace Aggregate

/-- The column that is aggregated; counting rows needs none. -/
def column? : Aggregate → Option String
  | countStar => none
  | count column => some column
  | sum column => some column
  | min column => some column
  | max column => some column

/-- Text of an aggregate. -/
def render : Aggregate → String
  | countStar => "COUNT(*)"
  | count column => "COUNT(" ++ column ++ ")"
  | sum column => "SUM(" ++ column ++ ")"
  | min column => "MIN(" ++ column ++ ")"
  | max column => "MAX(" ++ column ++ ")"

/-- Name of the output column. -/
def outputName : Aggregate → String
  | countStar => "count_star"
  | count column => "count_" ++ column
  | sum column => "sum_" ++ column
  | min column => "min_" ++ column
  | max column => "max_" ++ column

end Aggregate

/-- The value of an aggregate so far. -/
inductive Accumulator where
  | count (rows : Nat)
  | sum (total : Option Int)
  | min (least : Option Int)
  | max (greatest : Option Int)
  deriving DecidableEq, Repr

namespace Accumulator

/-- The value before any row. -/
def start : Aggregate → Accumulator
  | .countStar => count 0
  | .count _ => count 0
  | .sum _ => sum none
  | .min _ => min none
  | .max _ => max none

/-- Whether a number is a signed 64-bit integer. -/
def inRange (value : Int) : Bool :=
  Int64.minValue.toInt ≤ value && value ≤ Int64.maxValue.toInt

/-- Takes in a value, or nothing if a sum leaves the range of 64-bit integers. -/
def add? (accumulator : Accumulator) (value : Int) : Option Accumulator :=
  match accumulator with
  | count rows => some (count (rows + 1))
  | sum total =>
    let next := total.getD 0 + value
    if inRange next then some (sum (some next)) else none
  | min least => some (min (some (least.elim value (Min.min · value))))
  | max greatest => some (max (some (greatest.elim value (Max.max · value))))

/-- The cell of the value. -/
def cell : Accumulator → Cell
  | count rows => .int (Int64.ofNat rows)
  | sum total => total.elim .null fun value => .int (Int64.ofInt value)
  | min least => least.elim .null fun value => .int (Int64.ofInt value)
  | max greatest => greatest.elim .null fun value => .int (Int64.ofInt value)

end Accumulator

/-- A group: its key and the values of the aggregates. -/
structure Group where
  key : Option Key
  values : List Accumulator
  deriving DecidableEq, Repr

/-- Groups by key, the keys in the order in which they appeared, the latest first, and an estimate of
the size of all. -/
structure GroupTable where
  keys : List (Option Key) := []
  values : Std.TreeMap (Option Key) (List Accumulator) := ∅
  bytes : Nat := 0

/-- Why an aggregation refuses a request. -/
inductive AggregationFault where
  | missingInput (column : String)
  | inputType (aggregate : Aggregate) (column : String) (type : ColumnType)
  | missingKey (key : String)
  | inputValue
  | sumRange
  deriving DecidableEq, Repr

/-- The status that reports the fault. -/
def AggregationFault.status : AggregationFault → Status
  | missingInput column => .invalidArgument ("aggregate input '" ++ column ++ "' not in schema")
  | inputType aggregate column type =>
    .invalidArgument (aggregate.render ++ " requires an integer column, '" ++ column ++ "' is " ++
      type.name)
  | missingKey key => .invalidArgument ("group key '" ++ key ++ "' not in schema")
  | inputValue => .invalidArgument "aggregate input must be an integer column"
  | sumRange => .arithmeticOverflow "SUM overflowed the 64-bit integer range"

namespace GroupTable

/-- Estimated size of a group, its key apart. -/
def entryBytes (aggregates : List Aggregate) : Nat :=
  48 + 16 * aggregates.length

/-- Estimated size of a key. -/
def keyBytes : Option Key → Nat
  | some (.text value) => value.utf8ByteSize + 24
  | _ => 8

/-- Takes the value of one column into an accumulator. Rows count even where a column is absent, so
counting rows has no column. -/
def addValue (accumulator : Accumulator) (column : Option Nat) (row : Row) :
    Except AggregationFault Accumulator :=
  let add := fun value =>
    match accumulator.add? value with
    | some next => .ok next
    | none => .error .sumRange
  match column with
  | none => add 0
  | some position =>
    match Chunk.rowKey position row with
    | none => .ok accumulator
    | some (.int value) => add value.toInt
    | some (.text _) => .error .inputValue

/-- Takes a row into accumulators, one column each. -/
def addRow (row : Row) : List Accumulator → List (Option Nat) →
    Except AggregationFault (List Accumulator)
  | accumulator :: accumulators, column :: columns => do
    let first ← addValue accumulator column row
    let others ← addRow row accumulators columns
    return first :: others
  | accumulators, _ => .ok accumulators

/-- The groups in the order in which their keys appeared. -/
def groups (table : GroupTable) : List Group :=
  table.keys.reverse.map fun key => { key, values := table.values.getD key [] }

/-- Takes a row into the group of its key, which is opened if it is new. -/
def update
    (aggregates : List Aggregate)
    (position : Nat)
    (columns : List (Option Nat))
    (table : GroupTable)
    (row : Row) :
    Except AggregationFault GroupTable :=
  let key := Chunk.rowKey position row
  match table.values[key]? with
  | some values => do
    let values ← addRow row values columns
    return { table with values := table.values.insert key values }
  | none => do
    let values ← addRow row (aggregates.map Accumulator.start) columns
    return {
      keys := key :: table.keys
      values := table.values.insert key values
      bytes := table.bytes + entryBytes aggregates + keyBytes key }

/-- Position of the column of an aggregate. -/
def inputPosition (chunk : Chunk) (aggregate : Aggregate) : Except Status (Option Nat) :=
  match aggregate.column? with
  | none => .ok none
  | some column => do return some (← chunk.position column)

/-- Refuses a column that has no keys to read. -/
def checkInput (chunk : Chunk) (aggregate : Aggregate) : Except Status Unit :=
  match aggregate.column? with
  | none => .ok ()
  | some column => do let _ ← chunk.keyPosition column

/-- Takes in the rows of a chunk. -/
def addChunk (aggregates : List Aggregate) (key : String) (table : GroupTable) (chunk : Chunk) :
    Except Status GroupTable :=
  if chunk.isEmpty then .ok table
  else do
    let position ← chunk.keyPosition key
    let columns ← aggregates.mapM (inputPosition chunk)
    aggregates.forM (checkInput chunk)
    (chunk.rows.foldlM (update aggregates position columns) table).mapError AggregationFault.status

end GroupTable

/-- An aggregation under way. -/
structure Aggregation where
  input : Partitioned
  aggregates : List Aggregate
  textKey : Bool

namespace Aggregation

/-- The fields of the output: the key, widened, and a 64-bit integer for each aggregate. -/
def outputSchema (aggregation : Aggregation) : Schema :=
  { name := aggregation.input.buildKey, type := if aggregation.textKey then .utf8 else .int64 } ::
    aggregation.aggregates.map fun aggregate => { name := aggregate.outputName, type := .int64 }

/-- Refuses an aggregate whose column is not an integer column of the schema. -/
def checkAggregate (schema : Schema) (aggregate : Aggregate) : Except AggregationFault Unit :=
  match aggregate.column? with
  | none => .ok ()
  | some column =>
    match schema.find? fun field => field.name = column with
    | none => .error (.missingInput column)
    | some field =>
      if field.type.isInteger then .ok () else .error (.inputType aggregate column field.type)

/-- An aggregation without rows. -/
def make
    (params : Params)
    (schema : Schema)
    (key : String)
    (aggregates : List Aggregate)
    (area : SpillArea)
    (ledger : Ledger) :
    Except Status Aggregation := do
  (aggregates.forM (checkAggregate schema)).mapError AggregationFault.status
  match schema.find? fun field => field.name = key with
  | none => throw (AggregationFault.missingKey key).status
  | some field =>
    let input ← Partitioned.make "hash aggregation" params schema key none area ledger
    return { input, aggregates, textKey := field.type.isText }

/-- Runs a step of the partitioned input. -/
def onInput {α : Type} (step : Step Partitioned α) : Step Aggregation α :=
  step.focus Aggregation.input fun aggregation input => { aggregation with input }

/-- Accepts a chunk. -/
def addChunk (chunk : Chunk) : Step Aggregation Unit :=
  onInput (Partitioned.addBuildChunk chunk)

/-- The cell of a group's key; an integer becomes a text where the output has texts. -/
def keyCell (textKey : Bool) : Option Key → Cell
  | none => .null
  | some (.int value) => if textKey then .text (toString value.toInt) else .int value
  | some (.text value) => if textKey then .text value else .null

/-- The row of a group. -/
def groupRow (textKey : Bool) (group : Group) : Row :=
  keyCell textKey group.key :: group.values.map Accumulator.cell

/-- The chunk of the groups of a table, if there are any. -/
def emit (table : GroupTable) : Step Aggregation (List Chunk) := do
  if table.keys.isEmpty then return []
  let aggregation ← get
  let schema := aggregation.outputSchema
  let rows := table.groups.map (groupRow aggregation.textKey)
  let chunk ← Step.ofExcept
    ((Chunk.assemble schema (schema.map Field.type) rows).mapError ColumnFault.status)
  return [chunk]

/-- Takes chunks into a table. -/
def addChunks (table : GroupTable) (chunks : List Chunk) : Step Aggregation GroupTable := do
  let aggregation ← get
  Step.ofExcept
    (chunks.foldlM (GroupTable.addChunk aggregation.aggregates aggregation.input.buildKey) table)

/-- Aggregates a partition that is in memory. -/
def aggregateInMemory (partition : Nat) : Step Aggregation (List Chunk) := do
  let chunks ← onInput (Partitioned.loadBuild partition)
  let table ← addChunks {} chunks
  let output ← emit table
  onInput (Partitioned.complete partition)
  return output

/-- Takes the blocks of a spilled partition into a table, or yields nothing once the table has more
than one group and outgrows what is left of the account. -/
def addBlocks (partition : Nat) (table : GroupTable) :
    List Nat → Step Aggregation (Option GroupTable)
  | [] => return some table
  | block :: rest => do
    onInput Partitioned.checkCancelled
    let chunks ← onInput (Partitioned.restoreBuildBlock partition block)
    let table ← addChunks table chunks
    let input := (← get).input
    if 1 < table.keys.length ∧ input.ledger.available input.account < table.bytes then
      return none
    else addBlocks partition table rest

/-- Aggregates a partition, or splits it if its groups are too large. -/
def visit (partition : Nat) : Step Aggregation (Visit Chunk) := do
  onInput Partitioned.checkCancelled
  let record ← onInput (Partitioned.record partition)
  if record.state ≠ .opened then return .done []
  if ¬ record.build.spilled then return .done (← aggregateInMemory partition)
  match ← addBlocks partition {} (List.range record.build.blockCount) with
  | some table =>
    let output ← emit table
    onInput (Partitioned.complete partition)
    return .done output
  | none =>
    let children ← onInput (Partitioned.repartition partition)
    return .split (← onInput (Partitioned.processingOrder children))

/-- Aggregates the first partitions that are in memory. Yields their output and the spilled ones,
the last one first. -/
def finishInMemory (spilled : List Nat) : List Nat → Step Aggregation (List Chunk × List Nat)
  | [] => return ([], spilled)
  | partition :: rest => do
    let record ← onInput (Partitioned.record partition)
    if record.build.isEmpty then
      onInput (Partitioned.complete partition)
      finishInMemory spilled rest
    else if record.build.spilled then finishInMemory (partition :: spilled) rest
    else
      let output ← aggregateInMemory partition
      let (others, spilled) ← finishInMemory spilled rest
      return (output ++ others, spilled)

/-- Aggregates all rows and yields one chunk for each partition with rows. -/
def finish : Step Aggregation (List Chunk) := do
  let input := (← get).input
  let (output, spilled) ← finishInMemory [] input.roots
  let others ← drain visit input.params.maxDepth spilled
  return output ++ others

end Aggregation

end Spillway
