import Spillway.Filter.Descriptor
import Spillway.Operator.Params
import Spillway.Settings.Toml.Document
import Spillway.Spill.Compression

/-!
# Settings

What can be set from outside: how operators are sized, which filters a query produces and how long they
may take, and where and how blocks are spilled. Every setting has a default. A group of settings is read
from a table by name, or from an array by position; names that mean nothing are passed over, and values of
a wrong kind or out of range are refused.
-/

namespace Spillway

/-- Settings of operators and filters. -/
structure RuntimeSettings where
  memLimit : Nat := 268435456
  partitionCount : Nat := 16
  maxDepth : Nat := 16
  waitTime : Nat := 1000
  filterMode : String := "GLOBAL"
  bloomBytes : Nat := 1048576
  maxErrorRate : Float := 0.75

/-- Settings of spilling. -/
structure SpillSettings where
  enabled : Bool := true
  directories : List String := []
  compression : String := "lz4"
  blockSize : Nat := 1048576

/-- All settings. -/
structure Settings where
  logLevel : String := "info"
  logFilter : Option String := none
  runtime : RuntimeSettings := {}
  spill : SpillSettings := {}

namespace Settings

open Toml (Value)

/-- A text. -/
def text? : Value → Option String
  | .text value => some value
  | _ => none

/-- A truth value. -/
def flag? : Value → Option Bool
  | .boolean value => some value
  | _ => none

/-- A number that is not negative and below a bound. -/
def count? (bound : Nat) : Value → Option Nat
  | .integer value => if 0 ≤ value ∧ value < bound then some value.toNat else none
  | _ => none

/-- A number that need not be whole. -/
def rate? : Value → Option Float
  | .float value => some value
  | .integer value => some (Float.ofInt value)
  | _ => none

/-- A list of texts. -/
def texts? : Value → Option (List String)
  | .array elements => elements.mapM text?
  | _ => none

/-- The values of a group of settings, found by their names in a table and by their positions in an
array. A date is a table that names no setting. -/
def group? (names : List String) : Value → Option (List (String × Value))
  | .table entries => some entries
  | .array elements => some (names.zip elements)
  | .moment => some []
  | _ => none

/-- One setting of a group, or its default where it is not set. -/
def setting {α : Type} (entries : List (String × Value)) (name : String) (read : Value → Option α)
    (default : α) : Option α :=
  match entries.lookup name with
  | none => some default
  | some value => read value

/-- The names of the settings of operators and filters, in order. -/
def runtimeNames : List String :=
  ["mem_limit_bytes", "partition_count", "max_partition_depth", "runtime_filter_wait_time_ms",
    "runtime_filter_mode", "bloom_filter_size", "max_filter_error_rate"]

/-- The names of the settings of spilling, in order. -/
def spillNames : List String :=
  ["enable", "local_dirs", "ipc_compression", "block_size_bytes"]

/-- Reads the settings of operators and filters. -/
def runtime? (value : Value) : Option RuntimeSettings := do
  let entries ← group? runtimeNames value
  let default : RuntimeSettings := {}
  return {
    memLimit := ← setting entries "mem_limit_bytes" (count? UInt64.size) default.memLimit
    partitionCount := ← setting entries "partition_count" (count? UInt64.size) default.partitionCount
    maxDepth := ← setting entries "max_partition_depth" (count? UInt32.size) default.maxDepth
    waitTime := ← setting entries "runtime_filter_wait_time_ms" (count? UInt64.size) default.waitTime
    filterMode := ← setting entries "runtime_filter_mode" text? default.filterMode
    bloomBytes := ← setting entries "bloom_filter_size" (count? UInt64.size) default.bloomBytes
    maxErrorRate := ← setting entries "max_filter_error_rate" rate? default.maxErrorRate }

/-- Reads the settings of spilling. -/
def spill? (value : Value) : Option SpillSettings := do
  let entries ← group? spillNames value
  let default : SpillSettings := {}
  return {
    enabled := ← setting entries "enable" flag? default.enabled
    directories := ← setting entries "local_dirs" texts? default.directories
    compression := ← setting entries "ipc_compression" text? default.compression
    blockSize := ← setting entries "block_size_bytes" (count? UInt64.size) default.blockSize }

/-- Reads all settings from the table that a document is. -/
def ofEntries (entries : List (String × Value)) : Option Settings := do
  return {
    logLevel := ← setting entries "log_level" text? "info"
    logFilter := ← setting entries "log_filter" (fun value => (text? value).map some) none
    runtime := ← setting entries "runtime" runtime? {}
    spill := ← setting entries "spill" spill? {} }

/-- Reads all settings from the text of a document. -/
def parse (text : String) : Option Settings := do
  ofEntries (← Toml.read text)

/-- What is logged: the filter if there is one, else the level. -/
def logging (settings : Settings) : String :=
  settings.logFilter.getD settings.logLevel

/-- The sizing of operators. -/
def params (settings : Settings) : Params where
  partitionCount := settings.runtime.partitionCount
  memLimit := settings.runtime.memLimit
  maxDepth := settings.runtime.maxDepth

/-- The sizing of an operator for an estimated build side and a memory limit. -/
def paramsFor (settings : Settings) (estimated memLimit : Nat) : Params :=
  .forEstimate estimated memLimit settings.runtime.partitionCount settings.runtime.maxDepth

/-- Which filters a query produces: all, unless the settings name another mode. -/
def filterMode (settings : Settings) : FilterMode :=
  (FilterMode.parse settings.runtime.filterMode).toOption.getD .everywhere

/-- A descriptor of a filter that is set up as the settings say. -/
def descriptor
    (settings : Settings)
    (id : FilterId)
    (kind : FilterKind)
    (target build : String)
    (producers : Nat) :
    FilterDescriptor where
  id
  kind
  target
  build
  producers
  deadline := settings.runtime.waitTime
  bloomBytes := Sizing.normalize settings.runtime.bloomBytes

/-- Whether a membership filter of so many keys is not worth having. -/
def shouldDisable (settings : Settings) (keys : Nat) : Bool :=
  Sizing.shouldDisable keys settings.runtime.bloomBytes settings.runtime.maxErrorRate

end Settings

/-- How blocks are spilled. -/
structure SpillPlan where
  directories : List String
  compression : Compression
  blockSize : Nat
  deriving DecidableEq, Repr

/-- The directory for blocks when the settings name none, below one for temporary files. -/
def SpillPlan.defaultDirectory (temporary : String) : String :=
  (if temporary.endsWith "/" then temporary else temporary ++ "/") ++ "graceflow-spill"

/-- The plan that the settings describe, unless spilling is turned off or its compression is unknown. -/
def Settings.spillPlan (settings : Settings) (temporary : String) : Except Status SpillPlan :=
  let spill := settings.spill
  if spill.enabled then do
    let compression ← (Compression.parse spill.compression).mapError fun fault =>
      Status.invalidArgument fault.message
    return {
      directories :=
        if spill.directories.isEmpty then [SpillPlan.defaultDirectory temporary] else spill.directories
      compression
      blockSize := spill.blockSize }
  else .error (.invalidArgument "spill storage is disabled in config")

end Spillway
