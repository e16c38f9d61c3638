import Spillway.Settings.Toml.Value

/-!
# Tables in the making

While a document is read, its tables remember how they came about. A table that a header or braces have
opened is closed to keys of other places; one that exists only because a header below it was seen may
still get a header of its own; one made by a dotted key grows by dotted keys alone. A key is never set
twice.
-/

namespace Spillway
namespace Toml

/-- How a table came about. -/
inductive Origin where
  | header
  | implied
  | dotted
  deriving DecidableEq, Repr

/-- A value or table in the making. Of an array of tables the latest element comes first. -/
inductive Node where
  | value (value : Value)
  | table (origin : Origin) (entries : List (String × Node))
  | tables (elements : List (List (String × Node)))

/-- The entries of a table in the making. -/
abbrev Nodes : Type := List (String × Node)

namespace Nodes

/-- Sets a key, which keeps its position if it is there. -/
def set (nodes : Nodes) (key : String) (node : Node) : Nodes :=
  if nodes.any (·.1 = key) then nodes.map fun entry => if entry.1 = key then (key, node) else entry
  else nodes ++ [(key, node)]

/-- Adds a value under a dotted key. -/
def insert : List String → Value → Nodes → Option Nodes
  | [], _, _ => none
  | [key], value, nodes =>
    match nodes.lookup key with
    | none => some (set nodes key (.value value))
    | some _ => none
  | key :: next :: rest, value, nodes =>
    match nodes.lookup key with
    | none => do return set nodes key (.table .dotted (← insert (next :: rest) value []))
    | some (.table origin inner) =>
      if origin = .header ∨ (rest = [] ∧ origin ≠ .dotted) then none
      else do return set nodes key (.table origin (← insert (next :: rest) value inner))
    | some (.tables (latest :: others)) =>
      if rest = [] then none
      else do return set nodes key (.tables ((← insert (next :: rest) value latest) :: others))
    | some _ => none

/-- Adds values under dotted keys, in order. -/
def insertAll (entries : List (List String × Value)) (nodes : Nodes) : Option Nodes :=
  entries.foldlM (fun nodes (path, value) => insert path value nodes) nodes

/-- Changes what stands under the key of a header. Tables on the way that do not exist are implied; of an
array of tables the latest element is entered. -/
def change (edit : Option Node → Option Node) : List String → Nodes → Option Nodes
  | [], _ => none
  | [key], nodes => do return set nodes key (← edit (nodes.lookup key))
  | key :: next :: rest, nodes =>
    match nodes.lookup key with
    | none => do return set nodes key (.table .implied (← change edit (next :: rest) []))
    | some (.table origin inner) => do
      return set nodes key (.table origin (← change edit (next :: rest) inner))
    | some (.tables (latest :: others)) => do
      return set nodes key (.tables ((← change edit (next :: rest) latest) :: others))
    | some _ => none

/-- Opens a table with the entries below its header. -/
def openTable (entries : List (List String × Value)) : Option Node → Option Node
  | none => do return .table .header (← insertAll entries [])
  | some (.table .implied inner) => do return .table .header (← insertAll entries inner)
  | some _ => none

/-- Adds an element with the entries below its header to an array of tables. -/
def addElement (entries : List (List String × Value)) : Option Node → Option Node
  | none => do return .tables [← insertAll entries []]
  | some (.tables elements) => do return .tables ((← insertAll entries []) :: elements)
  | some _ => none

end Nodes

mutual

/-- The value that a node has become. -/
def Node.toValue : Node → Value
  | .value value => value
  | .table _ entries => .table (finishEntries entries)
  | .tables elements => .array (finishElements elements).reverse

/-- The entries of a table that is finished. -/
def finishEntries : List (String × Node) → List (String × Value)
  | [] => []
  | (key, node) :: rest => (key, node.toValue) :: finishEntries rest

/-- The elements of an array of tables that is finished. -/
def finishElements : List (List (String × Node)) → List Value
  | [] => []
  | entries :: rest => .table (finishEntries entries) :: finishElements rest

end

/-- The table of values under dotted keys, as braces enclose them. -/
def tableOf (entries : List (List String × Value)) : Option Value :=
  (Nodes.insertAll entries []).map fun nodes => .table (finishEntries nodes)

end Toml
end Spillway
