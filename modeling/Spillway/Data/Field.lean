import Spillway.Hash
import Spillway.Status
import Spillway.Text.Quoted

/-!
# Fields and schemas

A field is a named column with a type, nullable unless stated otherwise; a schema is a list of fields. The
types are those of fixed width, Booleans, and texts with short or long offsets.
Where a schema is declared there may be remarks on its columns. The hash of a declaration is a short
stand-in for its text, which shows more than what counts when declarations are compared: two that have the
same fields may differ in their texts and hashes.
-/

namespace Spillway

/-- Type of the values of a column: of fixed width, Boolean, Utf8 or LargeUtf8. -/
inductive ColumnType where
  | int8
  | int16
  | int32
  | int64
  | uint8
  | uint32
  | uint64
  | float64
  | date32
  | boolean
  | utf8
  | largeUtf8
  deriving DecidableEq, Repr

namespace ColumnType

/-- Name of a type as it is printed. -/
def name : ColumnType → String
  | int8 => "Int8"
  | int16 => "Int16"
  | int32 => "Int32"
  | int64 => "Int64"
  | uint8 => "UInt8"
  | uint32 => "UInt32"
  | uint64 => "UInt64"
  | float64 => "Float64"
  | date32 => "Date32"
  | boolean => "Boolean"
  | utf8 => "Utf8"
  | largeUtf8 => "LargeUtf8"

/-- Signed integers and days: the types that keys and aggregates read as 64-bit integers. -/
def isInteger : ColumnType → Bool
  | int8 | int16 | int32 | int64 | date32 => true
  | _ => false

/-- Texts, with short or long offsets. -/
def isText : ColumnType → Bool
  | utf8 | largeUtf8 => true
  | _ => false

/-- Types that rows can be joined, grouped and partitioned by. -/
def isKey (type : ColumnType) : Bool :=
  type.isInteger || type.isText

end ColumnType

/-- A named column. -/
structure Field where
  name : String
  type : ColumnType
  nullable : Bool := true
  deriving DecidableEq, Repr

/-- What is said of a column apart from its name and its type: the number and the order mark of a
dictionary, and metadata in the order in which its entries are listed. -/
structure Remarks where
  dictionary : Int64 := 0
  ordered : Bool := false
  metadata : List (String × String) := []
  deriving DecidableEq, Repr

/-- Text of the metadata. -/
def Remarks.renderMetadata (remarks : Remarks) : String :=
  "\x7b" ++ ", ".intercalate (remarks.metadata.map fun (key, value) =>
    Text.quoted key ++ ": " ++ Text.quoted value) ++ "\x7d"

/-- Text of a field with remarks. -/
def Field.renderWith (field : Field) (remarks : Remarks) : String :=
  "Field \x7b name: " ++ Text.quoted field.name ++ ", data_type: " ++ field.type.name ++
    ", nullable: " ++ toString field.nullable ++ ", dict_id: " ++ toString remarks.dictionary ++
    ", dict_is_ordered: " ++ toString remarks.ordered ++
    ", metadata: " ++ remarks.renderMetadata ++ " \x7d"

/-- Text of a field. -/
def Field.render (field : Field) : String :=
  field.renderWith {}

/-- The columns of a chunk, in order. -/
abbrev Schema : Type := List Field

/-- A schema as it was declared, with the remarks on its columns. Where there are none left, nothing was
remarked. -/
structure Declaration where
  schema : Schema
  remarks : List Remarks := []
  deriving DecidableEq, Repr

/-- A schema without remarks. -/
instance : Coe Schema Declaration :=
  ⟨fun schema => { schema }⟩

namespace Declaration

/-- The remarks on the column at a position. -/
def remarksAt (declaration : Declaration) (position : Nat) : Remarks :=
  declaration.remarks.getD position {}

/-- Text of a schema. -/
def render (declaration : Declaration) : String :=
  ", ".intercalate (declaration.schema.mapIdx fun position field =>
    field.renderWith (declaration.remarksAt position))

/-- Fingerprint of a schema, which every spill block carries. -/
def hash (declaration : Declaration) : UInt64 :=
  Hash.bytes 0x5350494c4c534348 (Text.encodeUtf8 declaration.render)

/-- Whether two declarations have the same fields: neither what is said of dictionaries nor the order of
the metadata counts. -/
def same (one other : Declaration) : Bool :=
  one.schema = other.schema && (List.range one.schema.length).all fun position =>
    (one.remarksAt position).metadata.isPerm (other.remarksAt position).metadata

theorem same_iff {one other : Declaration} :
    one.same other = true ↔ one.schema = other.schema ∧ ∀ position < one.schema.length,
      (one.remarksAt position).metadata.Perm (other.remarksAt position).metadata := by
  simp only [same, Bool.and_eq_true, decide_eq_true_eq, List.all_eq_true, List.mem_range,
    List.isPerm_iff]

@[simp] theorem same_self (declaration : Declaration) : declaration.same declaration = true :=
  same_iff.mpr ⟨rfl, fun _ _ => .refl _⟩

theorem same_symm
    {one other : Declaration}
    (same : one.same other = true) :
    other.same one = true := by
  obtain ⟨schemas, metadata⟩ := same_iff.mp same
  exact same_iff.mpr ⟨schemas.symm, fun position inside => (metadata position (schemas ▸ inside)).symm⟩

theorem same_trans
    {first second third : Declaration}
    (one : first.same second = true)
    (another : second.same third = true) :
    first.same third = true := by
  obtain ⟨schemas, metadata⟩ := same_iff.mp one
  obtain ⟨later, more⟩ := same_iff.mp another
  exact same_iff.mpr ⟨schemas.trans later, fun position inside =>
    (metadata position inside).trans (more position (schemas ▸ inside))⟩

/-- Declarations with the same fields are so compared with any other one. -/
theorem same_congr
    {one other : Declaration}
    (same : one.same other = true)
    (third : Declaration) :
    one.same third = other.same third :=
  Bool.eq_iff_iff.mpr ⟨same_trans (same_symm same), same_trans same⟩

end Declaration

namespace Schema

/-- Text of a schema. -/
def render (schema : Schema) : String :=
  Declaration.render schema

/-- Fingerprint of a schema. -/
def hash (schema : Schema) : UInt64 :=
  Declaration.hash schema

/-- Position of the first field of a name. -/
def position? (schema : Schema) (name : String) : Option Nat :=
  schema.findIdx? fun field => field.name = name

/-- The names of the fields. -/
def names (schema : Schema) : List String :=
  schema.map Field.name

end Schema

/-- Failures of the operations on columns, by the part that finds them. -/
inductive ColumnFault where
  | invalidArgument (message : String)
  | stream (message : String)
  | compute (message : String)
  | schema (message : String)
  | overflow (message : String)
  | divideByZero
  | device (message : String)
  deriving DecidableEq, Repr

namespace ColumnFault

/-- Text of the fault. -/
def render : ColumnFault → String
  | invalidArgument message => "Invalid argument error: " ++ message
  | stream message => "Ipc error: " ++ message
  | compute message => "Compute error: " ++ message
  | schema message => "Schema error: " ++ message
  | overflow message => "Arithmetic overflow: " ++ message
  | divideByZero => "Divide by zero error"
  | device message => "Io error: " ++ message

/-- The status that reports the fault: a fault of the device is a storage failure, any other is the
caller's own doing and counts as internal. -/
def status : ColumnFault → Status
  | device message => .storage message
  | fault => .internal fault.render

end ColumnFault

end Spillway
