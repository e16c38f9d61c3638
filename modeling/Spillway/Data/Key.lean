import Spillway.Data.Field

/-!
# Cells and keys

A cell is the value of one column in one row. Rows are joined, grouped and partitioned by keys:
integers of every width are widened to 64 bits and texts stay texts, so two columns of different
widths have equal keys where their values are equal. An absent value has no key.
-/

namespace Spillway

/-- Value of one column in one row. -/
inductive Cell where
  | null
  | int (value : Int64)
  | word (value : UInt64)
  | float (bits : UInt64)
  | bool (value : Bool)
  | text (value : String)
  deriving DecidableEq, Repr

/-- Value by which rows are joined, grouped and partitioned. -/
inductive Key where
  | int (value : Int64)
  | text (value : String)
  deriving DecidableEq, Repr

namespace Key

/-- Text of a key; texts stand between single quotes. -/
def render : Key → String
  | int value => toString value.toInt
  | text value => "'" ++ value ++ "'"

/-- Integers come before texts; integers are ordered by value and texts by their characters. -/
def lt : Key → Key → Prop
  | int a, int b => a.toInt < b.toInt
  | int _, text _ => True
  | text _, int _ => False
  | text a, text b => a < b

instance : LT Key := ⟨lt⟩

instance : LE Key := ⟨fun a b => ¬ b < a⟩

instance decidableLt : (a b : Key) → Decidable (a < b)
  | int a, int b => inferInstanceAs (Decidable (a.toInt < b.toInt))
  | int _, text _ => isTrue trivial
  | text _, int _ => isFalse fun contrary => contrary
  | text a, text b => inferInstanceAs (Decidable (a < b))

instance decidableLe (a b : Key) : Decidable (a ≤ b) :=
  inferInstanceAs (Decidable (¬ b < a))

/-- Whether two keys are of one class, integers or texts. -/
def sameClass : Key → Key → Bool
  | int _, int _ => true
  | text _, text _ => true
  | _, _ => false

theorem lt_irrefl (a : Key) : ¬ a < a := by
  cases a
  · exact Int.lt_irrefl _
  · exact String.lt_irrefl _

theorem lt_asymm {a b : Key} (below : a < b) : ¬ b < a := by
  cases a <;> cases b <;> intro above
  · exact Int.lt_asymm below above
  · exact above
  · exact below
  · exact String.lt_asymm below above

theorem lt_trans {a b c : Key} (first : a < b) (second : b < c) : a < c := by
  cases a <;> cases b <;> cases c <;> try trivial
  · exact Int.lt_trans first second
  · exact String.lt_trans first second

theorem le_refl (a : Key) : a ≤ a :=
  lt_irrefl a

theorem le_antisymm {a b : Key} (first : a ≤ b) (second : b ≤ a) : a = b := by
  cases a <;> cases b
  · exact congrArg int (Int64.toInt_inj.mp
      (Int.le_antisymm (Int.not_lt.mp first) (Int.not_lt.mp second)))
  · exact absurd trivial second
  · exact absurd trivial first
  · exact congrArg text (String.le_antisymm (String.not_lt.mp first) (String.not_lt.mp second))

theorem lt_iff (a b : Key) : a < b ↔ ¬ b < a ∧ a ≠ b := by
  constructor
  · intro below
    refine ⟨lt_asymm below, ?_⟩
    rintro rfl
    exact lt_irrefl a below
  · rintro ⟨above, different⟩
    exact Decidable.byContradiction fun below => different (le_antisymm above below)

theorem le_trans {a b c : Key} (first : a ≤ b) (second : b ≤ c) : a ≤ c := by
  intro above
  by_cases same : a = b
  · exact second (same ▸ above)
  · exact second (lt_trans above ((lt_iff a b).mpr ⟨first, same⟩))

instance : Ord Key := ⟨fun a b => compareOfLessAndEq a b⟩

instance : Std.TransOrd Key :=
  Std.TransOrd.compareOfLessAndEq_of_lt_trans_of_lt_iff lt_trans lt_iff

instance : Std.LawfulEqOrd Key where
  eq_of_compare := (compareOfLessAndEq_eq_eq le_refl Decidable.not_not).mp

theorem sameClass_refl (a : Key) : a.sameClass a = true := by
  cases a <;> rfl

/-- Seeded hash of a key. -/
def hashed (seed : UInt64) : Key → UInt64
  | int value => Hash.word seed value.toUInt64
  | text value => Hash.text seed value

end Key

/-- Seeded hash of a key that may be absent. -/
def hashKey (seed : UInt64) : Option Key → UInt64
  | none => Hash.null seed
  | some key => key.hashed seed

namespace Cell

/-- The key of a cell; the absent value, unsigned words, floats and booleans have none. -/
def key? : Cell → Option Key
  | int value => some (.int value)
  | text value => some (.text value)
  | _ => none

/-- Seeded hash of a cell: integers of every width are hashed as widened, texts by their bytes, and all
else as the absent value. -/
def hash (seed : UInt64) : Cell → UInt64
  | int value => Hash.word seed value.toUInt64
  | text value => Hash.text seed value
  | _ => Hash.null seed

/-- Whether the value is absent. -/
def isNull : Cell → Bool
  | null => true
  | _ => false

/-- Bytes of the characters of a text; no other cell has any. -/
def textBytes : Cell → Nat
  | text value => value.utf8ByteSize
  | _ => 0

/-- The hash of a cell is that of its key. -/
theorem hash_eq_hashKey (seed : UInt64) (cell : Cell) : cell.hash seed = hashKey seed cell.key? := by
  cases cell <;> rfl

end Cell

/-- Whether an integer is one of the smaller width whose least and greatest values are given. -/
def Cell.within (least greatest : Int) (value : Int64) : Bool :=
  least ≤ value.toInt && value.toInt ≤ greatest

/-- Whether a column of the type can hold the value. Every column type can hold the absent value. -/
def ColumnType.admits : ColumnType → Cell → Bool
  | _, .null => true
  | int8, .int value => Cell.within Int8.minValue.toInt Int8.maxValue.toInt value
  | int16, .int value => Cell.within Int16.minValue.toInt Int16.maxValue.toInt value
  | int32, .int value => Cell.within Int32.minValue.toInt Int32.maxValue.toInt value
  | date32, .int value => Cell.within Int32.minValue.toInt Int32.maxValue.toInt value
  | int64, .int _ => true
  | uint8, .word value => value.toNat < UInt8.size
  | uint32, .word value => value.toNat < UInt32.size
  | uint64, .word _ => true
  | float64, .float _ => true
  | boolean, .bool _ => true
  | utf8, .text _ => true
  | largeUtf8, .text _ => true
  | _, _ => false

/-- Whether a field can hold the value: its type admits it, and it is present or may be absent. -/
def Field.admits (field : Field) (cell : Cell) : Bool :=
  field.type.admits cell && (field.nullable || !cell.isNull)

end Spillway
