/-!
# TOML values

The values of a settings file. A date or time of day is kept only as such: no setting is one.
-/

namespace Spillway
namespace Toml

/-- A value. The keys of a table are distinct. -/
inductive Value where
  | text (value : String)
  | integer (value : Int)
  | float (value : Float)
  | boolean (value : Bool)
  | moment
  | array (elements : List Value)
  | table (entries : List (String × Value))

end Toml
end Spillway
