/-!
# Blank characters

The white space of the Unicode standard (property `White_Space`), and texts with the blanks at both
ends taken off.
-/

namespace Spillway
namespace Text

/-- Whether a character has the property `White_Space`. -/
def isBlank (c : Char) : Bool :=
  let code := c.toNat
  (9 ≤ code && code ≤ 13) || code == 0x20 || code == 0x85 || code == 0xA0 || code == 0x1680 ||
    (0x2000 ≤ code && code ≤ 0x200A) || code == 0x2028 || code == 0x2029 || code == 0x202F ||
    code == 0x205F || code == 0x3000

/-- A text without the blanks at its two ends. -/
def trim (text : String) : String :=
  String.ofList ((text.toList.dropWhile isBlank).reverse.dropWhile isBlank).reverse

/-- A text with the ASCII letters in upper case and every other character kept. -/
def upper (text : String) : String :=
  String.ofList (text.toList.map Char.toUpper)

/-- A text with the ASCII letters in lower case and every other character kept. -/
def lower (text : String) : String :=
  String.ofList (text.toList.map Char.toLower)

end Text
end Spillway
