/-!
# Ranges of code points

A property of characters as the ranges of code points that have it, in ascending order. The order lets a
look-up stop at the first range beyond the character.
-/

namespace Spillway
namespace Text

/-- Ranges of code points, both ends included. -/
abbrev CodeRanges : Type := List (Nat × Nat)

namespace CodeRanges

/-- Whether a code point lies in one of the ranges, which must ascend. -/
def holds : CodeRanges → Nat → Bool
  | [], _ => false
  | (first, last) :: rest, code =>
    if code < first then false else code ≤ last || holds rest code

end CodeRanges

end Text
end Spillway
