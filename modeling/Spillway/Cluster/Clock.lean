/-!
# Moments and spans

The parties of a query read a clock that counts milliseconds. A span may be so long that the moment at
its end is beyond what a clock can show; such a moment does not exist.
-/

namespace Spillway
namespace Clock

/-- The first moment that a clock cannot show: it counts seconds in a signed 64-bit number. -/
def horizon : Nat := UInt64.size / 2 * 1000

/-- A year of 365 days. -/
def year : Nat := 365 * 24 * 3600 * 1000

/-- The moment at which a span that starts now is over. -/
def after? (now span : Nat) : Option Nat :=
  if now + span < horizon then some (now + span) else none

end Clock
end Spillway
