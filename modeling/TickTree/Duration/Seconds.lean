import TickTree.Decimal.Binary
import TickTree.Duration

/-!
# Durations in seconds

Durations as floating-point seconds, and back.

Main results:

- Definition `Duration.toSeconds`: seconds, with the part below a second as a fraction.
- Definition `Duration.ofSeconds?`: the duration nearest to a number of seconds.
-/

namespace TickTree

namespace Duration

/-- The duration in seconds: whole seconds plus the quotient of the remaining nanoseconds. -/
def toSeconds (d : Duration) : Float :=
  d.secs.toUInt64.toFloat + d.subsecNanos.toUInt64.toFloat / 1000000000.0

/-- The duration nearest to a number of seconds, a tie going to the even nanosecond.  There is none
for a negative number, for one that is not finite, and beyond the longest duration. -/
def ofSeconds? (seconds : Float) : Option Duration :=
  match Binary.ofFloat seconds with
  | .nan => none
  | .infinite _ => none
  | .finite negative mantissa exponent =>
    if negative ∧ mantissa ≠ 0 then none
    else
      ofNanos? (roundHalfEven (mantissa * nanosPerSecond * Nat.pow 2 exponent.toNat)
        (Nat.pow 2 (-exponent).toNat))

end Duration

end TickTree
