import TickTree.Duration

/-!
# Clocks

A clock is moved by hand: forward by a step, or to a later reading.  It never goes back.

Main results:

- Theorems `Clock.le_of_advance?` and `Clock.le_set`: no operation moves a clock back.
-/

namespace TickTree

/-- A clock shows the time that has passed since its origin. -/
structure Clock where
  now : Duration
  deriving DecidableEq

namespace Clock

/-- A clock at its origin. -/
def start : Clock := ⟨Duration.zero⟩

instance : Inhabited Clock := ⟨start⟩

/-- Moves a clock forward by a step, unless it would pass the longest duration. -/
def advance? (c : Clock) (step : Duration) : Option Clock :=
  (c.now.add? step).map Clock.mk

/-- Moves a clock to a later reading; an earlier reading changes nothing. -/
def set (c : Clock) (reading : Duration) : Clock :=
  if c.now < reading then ⟨reading⟩ else c

/-- A step never moves a clock back. -/
theorem le_of_advance? {c d : Clock} {step : Duration} (h : c.advance? step = some d) :
    c.now ≤ d.now := by
  unfold advance? Duration.add? at h
  rcases Option.map_eq_some_iff.1 h with ⟨r, hr, rfl⟩
  have := Duration.ofNanos?_eq_some_iff.1 hr
  show c.now.nanos ≤ r.nanos
  omega

/-- A jump never moves a clock back. -/
theorem le_set (c : Clock) (reading : Duration) : c.now ≤ (c.set reading).now := by
  unfold set
  split
  next h => exact Nat.le_of_lt h
  next => exact Nat.le_refl _

end Clock

end TickTree
