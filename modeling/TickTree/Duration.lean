/-!
# Durations

A duration is a whole number of nanoseconds below 2^64 seconds.  Readings of a clock are
durations since its origin.

Main results:

- Theorem `Duration.add?_eq_none_iff`: a sum is refused exactly when it passes the longest
  duration.
- Theorem `Duration.secs_mul_add_subsec`: seconds and nanoseconds within the second give the
  duration back.
-/

namespace TickTree

/-- The number of nanoseconds in a second. -/
def nanosPerSecond : Nat := 1000000000

/-- The number of nanoseconds in a millisecond. -/
def nanosPerMilli : Nat := 1000000

/-- The longest duration in nanoseconds: one less than 2^64 seconds. -/
def maxNanos : Nat := 18446744073709551616 * nanosPerSecond - 1

/-- A time span in nanoseconds, at most the longest duration. -/
structure Duration where
  nanos : Nat
  le_max : nanos ≤ maxNanos
  deriving DecidableEq

namespace Duration

@[ext] theorem ext {a b : Duration} (h : a.nanos = b.nanos) : a = b := by
  cases a; cases b; cases h; rfl

/-- No time at all. -/
def zero : Duration := ⟨0, by decide⟩

/-- The longest duration. -/
def max : Duration := ⟨maxNanos, Nat.le_refl _⟩

instance : Inhabited Duration := ⟨zero⟩

instance : LE Duration := ⟨fun a b => a.nanos ≤ b.nanos⟩

instance : LT Duration := ⟨fun a b => a.nanos < b.nanos⟩

instance (a b : Duration) : Decidable (a ≤ b) := inferInstanceAs (Decidable (a.nanos ≤ b.nanos))

instance (a b : Duration) : Decidable (a < b) := inferInstanceAs (Decidable (a.nanos < b.nanos))

theorem le_def (a b : Duration) : a ≤ b ↔ a.nanos ≤ b.nanos := Iff.rfl

theorem lt_def (a b : Duration) : a < b ↔ a.nanos < b.nanos := Iff.rfl

/-! ## Making durations -/

/-- The duration of so many nanoseconds, if there is one. -/
def ofNanos? (n : Nat) : Option Duration :=
  if h : n ≤ maxNanos then some ⟨n, h⟩ else none

/-- Seconds and nanoseconds put together; nanoseconds beyond a second carry over. -/
def ofParts? (secs nanos : Nat) : Option Duration :=
  ofNanos? (secs * nanosPerSecond + nanos)

/-- The duration of so many milliseconds, if there is one. -/
def ofMillis? (millis : Nat) : Option Duration :=
  ofNanos? (millis * nanosPerMilli)

/-! ## Parts and arithmetic -/

/-- Whole seconds. -/
def secs (d : Duration) : Nat := d.nanos / nanosPerSecond

/-- Nanoseconds within the last second. -/
def subsecNanos (d : Duration) : Nat := d.nanos % nanosPerSecond

/-- Whole milliseconds. -/
def millis (d : Duration) : Nat := d.nanos / nanosPerMilli

/-- The sum, unless it passes the longest duration. -/
def add? (a b : Duration) : Option Duration := ofNanos? (a.nanos + b.nanos)

/-- The difference, or no time if it would be negative. -/
def sub (a b : Duration) : Duration :=
  ⟨a.nanos - b.nanos, Nat.le_trans (Nat.sub_le _ _) a.le_max⟩

instance : Sub Duration := ⟨sub⟩

@[simp] theorem nanos_sub (a b : Duration) : (a - b).nanos = a.nanos - b.nanos := rfl

@[simp] theorem nanos_zero : zero.nanos = 0 := rfl

@[simp] theorem nanos_max : max.nanos = maxNanos := rfl

/-- Seconds and nanoseconds within the second give the duration back. -/
theorem secs_mul_add_subsec (d : Duration) :
    d.secs * nanosPerSecond + d.subsecNanos = d.nanos := by
  unfold secs subsecNanos
  rw [Nat.mul_comm]
  exact Nat.div_add_mod _ _

/-- A number of nanoseconds makes a duration exactly when it is at most the longest. -/
theorem ofNanos?_eq_some_iff {n : Nat} {d : Duration} :
    ofNanos? n = some d ↔ d.nanos = n := by
  unfold ofNanos?
  split
  next h =>
    constructor
    · intro e
      cases e
      rfl
    · intro e
      cases e
      rfl
  next h =>
    constructor
    · intro e
      cases e
    · intro e
      exact absurd (e ▸ d.le_max) h

/-- A sum is refused exactly when it passes the longest duration. -/
theorem add?_eq_none_iff (a b : Duration) :
    a.add? b = none ↔ maxNanos < a.nanos + b.nanos := by
  unfold add? ofNanos?
  split <;> simp <;> omega

end Duration

end TickTree
