import TickTree.Random.Keystream

/-!
# Random sources

A source is a stream of words and the position of the next one.  All draws are made from whole
words: a fraction of the unit interval, an index below a bound, and a normally distributed number.

Main results:

- Theorem `Source.index_lt`: an index drawn below a positive bound is below that bound.
- Theorem `Source.unit_lt`: a fraction has 53 bits.
-/

namespace TickTree

/-- A stream of random words and the number of words drawn from it. -/
structure Source where
  stream : Nat → UInt64
  position : Nat

namespace Source

/-- The source of a seed, at its first word. -/
def seeded (seed : UInt64) : Source := ⟨Keystream.ofSeed seed, 0⟩

instance : Inhabited Source := ⟨seeded 0⟩

/-- Draws one word. -/
def word (s : Source) : UInt64 × Source :=
  (s.stream s.position, { s with position := s.position + 1 })

/-- Draws a fraction of the unit interval, in units of 2^-53. -/
def unit (s : Source) : Nat × Source :=
  (s.word.1.toNat / 2048, s.word.2)

/-- The number in the unit interval that a fraction stands for. -/
def unitValue (fraction : Nat) : Float :=
  fraction.toUInt64.toFloat * (1.0 / 9007199254740992.0)

/-- The number of draws after which an index is taken whatever the remainder is. -/
def indexAttempts : Nat := 4096

/-- The largest remainder at which an index is taken, so that all indices are equally likely. -/
def indexZone (bound : Nat) : Nat :=
  bound * Nat.pow 2 (63 - bound.log2) - 1

/-- Draws words until the low half of word times bound is in the zone; the high half is the
index. -/
def indexFrom : (attempts : Nat) → (bound : Nat) → Source → Nat × Source
  | 0, bound, s =>
    ((s.word.1.toNat * bound) / 18446744073709551616, s.word.2)
  | attempts + 1, bound, s =>
    let product := s.word.1.toNat * bound
    if product % 18446744073709551616 ≤ indexZone bound then
      (product / 18446744073709551616, s.word.2)
    else
      indexFrom attempts bound s.word.2

/-- Draws an index below a bound. -/
def index (bound : Nat) (s : Source) : Nat × Source := indexFrom indexAttempts bound s

/-- The full turn. -/
def tau : Float := 6.283185307179586

/-- Draws a normally distributed number with mean 0 and deviation 1 from two fractions. -/
def gaussian (s : Source) : Float × Source :=
  let (first, s) := s.unit
  let (second, s) := s.unit
  let radius := (-2.0 * (1.0 - unitValue first).log).sqrt
  (radius * (tau * unitValue second).cos, s)

/-- The high half of word times bound is below the bound. -/
private theorem high_lt (w : UInt64) {bound : Nat} (h : 0 < bound) :
    w.toNat * bound / 18446744073709551616 < bound := by
  have hw : w.toNat < 18446744073709551616 := w.toNat_lt
  rw [Nat.div_lt_iff_lt_mul (by decide), Nat.mul_comm bound]
  exact Nat.mul_lt_mul_of_pos_right hw h

private theorem indexFrom_lt (attempts : Nat) {bound : Nat} (h : 0 < bound) (s : Source) :
    (indexFrom attempts bound s).1 < bound := by
  induction attempts generalizing s with
  | zero => exact high_lt _ h
  | succ attempts ih =>
    unfold indexFrom
    simp only []
    split
    · exact high_lt _ h
    · exact ih _

/-- An index drawn below a positive bound is below that bound. -/
theorem index_lt {bound : Nat} (h : 0 < bound) (s : Source) : (index bound s).1 < bound :=
  indexFrom_lt _ h s

/-- A fraction has 53 bits. -/
theorem unit_lt (s : Source) : s.unit.1 < 9007199254740992 := by
  have hw : s.word.1.toNat < 18446744073709551616 := s.word.1.toNat_lt
  unfold unit
  simp only []
  omega

end Source

end TickTree
