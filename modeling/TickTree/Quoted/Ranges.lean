/-!
# Ranges of characters

A class of characters is listed as closed ranges of character numbers in ascending order, so that a
search can stop at the first range that begins later.

Main results:

- Theorem `Ranges.covers_iff`: in ascending ranges the search misses nothing.
-/

namespace TickTree

/-- Closed ranges of character numbers, each with its first and its last number. -/
abbrev Ranges := List (Nat × Nat)

namespace Ranges

/-- The number is in one of the ranges, which are in ascending order. -/
def covers : Ranges → Nat → Bool
  | [], _ => false
  | (first, last) :: rest, n =>
    if n < first then false
    else if n ≤ last then true
    else covers rest n

/-- The ranges are in ascending order, do not overlap, and begin at a bound or beyond it. -/
def ascendsFrom : (bound : Nat) → Ranges → Bool
  | _, [] => true
  | bound, (first, last) :: rest =>
    decide (bound ≤ first) && decide (first ≤ last) && ascendsFrom (last + 1) rest

/-- Ascending ranges hold nothing below their bound. -/
theorem bound_le_of_mem {r : Ranges} {bound : Nat} (h : ascendsFrom bound r = true)
    {first last : Nat} (hr : (first, last) ∈ r) : bound ≤ first := by
  induction r generalizing bound with
  | nil => cases hr
  | cons range rest ih =>
    rcases range with ⟨low, high⟩
    simp only [ascendsFrom, Bool.and_eq_true, decide_eq_true_eq] at h
    rcases h with ⟨⟨hb, hl⟩, hrest⟩
    cases hr with
    | head => exact hb
    | tail _ hr =>
      have := ih hrest hr
      omega

/-- Ascending ranges cover nothing below their bound. -/
theorem covers_of_lt {r : Ranges} {bound n : Nat} (h : ascendsFrom bound r = true)
    (hn : n < bound) : r.covers n = false := by
  cases r with
  | nil => rfl
  | cons range rest =>
    have := bound_le_of_mem h (.head _)
    simp [covers, show n < range.1 by omega]

/-- In ascending ranges the search misses nothing. -/
theorem covers_iff {r : Ranges} {bound : Nat} (h : ascendsFrom bound r = true) (n : Nat) :
    r.covers n = true ↔ ∃ first last, (first, last) ∈ r ∧ first ≤ n ∧ n ≤ last := by
  induction r generalizing bound with
  | nil => simp [covers]
  | cons range rest ih =>
    rcases range with ⟨low, high⟩
    simp only [ascendsFrom, Bool.and_eq_true, decide_eq_true_eq] at h
    rcases h with ⟨⟨hb, hl⟩, hrest⟩
    unfold covers
    split
    next hn =>
      constructor
      · intro e
        cases e
      · rintro ⟨first, last, hr, hf, -⟩
        cases hr with
        | head => omega
        | tail _ hr =>
          have := bound_le_of_mem hrest hr
          omega
    next hn =>
      split
      next hh => exact ⟨fun _ => ⟨low, high, .head _, by omega, hh⟩, fun _ => rfl⟩
      next hh =>
        rw [ih hrest]
        constructor
        · rintro ⟨first, last, hr, hf, hl'⟩
          exact ⟨first, last, .tail _ hr, hf, hl'⟩
        · rintro ⟨first, last, hr, hf, hl'⟩
          cases hr with
          | head => omega
          | tail _ hr => exact ⟨first, last, hr, hf, hl'⟩

end Ranges

end TickTree
