/-!
# Binary numbers

A double-precision number taken apart into sign, mantissa and binary exponent, and the rounding
of an exact quotient to a whole number.  Everything after the first step is integer arithmetic.

Main results:

- Theorems `roundHalfEven_mul_le` and `le_roundHalfEven_mul`: the rounded quotient is within half
  a unit of the exact one.
-/

namespace TickTree

/-- A double-precision number: not a number, an infinity, or `mantissa * 2 ^ exponent` with a
sign. -/
inductive Binary where
  | nan
  | infinite (negative : Bool)
  | finite (negative : Bool) (mantissa : Nat) (exponent : Int)
  deriving DecidableEq

/-- Takes a floating-point number apart. -/
def Binary.ofFloat (x : Float) : Binary :=
  let bits := x.toBits.toNat
  let negative := decide (9223372036854775808 ≤ bits)
  let biased := bits / 4503599627370496 % 2048
  let fraction := bits % 4503599627370496
  if biased = 2047 then
    if fraction = 0 then .infinite negative else .nan
  else if biased = 0 then
    .finite negative fraction (-1074)
  else
    .finite negative (4503599627370496 + fraction) ((biased : Int) - 1075)

/-- The whole number nearest to a quotient; of two equally near ones, the even one. -/
def roundHalfEven (num den : Nat) : Nat :=
  let q := num / den
  let r := num % den
  if 2 * r < den then q
  else if den < 2 * r then q + 1
  else if q % 2 = 0 then q
  else q + 1

/-- Rounding goes up by at most half a unit. -/
theorem roundHalfEven_mul_le (num den : Nat) :
    2 * (roundHalfEven num den * den) ≤ 2 * num + den := by
  have h := Nat.div_add_mod num den
  have hc : num / den * den = den * (num / den) := Nat.mul_comm _ _
  unfold roundHalfEven
  simp only []
  split
  · omega
  · split
    · rw [Nat.add_mul]; omega
    · split
      · omega
      · rw [Nat.add_mul]; omega

/-- Rounding goes down by at most half a unit. -/
theorem le_roundHalfEven_mul (num den : Nat) (hden : 0 < den) :
    2 * num ≤ 2 * (roundHalfEven num den * den) + den := by
  have h := Nat.div_add_mod num den
  have hr := Nat.mod_lt num hden
  have hc : num / den * den = den * (num / den) := Nat.mul_comm _ _
  unfold roundHalfEven
  simp only []
  split
  · omega
  · split
    · rw [Nat.add_mul]; omega
    · split
      · omega
      · rw [Nat.add_mul]; omega

end TickTree
