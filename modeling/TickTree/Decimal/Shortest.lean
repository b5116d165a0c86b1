import TickTree.Decimal.Binary

/-!
# Shortest decimals

The decimal with the fewest digits that is read back as a given binary number, and the nearest to it
among those, a tie going up.  The reals that round to a binary number form an interval; the search
goes down the decimal grids and stops at the first grid with a point in the interval.

Main results:

- Definition `shortest`: the digits and the decimal exponent of a positive binary number.
-/

namespace TickTree

/-- The decimal `digits * 10 ^ exponent`. -/
structure Decimal where
  digits : Nat
  exponent : Int
  deriving DecidableEq

namespace Decimal

/-- The numbers that round to `mantissa * 2 ^ exponent`, counted in quarters of the last binary
place: `center - below` to `center + 2`, ends included exactly when `closed`. -/
structure Interval where
  center : Nat
  below : Nat
  closed : Bool

/-- The rounding interval of a positive binary number.  The gap below a power of two is half as
wide as the gap above, except at the smallest exponent. -/
def Interval.of (mantissa : Nat) (exponent : Int) : Interval :=
  { center := 4 * mantissa
    below := if mantissa = 4503599627370496 ∧ -1074 < exponent then 1 else 2
    closed := decide (mantissa % 2 = 0) }

/-- A point of a grid, `point * grid`, lies in an interval whose unit is `unit`. -/
def Interval.contains (i : Interval) (unit grid point : Nat) : Bool :=
  if i.closed then
    decide ((i.center - i.below) * unit ≤ point * grid ∧ point * grid ≤ (i.center + 2) * unit)
  else
    decide ((i.center - i.below) * unit < point * grid ∧ point * grid < (i.center + 2) * unit)

/-- The point of a grid that lies in the interval and is nearest to its center, if there is one; of
two equally near points, the greater. -/
def Interval.pick? (i : Interval) (unit grid : Nat) : Option Nat :=
  let low := i.center * unit / grid
  let high := low + 1
  match i.contains unit grid low, i.contains unit grid high with
  | true, true =>
    if 2 * (i.center * unit) < low * grid + high * grid then some low else some high
  | true, false => some low
  | false, true => some high
  | false, false => none

/-- The nearest point on the first of `steps` grids, from `10 ^ start` downwards, that has a point
in the interval; `exponent` is the binary exponent of the interval's unit. -/
def search (i : Interval) (exponent : Int) : (steps : Nat) → (start : Int) → Option Decimal
  | 0, _ => none
  | steps + 1, start =>
    let unit := Nat.pow 2 exponent.toNat * Nat.pow 10 (-start).toNat
    let grid := Nat.pow 2 (-exponent).toNat * Nat.pow 10 start.toNat
    match i.pick? unit grid with
    | some digits => some ⟨digits, start⟩
    | none => search i exponent steps (start - 1)

/-- The shortest decimal of `mantissa * 2 ^ exponent`.  The search starts above the leading digit;
every number is found within eighteen digits below it. -/
def shortest (mantissa : Nat) (exponent : Int) : Decimal :=
  let leading := ((mantissa.log2 : Int) + 1 + exponent) * 30103 / 100000 + 1
  let exact : Decimal :=
    ⟨mantissa * Nat.pow 2 exponent.toNat * Nat.pow 5 (-exponent).toNat,
      -((-exponent).toNat : Int)⟩
  (search (Interval.of mantissa exponent) (exponent - 2) 24 leading).getD exact

end Decimal

end TickTree
