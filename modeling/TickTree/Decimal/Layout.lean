import TickTree.Decimal.Shortest

/-!
# Layout of numbers

How the digits of a number are set out as text.  The choices of a format are one record; the two
formats of this library are its values `Layout.plain` and `Layout.exact`.

Main results:

- Definition `Layout.render`: the text of a floating-point number in a format.
-/

namespace TickTree

/-- The choices of a number format. -/
structure Layout where
  /-- What follows the last digit of a whole number in positional notation. -/
  wholeMark : String
  /-- The exponents of the leading digit, from the first up to the second, that are written
  positionally; without bounds all are. -/
  positional : Option (Int × Int)

namespace Layout

/-- Numbers in messages are always positional, and whole numbers have no fraction. -/
def plain : Layout := ⟨"", none⟩

/-- Numbers in descriptions keep a fraction and are positional from 0.0001 up to 10^16. -/
def exact : Layout := ⟨".0", some (-4, 16)⟩

/-- So many zeros. -/
def zeros (n : Nat) : List Char := List.replicate n '0'

/-- Positional notation. -/
def renderPositional (l : Layout) (d : Decimal) : String :=
  let digits := (Nat.repr d.digits).toList
  let places := (-d.exponent).toNat
  if places = 0 then
    String.ofList (digits ++ zeros d.exponent.toNat) ++ l.wholeMark
  else if places < digits.length then
    let whole := digits.length - places
    String.ofList (digits.take whole ++ '.' :: digits.drop whole)
  else
    String.ofList ('0' :: '.' :: zeros (places - digits.length) ++ digits)

/-- Scientific notation: one digit before the point and a bare exponent. -/
def renderScientific (d : Decimal) (leading : Int) : String :=
  let fraction := match (Nat.repr d.digits).toList with
    | [] => []
    | [digit] => [digit]
    | digit :: rest => digit :: '.' :: rest
  let mark := if leading < 0 then "e-" else "e"
  String.ofList fraction ++ mark ++ Nat.repr leading.natAbs

/-- The text of a decimal: positional within the bounds of the format, else scientific. -/
def renderDecimal (l : Layout) (d : Decimal) : String :=
  let leading := d.exponent + ((Nat.repr d.digits).length : Int) - 1
  match l.positional with
  | none => l.renderPositional d
  | some (low, high) =>
    if low ≤ leading ∧ leading < high then l.renderPositional d else renderScientific d leading

/-- The text of a floating-point number. -/
def render (l : Layout) (x : Float) : String :=
  match Binary.ofFloat x with
  | .nan => "NaN"
  | .infinite negative => if negative then "-inf" else "inf"
  | .finite negative mantissa exponent =>
    let size :=
      if mantissa = 0 then "0" ++ l.wholeMark
      else l.renderDecimal (Decimal.shortest mantissa exponent)
    if negative then "-" ++ size else size

end Layout

end TickTree
