/-!
# Faults

Conditions under which an operation cannot be carried out at all.  A fault ends the work in
hand; it is never an answer of a node.
-/

namespace TickTree

/-- Why an operation was broken off. -/
inductive Fault where
  /-- A clock was pushed past the longest duration. -/
  | clockOverflow
  /-- The parts of a duration add up to more than the longest duration. -/
  | durationOverflow
  /-- An index was drawn from an empty range. -/
  | emptyRange
  deriving DecidableEq

/-- The wording of a fault. -/
def Fault.message : Fault → String
  | clockOverflow => "overflow when adding durations"
  | durationOverflow => "overflow in Duration::new"
  | emptyRange => "cannot sample empty range"

end TickTree
