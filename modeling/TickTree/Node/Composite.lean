import TickTree.Callback

/-!
# Composites

The nodes with a list of children, without the children: sequences and selectors, random selectors,
and parallel nodes.

Main results:

- Theorem `Composite.reset_reset`: resetting a composite twice is resetting it once.
- Theorem `Chain.dual_dual`: sequence and selector are each other's dual.
-/

namespace TickTree

/-- How a node goes through its children one after the other: a sequence goes on after success, a
selector after failure. -/
inductive Chain where
  | sequence
  | selector
  deriving DecidableEq

namespace Chain

/-- The status after which the next child has its turn; it is also the result when no child is
left. -/
def passes : Chain → Status
  | sequence => .success
  | selector => .failure

/-- The status that ends the activation at once. -/
def stops : Chain → Status
  | sequence => .failure
  | selector => .success

/-- The name of a node that was given none. -/
def defaultName : Chain → String
  | sequence => "Sequence"
  | selector => "Selector"

/-- What the log says when the next child has its turn. -/
def progress : Chain → String
  | sequence => "advanced to"
  | selector => "fell back to"

/-- Exchanges sequence and selector. -/
def dual : Chain → Chain
  | sequence => selector
  | selector => sequence

@[simp] theorem dual_dual (c : Chain) : c.dual.dual = c := by
  cases c <;> rfl

@[simp] theorem passes_dual (c : Chain) : c.dual.passes = c.passes.invert := by
  cases c <;> rfl

@[simp] theorem stops_dual (c : Chain) : c.dual.stops = c.stops.invert := by
  cases c <;> rfl

end Chain

/-- A node with children, without the children. -/
inductive Composite where
  /-- Goes through its children in order; `cursor` is the child whose turn it is. -/
  | chain (kind : Chain) (name : String) (cursor : Nat)
  /-- Ticks one child, chosen at random for the whole activation. -/
  | randomSelector (source : SourceId) (selected : Option Nat)
  /-- Ticks all children each time and counts their statuses. -/
  | parallel (success failure : Policy)

namespace Composite

/-- The name of a composite. -/
def name : Composite → String
  | chain _ name _ => name
  | randomSelector _ _ => "RandomSelector"
  | parallel success failure => s!"Parallel({success.text}, {failure.text})"

/-- The first state of a composite. -/
def reset : Composite → Composite
  | chain kind name _ => chain kind name 0
  | randomSelector source _ => randomSelector source none
  | parallel success failure => parallel success failure

/-- Uses the source of a configuration. -/
def withConfig (config : Config) : Composite → Composite
  | randomSelector _ selected => randomSelector config.source selected
  | composite => composite

/-- A sequence or selector at its first child. -/
def named (kind : Chain) (name : String) : Composite := chain kind name 0

/-- A sequence or selector with the name of its kind. -/
def ofKind (kind : Chain) : Composite := named kind kind.defaultName

/-- A parallel node that succeeds when all children succeed and fails when one fails. -/
def parallelDefault : Composite := parallel .requireAll .requireOne

/-- Resetting a composite twice is resetting it once. -/
@[simp] theorem reset_reset (c : Composite) : c.reset.reset = c.reset := by
  cases c <;> rfl

/-- A reset keeps the name. -/
@[simp] theorem name_reset (c : Composite) : c.reset.name = c.name := by
  cases c <;> rfl

end Composite

end TickTree
