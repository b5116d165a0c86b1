import TickTree.Node.Offer

/-!
# Resetting, starting and finishing

The operations on a node other than a tick.  A reset returns a node and everything it owns to the
first state and lets the targets of references go.  Starting and finishing pass through embedded
trees and references; every other node ignores them.

Main results:

- Theorem `Node.resetChildren_eq`: the children of a composite are reset in order.
- Theorem `Node.name_reset`: a reset keeps the name.
-/

namespace TickTree

/-- Records an operation on a probe that records all operations. -/
def Leaf.observe (operation : Operation) : Leaf → World → World
  | .probe name script true, w => w.emit (.observed script.seat name operation)
  | _, w => w

/-- An operation on a reference other than a tick. -/
def Reference.perform (s : Service) (operation : Operation) (r : Reference) (w : World) :
    Reference × World :=
  (r.after operation, (s.send (r.requests operation) .failure w).2)

namespace Node

mutual

/-- Returns a node and all nodes below it to the first state. -/
def reset (s : Service) : Node → World → Node × World
  | leaf part, w => (leaf part.reset, part.observe .reset w)
  | composite part children, w =>
    let rest := resetChildren s children w
    (composite part.reset rest.1, rest.2)
  | decorator part child, w =>
    let rest := resetChild s child w
    (decorator part.reset rest.1, rest.2)
  | reference part, w =>
    let rest := part.perform s .reset w
    (reference rest.1, rest.2)
  | embedded tag root, w =>
    let rest := reset s root w
    (embedded tag rest.1, rest.2)

/-- Resets the children of a composite, in order. -/
def resetChildren (s : Service) : List Node → World → List Node × World
  | [], w => ([], w)
  | child :: rest, w =>
    let first := reset s child w
    let others := resetChildren s rest first.2
    (first.1 :: others.1, others.2)

/-- Resets the child of a decorator. -/
def resetChild (s : Service) : Option Node → World → Option Node × World
  | none, w => (none, w)
  | some child, w =>
    let rest := reset s child w
    (some rest.1, rest.2)

end

/-- Tells a node that it becomes the active target of a dynamic sub-tree. -/
def start (s : Service) : Node → World → Node × World
  | leaf part, w => (leaf part, part.observe .start w)
  | composite part children, w => (composite part children, w)
  | decorator part child, w => (decorator part child, w)
  | reference part, w =>
    let rest := part.perform s .start w
    (reference rest.1, rest.2)
  | embedded tag root, w =>
    let rest := start s root w
    (embedded tag rest.1, rest.2)

/-- Tells a node that it stops being the active target of a dynamic sub-tree. -/
def finish (s : Service) : Node → World → Node × World
  | leaf part, w => (leaf part, part.observe .finish w)
  | composite part children, w => (composite part children, w)
  | decorator part child, w => (decorator part child, w)
  | reference part, w =>
    let rest := part.perform s .finish w
    (reference rest.1, rest.2)
  | embedded tag root, w =>
    let rest := finish s root w
    (embedded tag rest.1, rest.2)

/-- The children of a composite are reset in order. -/
theorem resetChildren_eq (s : Service) (children : List Node) (w : World) :
    resetChildren s children w = resetAll (reset s) children w := by
  induction children generalizing w with
  | nil => simp [resetChildren, resetAll]
  | cons child rest ih => simp [resetChildren, resetAll, ih]

/-- A reset keeps the name. -/
theorem name_reset (s : Service) : ∀ (n : Node) (w : World), (n.reset s w).1.name = n.name
  | leaf part, w => by simp [reset, name]
  | composite part children, w => by simp [reset, name]
  | decorator part child, w => by simp [reset, name]
  | reference part, w => by simp [reset, name, Reference.perform, Reference.after, Reference.letGo]
  | embedded tag root, w => by
    simp only [reset, name]
    exact name_reset s root w

end Node

end TickTree
