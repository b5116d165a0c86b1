import TickTree.Node.Lifecycle

/-!
# First states

The state that a node and everything it owns had when it was made, as a function of the node alone.
It does not depend on the world, and a reset arrives at it whatever happens on the way.

Main results:

- Theorem `Node.fst_reset`: a reset leaves the first state behind.
- Theorem `Node.cleared_cleared`: the first state of a first state is itself.
- Theorem `Node.name_cleared`: the first state has the same name.
-/

namespace TickTree

namespace Node

mutual

/-- The first state of a node and of all nodes below it. -/
def cleared : Node → Node
  | leaf part => leaf part.reset
  | composite part children => composite part.reset (clearedChildren children)
  | decorator part child => decorator part.reset (clearedChild child)
  | reference part => reference part.letGo
  | embedded tag root => embedded tag (cleared root)

/-- The first states of the children of a composite. -/
def clearedChildren : List Node → List Node
  | [] => []
  | child :: rest => cleared child :: clearedChildren rest

/-- The first state of the child of a decorator. -/
def clearedChild : Option Node → Option Node
  | none => none
  | some child => some (cleared child)

end

/-- The children are cleared one by one. -/
theorem clearedChildren_eq (children : List Node) :
    clearedChildren children = children.map cleared := by
  induction children with
  | nil => rfl
  | cons child rest ih => simp [clearedChildren, ih]

/-- The child is cleared if there is one. -/
theorem clearedChild_eq (child : Option Node) : clearedChild child = child.map cleared := by
  cases child <;> rfl

mutual

/-- A reset leaves the first state behind. -/
theorem fst_reset (s : Service) : ∀ (n : Node) (w : World), (n.reset s w).1 = n.cleared
  | leaf part, w => by simp [reset, cleared]
  | composite part children, w => by simp [reset, cleared, fst_resetChildren s children w]
  | decorator part child, w => by simp [reset, cleared, fst_resetChild s child w]
  | reference part, w => by simp [reset, cleared, Reference.perform, Reference.after]
  | embedded tag root, w => by simp [reset, cleared, fst_reset s root w]

/-- Resetting the children of a composite leaves their first states behind. -/
theorem fst_resetChildren (s : Service) :
    ∀ (children : List Node) (w : World),
      (resetChildren s children w).1 = clearedChildren children
  | [], w => by simp [resetChildren, clearedChildren]
  | child :: rest, w => by
    simp [resetChildren, clearedChildren, fst_reset s child w, fst_resetChildren s rest _]

/-- Resetting the child of a decorator leaves its first state behind. -/
theorem fst_resetChild (s : Service) :
    ∀ (child : Option Node) (w : World), (resetChild s child w).1 = clearedChild child
  | none, w => by simp [resetChild, clearedChild]
  | some child, w => by simp [resetChild, clearedChild, fst_reset s child w]

end

mutual

/-- The first state of a first state is itself. -/
theorem cleared_cleared : ∀ n : Node, n.cleared.cleared = n.cleared
  | leaf part => by simp [cleared]
  | composite part children => by simp [cleared, clearedChildren_cleared children]
  | decorator part child => by simp [cleared, clearedChild_cleared child]
  | reference part => by simp [cleared, Reference.letGo]
  | embedded tag root => by simp [cleared, cleared_cleared root]

/-- The first states of first states are themselves. -/
theorem clearedChildren_cleared : ∀ children : List Node,
    clearedChildren (clearedChildren children) = clearedChildren children
  | [] => rfl
  | child :: rest => by
    simp [clearedChildren, cleared_cleared child, clearedChildren_cleared rest]

/-- The first state of a first state is itself, if there is a child. -/
theorem clearedChild_cleared : ∀ child : Option Node,
    clearedChild (clearedChild child) = clearedChild child
  | none => rfl
  | some child => by simp [clearedChild, cleared_cleared child]

end

/-- The first state has the same name. -/
theorem name_cleared : ∀ n : Node, n.cleared.name = n.name
  | leaf part => by simp [cleared, name]
  | composite part children => by simp [cleared, name]
  | decorator part child => by simp [cleared, name]
  | reference part => by simp [cleared, name, Reference.letGo]
  | embedded tag root => by
    simp only [cleared, name]
    exact name_cleared root

end Node

end TickTree
