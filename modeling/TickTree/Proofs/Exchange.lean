import TickTree.Node.Cleared

/-!
# Exchanging leaves

A tree with the same shape as another one and other leaves in the same places.  The leaves that are
put in keep their names, their seats and what is observed of them, and they are put in the same way
in every state; so an exchange of leaves commutes with everything that is done to a tree but its
ticks.

Main results:

- Theorem `Node.exchange_same`: exchanging every leaf for itself changes nothing.
- Theorem `Node.name_exchange`: an exchange keeps the name of a tree.
- Theorem `Node.cleared_exchange`: an exchange commutes with going back to the first state.
-/

namespace TickTree

/-- A way of putting other leaves in the place of leaves. -/
structure Exchange where
  leaf : Leaf → Leaf
  name : ∀ part : Leaf, (leaf part).name = part.name
  reset : ∀ part : Leaf, (leaf part).reset = leaf part.reset
  atSeat : ∀ (seat : Nat) (part : Leaf), (leaf part).atSeat seat = leaf (part.atSeat seat)
  withConfig : ∀ (config : Config) (part : Leaf),
    (leaf part).withConfig config = leaf (part.withConfig config)
  observe : ∀ (operation : Operation) (part : Leaf) (w : World),
    (leaf part).observe operation w = part.observe operation w

/-- Every leaf stays as it is. -/
def Exchange.same : Exchange where
  leaf part := part
  name _ := rfl
  reset _ := rfl
  atSeat _ _ := rfl
  withConfig _ _ := rfl
  observe _ _ _ := rfl

namespace Node

variable (e : Exchange)

mutual

/-- Exchanges the leaves of a tree. -/
def exchange : Node → Node
  | leaf part => leaf (e.leaf part)
  | composite part children => composite part (exchangeChildren children)
  | decorator part child => decorator part (exchangeChild child)
  | reference part => reference part
  | embedded tag root => embedded tag (exchange root)

/-- Exchanges the leaves below the children of a composite. -/
def exchangeChildren : List Node → List Node
  | [] => []
  | child :: rest => exchange child :: exchangeChildren rest

/-- Exchanges the leaves below the child of a decorator. -/
def exchangeChild : Option Node → Option Node
  | none => none
  | some child => some (exchange child)

end

/-- The children of a composite are exchanged one by one. -/
theorem exchangeChildren_eq (children : List Node) :
    exchangeChildren e children = children.map (exchange e) := by
  induction children with
  | nil => rfl
  | cons child rest ih => simp only [exchangeChildren, List.map_cons, ih]

/-- The child of a decorator is exchanged if there is one. -/
theorem exchangeChild_eq (child : Option Node) :
    exchangeChild e child = child.map (exchange e) := by
  cases child <;> rfl

/-- Exchanging every leaf for itself changes nothing. -/
@[simp] theorem exchange_same (n : Node) : n.exchange .same = n := by
  induction n with
  | leaf part => rfl
  | composite part children ih =>
    rw [exchange, exchangeChildren_eq, List.map_congr_left ih, List.map_id']
  | decorator part child ih =>
    cases child with
    | none => rfl
    | some inner => rw [exchange, exchangeChild, ih inner rfl]
  | reference part => rfl
  | embedded tag root ih => rw [exchange, ih]

/-- An exchange keeps the name of a tree. -/
theorem name_exchange (n : Node) : (n.exchange e).name = n.name := by
  induction n with
  | leaf part => exact e.name part
  | composite part children => rfl
  | decorator part child => rfl
  | reference part => rfl
  | embedded tag root ih => exact ih

/-- An exchange commutes with going back to the first state. -/
theorem cleared_exchange (n : Node) : (n.exchange e).cleared = n.cleared.exchange e := by
  induction n with
  | leaf part => exact congrArg leaf (e.reset part)
  | composite part children ih =>
    simp only [exchange, cleared, exchangeChildren_eq, clearedChildren_eq, List.map_map]
    exact congrArg (composite part.reset) (List.map_congr_left ih)
  | decorator part child ih =>
    cases child with
    | none => rfl
    | some inner =>
      simp only [exchange, exchangeChild, cleared, clearedChild, ih inner rfl]
  | reference part => rfl
  | embedded tag root ih => simp only [exchange, cleared, ih]

end Node

end TickTree
