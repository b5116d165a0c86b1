import TickTree.Node.Composite
import TickTree.Node.Decorator
import TickTree.Node.Leaf
import TickTree.Node.Reference

/-!
# Nodes

A tree is its root node.  Nodes are plain data: all of their state is in them, and what they use
but do not own (clocks, random sources, shared trees, callback positions) is in the world.

Main results:

- Definitions `Node.name` and `Node.seats`: the name of a node, and its callbacks from the root
  downwards.
- Theorem `Node.induction`: what holds of a node when it holds of its children holds of all nodes.
-/

namespace TickTree

/-- Marks a node that can be reached from outside its tree.  Of several nodes with one label the
latest is meant. -/
structure Tag where
  label : String
  serial : Nat
  deriving DecidableEq

/-- A node and all nodes below it. -/
inductive Node where
  | leaf (part : Leaf)
  | composite (part : Composite) (children : List Node)
  | decorator (part : Decorator) (child : Option Node)
  | reference (part : Reference)
  /-- A tree in the place of a node.  It does what its root does. -/
  | embedded (tag : Option Tag) (root : Node)

instance : Inhabited Node := ⟨.composite (.ofKind .sequence) []⟩

namespace Node

/-- What holds of a node when it holds of its children holds of all nodes. -/
@[elab_as_elim, induction_eliminator]
theorem induction {motive : Node → Prop} (leaf : ∀ part, motive (.leaf part))
    (composite : ∀ part children, (∀ child ∈ children, motive child) →
      motive (.composite part children))
    (decorator : ∀ part child, (∀ inner, child = some inner → motive inner) →
      motive (.decorator part child))
    (reference : ∀ part, motive (.reference part))
    (embedded : ∀ tag root, motive root → motive (.embedded tag root)) (n : Node) : motive n := by
  refine @Node.rec motive (fun children => ∀ child ∈ children, motive child)
    (fun child => ∀ inner, child = some inner → motive inner) leaf composite decorator reference
    embedded ?_ ?_ ?_ ?_ n
  · intro child h
    exact absurd h List.not_mem_nil
  · intro first rest hfirst hrest child h
    cases h with
    | head => exact hfirst
    | tail _ h => exact hrest child h
  · intro inner h
    cases h
  · intro inner hinner other h
    cases h
    exact hinner

/-- The name of a node; an embedded tree has the name of its root. -/
def name : Node → String
  | leaf part => part.name
  | composite part _ => part.name
  | decorator part _ => part.name
  | reference part => part.name
  | embedded _ root => root.name

mutual

/-- The seats of all callbacks below a node, a decorator's before those of its child. -/
def seats : Node → List Nat
  | leaf part => part.seats
  | composite _ children => seatsOfChildren children
  | decorator part child => part.seats ++ seatsOfChild child
  | reference part => part.seats
  | embedded _ root => seats root

/-- The seats of all callbacks below the children of a composite. -/
def seatsOfChildren : List Node → List Nat
  | [] => []
  | child :: rest => seats child ++ seatsOfChildren rest

/-- The seats of all callbacks below the child of a decorator. -/
def seatsOfChild : Option Node → List Nat
  | none => []
  | some child => seats child

end

theorem seatsOfChildren_eq (children : List Node) :
    seatsOfChildren children = children.flatMap seats := by
  induction children with
  | nil => rfl
  | cons child rest ih => simp [seatsOfChildren, ih]

end Node

end TickTree
