import TickTree.Callback

/-!
# References to shared trees

The two nodes that put another tree in their place: a sub-tree looks its target up once and keeps it
until it is reset; a dynamic sub-tree looks it up on every tick and follows every change.  What a
reference asks of its targets is a list of requests, so that the protocol it keeps can be read
off the requests alone.

Main results:

- Theorem `Reference.held_reset`: a reference that was reset holds no target.
-/

namespace TickTree

/-- How a reference finds its target. -/
inductive Reference.Kind where
  /-- Once, until the next reset. -/
  | sticky
  /-- On every tick. -/
  | dynamic
  deriving DecidableEq

/-- A node that stands for a shared tree. -/
structure Reference where
  kind : Reference.Kind
  name : String
  supplier : Supplier (Option Supply)
  held : Option TreeId

/-- A request to a shared tree. -/
abbrev Request := Operation × TreeId

namespace Reference

/-- A reference without a target. -/
def new (kind : Kind) (name : String) (supplier : Supplier (Option Supply)) : Reference :=
  ⟨kind, name, supplier, none⟩

/-- A sub-tree that always finds one tree. -/
def toTree (name : String) (tree : TreeId) : Reference :=
  new .sticky name (.constant (some (.existing tree)))

/-- What is asked of a target that is let go: a sub-tree resets it, a dynamic sub-tree ends it
first. -/
def release (r : Reference) : List Request :=
  match r.held, r.kind with
  | none, _ => []
  | some tree, .sticky => [(.reset, tree)]
  | some tree, .dynamic => [(.finish, tree), (.reset, tree)]

/-- A reference without its target. -/
def letGo (r : Reference) : Reference := { r with held := none }

/-- What an operation other than a tick asks of the target. -/
def requests (r : Reference) : Operation → List Request
  | .tick => []
  | .reset => r.release
  | .start => r.held.toList.map (Prod.mk .start)
  | .finish =>
    match r.kind with
    | .sticky => r.held.toList.map (Prod.mk .finish)
    | .dynamic => r.release

/-- The reference after an operation other than a tick. -/
def after (r : Reference) : Operation → Reference
  | .tick => r
  | .reset => r.letGo
  | .start => r
  | .finish =>
    match r.kind with
    | .sticky => r
    | .dynamic => r.letGo

/-- The supplier is asked on this tick. -/
def resolves (r : Reference) : Bool :=
  match r.kind with
  | .sticky => r.held.isNone
  | .dynamic => true

/-- The target changes when `found` is the tree that was found. -/
def switches (r : Reference) (found : TreeId) : Bool := decide (r.held ≠ some found)

/-- What a tick asks, when `found` is the tree that was found: a dynamic sub-tree lets a changed
target go and starts the new one before it is ticked. -/
def tickRequests (r : Reference) : (found : Option TreeId) → List Request
  | none => r.release
  | some tree =>
    match r.kind with
    | .sticky => [(.tick, tree)]
    | .dynamic =>
      if r.switches tree then r.release ++ [(.start, tree), (.tick, tree)] else [(.tick, tree)]

/-- The reference after a tick on which `found` was found. -/
def afterTick (r : Reference) (found : Option TreeId) : Reference := { r with held := found }

/-- The seats of the callbacks of a reference. -/
def seats (r : Reference) : List Nat := r.supplier.seats

/-- Keeps the number of calls of the supplier at the given seat. -/
def atSeat (seat : Nat) (r : Reference) : Reference :=
  { r with supplier := r.supplier.atSeat seat }

/-- A reference that was reset holds no target. -/
@[simp] theorem held_reset (r : Reference) : (r.after .reset).held = none := rfl

/-- Resetting a reference without a target asks nothing. -/
theorem requests_reset_of_held_eq_none {r : Reference} (h : r.held = none) :
    r.requests .reset = [] := by
  simp [requests, release, h]

end Reference

end TickTree
