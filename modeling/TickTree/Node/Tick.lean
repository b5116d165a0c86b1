import TickTree.Node.Composite.Tick
import TickTree.Node.Decorator.Tick
import TickTree.Node.Leaf.Tick
import TickTree.Node.Lifecycle
import TickTree.Node.Reference.Tick

/-!
# Ticks

One evaluation step of a node, and runs of steps.

Main results:

- Theorem `Node.offers_eq`: a composite sees of its children their states and their ticks.
- Theorem `Node.offer_eq`: a decorator sees of its child its state and its tick.
-/

namespace TickTree

namespace Node

mutual

/-- One evaluation step of a node. -/
def tick (s : Service) : Node → World → Ticked Node
  | leaf part, w => (part.tick s w).map leaf
  | composite part children, w =>
    (part.tick (reset s) (offers s children) w).map fun state => composite state.1 state.2
  | decorator part child, w =>
    (part.tick s (reset s) name (offer s child) w).map fun state => decorator state.1 state.2
  | reference part, w => (part.tick s w).map reference
  | embedded tag root, w => (tick s root w).map (embedded tag)

/-- The children of a composite as the composite sees them. -/
def offers (s : Service) : List Node → List (Offer Node)
  | [] => []
  | child :: rest => ⟨child, fun w => tick s child w⟩ :: offers s rest

/-- The child of a decorator as the decorator sees it. -/
def offer (s : Service) : Option Node → Option (Offer Node)
  | none => none
  | some child => some ⟨child, fun w => tick s child w⟩

end

/-- A composite sees of its children their states and their ticks. -/
theorem offers_eq (s : Service) (children : List Node) :
    offers s children = children.map fun child => ⟨child, tick s child⟩ := by
  induction children with
  | nil => simp [offers]
  | cons child rest ih => simp [offers, ih]

/-- The states that are offered are the nodes themselves. -/
theorem states_offers (s : Service) (children : List Node) :
    (offers s children).map Offer.state = children := by
  rw [offers_eq, List.map_map]
  exact List.map_id _

theorem length_offers (s : Service) (children : List Node) :
    (offers s children).length = children.length := by
  rw [offers_eq, List.length_map]

/-- Several nodes are offered one by one. -/
theorem offers_append (s : Service) (children others : List Node) :
    offers s (children ++ others) = offers s children ++ offers s others := by
  rw [offers_eq, offers_eq, offers_eq, List.map_append]

/-- Every child that a composite sees is one of its children. -/
theorem exists_of_mem_offers {s : Service} {children : List Node} {o : Offer Node}
    (h : o ∈ offers s children) : ∃ child ∈ children, o = ⟨child, child.tick s⟩ := by
  rw [offers_eq] at h
  rcases List.mem_map.1 h with ⟨child, hchild, rfl⟩
  exact ⟨child, hchild, rfl⟩

/-- A decorator sees of its child its state and its tick. -/
theorem offer_eq (s : Service) (child : Option Node) :
    offer s child = child.map fun child => ⟨child, tick s child⟩ := by
  cases child <;> simp [offer]

/-- Carries out an operation on a node. -/
def perform (s : Service) : Operation → Node → World → Answer × Node × World
  | .tick, n, w =>
    let t := n.tick s w
    (.ticked t.status, t.state, t.world)
  | .reset, n, w => (.done, n.reset s w)
  | .start, n, w => (.done, n.start s w)
  | .finish, n, w => (.done, n.finish s w)

/-- Ticks a root until it gives a status other than running, at most `limit` times; a fault breaks
the run off. -/
def run (s : Service) : (limit : Nat) → Node → World → Option Status × Node × World
  | 0, n, w => (none, n, w)
  | limit + 1, n, w =>
    let t := n.tick s w
    if t.world.fault.isSome then
      (none, t.state, t.world)
    else if t.status = .running then
      run s limit t.state t.world
    else
      let name := t.state.name
      let status := t.status.text
      (some t.status, t.state, t.world.report .debug s!"{name}::run() -> {status}")

end Node

end TickTree
