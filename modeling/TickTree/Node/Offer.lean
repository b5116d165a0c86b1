import TickTree.Service

/-!
# Children as their parents see them

A parent sees of a child its present state, what a tick of it would do, and how a state is reset;
nothing in the work of a parent depends on what its children are.  A child is offered for one tick,
so no child is ticked twice in one tick of its parent.

Main results:

- Theorem `length_resetAll`: resetting children keeps their number.
-/

namespace TickTree

/-- What a tick leaves behind: a status, a new state, and the world. -/
structure Ticked (κ : Type) where
  status : Status
  state : κ
  world : World

/-- Changes the state that a tick leaves behind. -/
def Ticked.map {κ μ : Type} (f : κ → μ) (t : Ticked κ) : Ticked μ :=
  ⟨t.status, f t.state, t.world⟩

/-- A child as its parent sees it: its state, and one tick of it. -/
structure Offer (κ : Type) where
  state : κ
  tick : World → Ticked κ

/-- Applies a reset to every member of a list, in order. -/
def resetAll {κ : Type} (reset : κ → World → κ × World) : List κ → World → List κ × World
  | [], w => ([], w)
  | child :: rest, w =>
    let first := reset child w
    let others := resetAll reset rest first.2
    (first.1 :: others.1, others.2)

/-- Resetting children keeps their number. -/
theorem length_resetAll {κ : Type} (reset : κ → World → κ × World) (children : List κ)
    (w : World) : (resetAll reset children w).1.length = children.length := by
  induction children generalizing w with
  | nil => rfl
  | cons child rest ih => simp [resetAll, ih]

end TickTree
