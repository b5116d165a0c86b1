import TickTree.Node.Tick

/-!
# Forests

Shared trees that answer each other.  A tree is in use from the moment a request is granted until
its answer; a request to a tree that is in use is refused and changes nothing.  Every granted
request inside another one leaves fewer trees that are not in use, so a nesting depth of the number
of trees is never exceeded.

Main results:

- Theorem `World.withTree_of_inUse`: on a tree in use nothing is carried out and one warning is
  logged.
- Theorem `World.isInUse_withTree`: a use of a tree ends with the tree not in use.
-/

namespace TickTree

namespace World

/-- What a shared tree that is in use answers. -/
def refuse (w : World) : World := w.report .warn "shared tree re-entered while in use"

/-- The shared tree is being worked on. -/
def isInUse (tree : TreeId) (w : World) : Bool :=
  match w.trees.get tree with
  | some found => found.inUse
  | none => false

/-- Works on the root of a shared tree, unless the tree is in use. -/
def withTree {α : Type} (tree : TreeId) (use : Node → World → α × Node × World) (w : World) :
    Option α × World :=
  match w.trees.get tree with
  | none => (none, w)
  | some found =>
    if found.inUse then
      (none, w.refuse)
    else
      let used := use found.root (w.holdTree tree found.root)
      (some used.1, used.2.2.putTree tree used.2.1)

/-- On a tree in use nothing is carried out and one warning is logged. -/
theorem withTree_of_inUse {α : Type} {tree : TreeId} {w : World} (h : w.isInUse tree = true)
    (use : Node → World → α × Node × World) : w.withTree tree use = (none, w.refuse) := by
  unfold isInUse at h
  unfold withTree
  split
  next found => simp [found] at h
  next found hf => simp_all

/-- A use of a tree ends with the tree not in use. -/
theorem isInUse_withTree {α : Type} {tree : TreeId} {w : World} {a : α} {w' : World}
    {use : Node → World → α × Node × World} (h : w.withTree tree use = (some a, w')) :
    w'.isInUse tree = false := by
  unfold withTree at h
  split at h
  · simp at h
  · split at h
    · simp at h
    · simp only [Prod.mk.injEq, Option.some.injEq] at h
      rcases h with ⟨-, rfl⟩
      simp [isInUse, putTree]

end World

/-- The service of a forest, with requests nested at most `depth` deep; beyond that they are refused
as if the tree were in use. -/
def serve (plant : PlanId → World → Option TreeId × World) : (depth : Nat) → Service
  | 0 => { ask := fun _ _ w => (.refused, w.refuse), plant := plant }
  | depth + 1 =>
    { ask := fun operation tree w =>
        let used := w.withTree tree (Node.perform (serve plant depth) operation)
        (used.1.getD .refused, used.2)
      plant := plant }

end TickTree
