import TickTree.Proofs.Coupling.Node
import TickTree.Proofs.Hooks
import TickTree.Proofs.Reset.Target

/-!
# Standalone trees

A tree without references asks nothing of shared trees by itself; whatever else happens while it
works is an effect of one of its callbacks.  Which effects these have is said once for the whole
tree.

Main results:

- Theorem `Node.Standalone.tick_alike`: the tree ticks alike when its callbacks answer alike.
- Theorem `Node.Standalone.perform_observes`: all other operations are observed at most.
- Theorem `Node.seats_cleared`: the callbacks of a tree keep their seats.
-/

namespace TickTree

/-! ## Standalone trees -/

/-- All effects of a callback are of a certain kind. -/
def Callback.Does (P : Effect → Prop) (α : Type) (c : Callback α) : Prop :=
  ∀ n, ∀ effect ∈ (c.reply n).effects, P effect

namespace Node

/-- A tree that refers to no shared tree, and all of whose callbacks have a property. -/
abbrev Standalone (X : ∀ α : Type, Callback α → Prop) (n : Node) : Prop := n.MadeOf (.standalone X)

section

variable {X : ∀ α : Type, Callback α → Prop} {R : World → World → Prop} {s t : Service} {n : Node}
  {v w : World}

/-- The parts of a standalone tree do alike when its callbacks answer alike. -/
theorem Standalone.alike (hR : World.Sharing R) (hX : ∀ α c, X α c → Callback.Alike R s t α c) :
    Exchange.same.Alike (.standalone X) R s t where
  leaf {part} _ _ h hw :=
    part.tick_alike hR.toTracking (fun source _ => hR.drawsAlike source) (h.mono hX) hw
  decorator h := h.mono hX
  reference h := h.elim
  calm h := h.elim

/-- A standalone tree gives the same status when its callbacks answer alike. -/
theorem Standalone.tick_alike (hn : n.Standalone X) (hR : World.Sharing R)
    (hX : ∀ α c, X α c → Callback.Alike R s t α c) (hw : R v w) :
    Ticked.Coupled Eq R (n.tick s v) (n.tick t w) := by
  have htick := tick_exchanged hR (Standalone.alike hR hX) hn hw
  rw [exchange_same] at htick
  exact ⟨htick.status, (exchange_same _).symm.trans htick.state, htick.world⟩

/-- A finish changes no standalone tree. -/
theorem Standalone.fst_finish (hn : n.Standalone X) (s : Service) (w : World) :
    (n.finish s w).1 = n := by
  induction hn with
  | leaf _ => rfl
  | composite _ _ _ => rfl
  | decorator _ _ _ => rfl
  | reference h => exact h.elim
  | embedded _ ih => simp only [finish, ih]

/-- A standalone tree holds no target. -/
theorem Standalone.targets_eq (hn : n.Standalone X) : n.targets = [] := by
  induction hn with
  | leaf _ => rfl
  | composite _ _ ih =>
    simp only [targets, targetsOfChildren_eq]
    exact List.flatMap_eq_nil_iff.2 ih
  | @decorator _ child _ _ ih =>
    cases child with
    | none => rfl
    | some inner => exact ih inner rfl
  | reference h => exact h.elim
  | embedded _ ih => exact ih

/-- Operations other than ticks do nothing in a standalone tree but let probes observe them. -/
theorem Standalone.perform_observes {P : World → Prop} {operation : Operation}
    (h : operation ≠ .tick)
    (hP : ∀ (seat : Nat) (name : String) {w : World}, P w →
      P (w.emit (.observed seat name operation)))
    (hn : n.Standalone X) (s : Service) (hw : P w) : P (n.perform s operation w).2.2 := by
  refine n.calm_keeps hP h (fun _ _ tree htree => ?_) hw
  rw [hn.targets_eq] at htree
  exact absurd htree List.not_mem_nil

end

/-! ## Seats -/

end Node

/-- A reset keeps the seats of a leaf. -/
@[simp] theorem Leaf.seats_reset (part : Leaf) : part.reset.seats = part.seats := by
  cases part <;> rfl

/-- A reset keeps the seats of a decorator. -/
@[simp] theorem Decorator.seats_reset (part : Decorator) : part.reset.seats = part.seats := by
  cases part <;> rfl

/-- The callbacks of a tree keep their seats. -/
theorem Node.seats_cleared (n : Node) : n.cleared.seats = n.seats := by
  induction n with
  | leaf part => simp only [cleared, seats, Leaf.seats_reset]
  | composite part children ih =>
    simp only [cleared, seats, clearedChildren_eq, seatsOfChildren_eq, List.flatMap_map]
    exact List.flatMap_congr ih
  | decorator part child ih =>
    cases child with
    | none => simp only [cleared, clearedChild, seats, seatsOfChild, Decorator.seats_reset]
    | some inner =>
      simp only [cleared, clearedChild, seats, seatsOfChild, Decorator.seats_reset, ih inner rfl]
  | reference part => rfl
  | embedded tag root ih => simp only [cleared, seats, ih]

/-- All states that a tree can reach have its seats. -/
theorem Node.seats_of_reachable {made n : Node} (h : Reachable made n) : n.seats = made.seats := by
  rw [← seats_cleared n, cleared_of_reachable h, seats_cleared]

end TickTree
