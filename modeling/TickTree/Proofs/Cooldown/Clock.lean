import TickTree.Proofs.Forest
import TickTree.Proofs.Handling

/-!
# Clocks only go forward

Whatever a tree does, no clock reads less afterwards than before: ticks may let time pass, and none
of the requests that a forest answers sets a clock back.

Main results:

- Theorem `serve_forward`: no request to a forest moves a clock back.
- Theorem `Node.before_perform`: no operation on a node moves a clock back.
-/

namespace TickTree

/-- A clock reads no less in the second world than in the first. -/
def World.Before (clock : ClockId) (v w : World) : Prop := v.now clock ≤ w.now clock

/-- No request moves a clock back. -/
def Service.Forward (clock : ClockId) (s : Service) : Prop :=
  ∀ reading, s.Keeps fun w => reading ≤ w.now clock

namespace World

theorem Before.refl (clock : ClockId) (w : World) : w.Before clock w := Nat.le_refl _

theorem Before.trans {clock : ClockId} {u v w : World} (h : u.Before clock v)
    (h' : v.Before clock w) : u.Before clock w :=
  Nat.le_trans h h'

/-- Log records and draws take no time. -/
theorem passage_before (clock : ClockId) : Passage (Before clock) where
  refl := .refl clock
  trans h h' := h.trans h'
  report _ _ w := .refl clock w
  draw _ _ _ w := .refl clock w

/-- That a clock has come to a reading is an invariant of growth. -/
theorem growth_now (clock : ClockId) (reading : Duration) :
    Growth fun w => reading ≤ w.now clock where
  emit _ hw := hw
  fail fault hw := by
    simp only [now, clocks_fail] at hw ⊢
    exact hw
  advance _ _ hw := Nat.le_trans hw (now_le_now_advance _ clock _ _)
  setClock _ _ hw := Nat.le_trans hw (now_le_now_setClock _ clock _ _)
  draw _ _ _ hw := hw
  countCall _ hw := hw
  issue _ hw := hw
  letLoose _ hw := hw
  addTree _ hw := hw

end World

/-- No request to a forest moves a clock back. -/
theorem serve_forward (plans : Array TreePlan) (depth : Nat) (clock : ClockId) :
    (serve (plantFrom plans) depth).Forward clock :=
  fun reading => serve_keeps (World.growth_now clock reading) (fun _ _ hw => hw)
    (fun _ _ hw => hw) plans depth

section

variable {clock : ClockId} {s : Service}

/-- No supplier moves a clock back. -/
theorem Supplier.before_get {α : Type} (hs : s.Forward clock) (supplier : Supplier α) (w : World) :
    w.Before clock (supplier.get s w).2 :=
  (Supplier.get_coupled (World.growth_now clock (w.now clock)).toInvariant.coupling
    (hs (w.now clock)).coupled supplier ⟨rfl, Nat.le_refl _⟩).2.2

/-- No operation on a node moves a clock back. -/
theorem Node.before_perform (hs : s.Forward clock) (operation : Operation) (n : Node) (w : World) :
    w.Before clock (n.perform s operation w).2.2 :=
  n.perform_keeps (World.growth_now clock (w.now clock)).toInvariant (hs (w.now clock)) operation
    (Nat.le_refl _)

end

end TickTree
