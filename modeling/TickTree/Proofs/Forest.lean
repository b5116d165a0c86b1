import Mathlib.Logic.Function.Basic
import TickTree.Forest
import TickTree.Proofs.Coupling.Plan

/-!
# Requests in a forest

What a request to a forest keeps, whatever the trees ask of each other on the way.  All statements
are proved by induction on the nesting depth; between two levels lies one use of one tree.

Main results:

- Theorem `World.withTree_exchanged`: coupled uses of a tree in coupled worlds are coupled.
- Theorem `serve_ask_cases`: what becomes of a request.
- Theorem `serve_exchanged`: a relation that holding and putting trees keeps is kept by all
  requests, also when leaves are exchanged on the second side.
- Theorem `serve_keeps`: the same for a property of one world.
- Theorem `serve_locks`: no request changes which trees are in use, or the root of such a tree.
- Theorem `serve_eq_serveWithout`: a tree in use might as well not be there.
-/

namespace TickTree

/-! ## One use of one tree -/

/-- Exchanges the leaves of a shared tree. -/
def Tree.exchange (e : Exchange) (t : Tree) : Tree := { t with root := t.root.exchange e }

theorem Tree.exchange_same (t : Tree) : t.exchange .same = t := by
  rw [exchange, Node.exchange_same]

namespace World

/-- A tree that was put back is free. -/
theorem get_putTree_self (tree : TreeId) (root : Node) (w : World) :
    (w.putTree tree root).trees.get tree = some ⟨root, false⟩ :=
  Table.get_set_self _ _ _

/-- Putting a tree back changes no other tree. -/
theorem get_putTree_of_ne {tree other : TreeId} (h : other ≠ tree) (root : Node) (w : World) :
    (w.putTree tree root).trees.get other = w.trees.get other :=
  Table.get_set_ne _ _ h

/-- Taking a tree into use changes no other tree. -/
theorem get_holdTree_of_ne {tree other : TreeId} (h : other ≠ tree) (root : Node) (w : World) :
    (w.holdTree tree root).trees.get other = w.trees.get other :=
  Table.get_set_ne _ _ h

/-- On a tree that is not in use the work is done while the tree is held. -/
theorem withTree_of_free {α : Type} {tree : TreeId} {root : Node} {w : World}
    (h : w.trees.get tree = some ⟨root, false⟩) (use : Node → World → α × Node × World) :
    w.withTree tree use =
      (some (use root (w.holdTree tree root)).1,
        (use root (w.holdTree tree root)).2.2.putTree tree
          (use root (w.holdTree tree root)).2.1) := by
  unfold withTree
  simp [h]

/-- Without a tree nothing is done. -/
theorem withTree_of_none {α : Type} {tree : TreeId} {w : World} (h : w.trees.get tree = none)
    (use : Node → World → α × Node × World) : w.withTree tree use = (none, w) := by
  unfold withTree
  simp [h]

/-- Coupled uses of a tree in coupled worlds are coupled, where the leaves of the tree are exchanged
on the second side. -/
theorem withTree_exchanged {α : Type} {e : Exchange} {R : World → World → Prop} {v w : World}
    {tree : TreeId} {use use' : Node → World → α × Node × World}
    (hget : w.trees.get tree = (v.trees.get tree).map (Tree.exchange e)) (hw : R v w)
    (hrefuse : R v.refuse w.refuse)
    (huse : ∀ root, v.trees.get tree = some ⟨root, false⟩ →
      (use root (v.holdTree tree root)).1 =
          (use' (root.exchange e) (w.holdTree tree (root.exchange e))).1 ∧
        R ((use root (v.holdTree tree root)).2.2.putTree tree
            (use root (v.holdTree tree root)).2.1)
          ((use' (root.exchange e) (w.holdTree tree (root.exchange e))).2.2.putTree tree
            (use' (root.exchange e) (w.holdTree tree (root.exchange e))).2.1)) :
    Coupled R (v.withTree tree use) (w.withTree tree use') := by
  rcases hv : v.trees.get tree with _ | ⟨root, inUse⟩
  · rw [hv] at hget
    rw [withTree_of_none hv, withTree_of_none hget]
    exact ⟨rfl, hw⟩
  · have hget' : w.trees.get tree = some ⟨root.exchange e, inUse⟩ := by rw [hget, hv]; rfl
    cases inUse with
    | true =>
      rw [withTree_of_inUse (by simp [isInUse, hv]), withTree_of_inUse (by simp [isInUse, hget'])]
      exact ⟨rfl, hrefuse⟩
    | false =>
      rcases huse root hv with ⟨hvalue, hafter⟩
      rw [withTree_of_free hv, withTree_of_free hget']
      exact ⟨congrArg some hvalue, hafter⟩

/-- Coupled uses of a tree in coupled worlds are coupled. -/
theorem withTree_coupled {α : Type} {R : World → World → Prop} {v w : World} {tree : TreeId}
    {use use' : Node → World → α × Node × World}
    (hget : v.trees.get tree = w.trees.get tree) (hw : R v w) (hrefuse : R v.refuse w.refuse)
    (huse : ∀ root, w.trees.get tree = some ⟨root, false⟩ →
      (use root (v.holdTree tree root)).1 = (use' root (w.holdTree tree root)).1 ∧
        R ((use root (v.holdTree tree root)).2.2.putTree tree
            (use root (v.holdTree tree root)).2.1)
          ((use' root (w.holdTree tree root)).2.2.putTree tree
            (use' root (w.holdTree tree root)).2.1)) :
    Coupled R (v.withTree tree use) (w.withTree tree use') := by
  have hsame : w.trees.get tree = (v.trees.get tree).map (Tree.exchange .same) := by
    rw [hget, funext Tree.exchange_same, Option.map_id']
  refine withTree_exchanged hsame hw hrefuse fun root hroot => ?_
  rw [Node.exchange_same]
  exact huse root (hget.symm.trans hroot)

/-- A use of a tree keeps a property that it keeps while the tree is held. -/
theorem withTree_keeps {α : Type} {P : World → Prop} {w : World} {tree : TreeId}
    {use : Node → World → α × Node × World} (hw : P w) (hrefuse : P w.refuse)
    (huse : ∀ root, w.trees.get tree = some ⟨root, false⟩ →
      P ((use root (w.holdTree tree root)).2.2.putTree tree
        (use root (w.holdTree tree root)).2.1)) : P (w.withTree tree use).2 := by
  have hcoupled : Coupled (Itself P) (w.withTree tree use) (w.withTree tree use) :=
    withTree_coupled rfl ⟨rfl, hw⟩ ⟨rfl, hrefuse⟩ fun root hroot => ⟨rfl, rfl, huse root hroot⟩
  exact hcoupled.2.2

end World

/-- The record of a refused request. -/
def Event.refusal : Event :=
  .logged .warn ("[reactive_bt]: " ++ "shared tree re-entered while in use")

/-- Requests are answered by a use of the tree, one level further down. -/
theorem serve_ask {plant : PlanId → World → Option TreeId × World} (depth : Nat)
    (operation : Operation) (tree : TreeId) (w : World) :
    (serve plant (depth + 1)).ask operation tree w =
      ((w.withTree tree (Node.perform (serve plant depth) operation)).1.getD .refused,
        (w.withTree tree (Node.perform (serve plant depth) operation)).2) := rfl

/-- All requests plant the same way. -/
@[simp] theorem plant_serve (plant : PlanId → World → Option TreeId × World) (depth : Nat) :
    (serve plant depth).plant = plant := by
  cases depth <;> rfl

/-- What becomes of a request: it is carried out on the root of a free tree, or it is refused with a
warning, or there is no such tree. -/
theorem serve_ask_cases (plant : PlanId → World → Option TreeId × World) (depth : Nat)
    (operation : Operation) (tree : TreeId) (w : World) :
    (∃ further root, depth = further + 1 ∧ w.trees.get tree = some ⟨root, false⟩ ∧
      let performed := root.perform (serve plant further) operation (w.holdTree tree root)
      (serve plant depth).ask operation tree w =
        (performed.1, performed.2.2.putTree tree performed.2.1)) ∨
    (serve plant depth).ask operation tree w = (.refused, w.refuse) ∨
    w.trees.get tree = none ∧ (serve plant depth).ask operation tree w = (.refused, w) := by
  cases depth with
  | zero => exact .inr (.inl rfl)
  | succ further =>
    rcases hfound : w.trees.get tree with _ | ⟨root, inUse⟩
    · refine .inr (.inr ⟨rfl, ?_⟩)
      rw [serve_ask, World.withTree_of_none hfound]
      rfl
    · cases inUse with
      | true =>
        refine .inr (.inl ?_)
        rw [serve_ask, World.withTree_of_inUse (by simp [World.isInUse, hfound])]
        rfl
      | false =>
        refine .inl ⟨further, root, rfl, rfl, ?_⟩
        rw [serve_ask, World.withTree_of_free hfound]
        rfl

/-! ## Relations that all requests keep -/

/-- A coupling that is kept by taking trees into use and putting them back. -/
structure World.Tending (R : World → World → Prop) : Prop extends World.Growing R where
  tree : ∀ {v w : World} (tree : TreeId), R v w → v.trees.get tree = w.trees.get tree
  holdTree : ∀ {v w : World} (tree : TreeId) (root : Node), R v w →
    R (v.holdTree tree root) (w.holdTree tree root)
  putTree : ∀ {v w : World} (tree : TreeId) (root : Node), R v w →
    R (v.putTree tree root) (w.putTree tree root)

/-- A coupling that is kept by taking trees into use and putting them back, when the leaves of the
trees on the second side are exchanged. -/
structure World.TendingBy (e : Exchange) (R : World → World → Prop) : Prop
    extends World.GrowingBy e R where
  tree : ∀ {v w : World} (tree : TreeId), R v w →
    w.trees.get tree = (v.trees.get tree).map (Tree.exchange e)
  holdTree : ∀ {v w : World} (tree : TreeId) (root : Node), R v w →
    R (v.holdTree tree root) (w.holdTree tree (root.exchange e))
  putTree : ∀ {v w : World} (tree : TreeId) (root : Node), R v w →
    R (v.putTree tree root) (w.putTree tree (root.exchange e))

/-- Where no leaf is exchanged, the trees are the same on both sides. -/
theorem World.Tending.bySame {R : World → World → Prop} (hR : World.Tending R) :
    World.TendingBy .same R where
  toGrowingBy := hR.toGrowing.bySame
  tree tree hw := by rw [funext Tree.exchange_same, Option.map_id', hR.tree tree hw]
  holdTree tree root hw := by
    rw [Node.exchange_same]
    exact hR.holdTree tree root hw
  putTree tree root hw := by
    rw [Node.exchange_same]
    exact hR.putTree tree root hw

/-- A relation that holding and putting trees keeps is kept by all requests, also when the leaves of
all trees are exchanged on the second side. -/
theorem serve_exchanged {e : Exchange} {R : World → World → Prop} (hR : World.TendingBy e R)
    (he : e.Faithful R) (plans : Array TreePlan) (depth : Nat) :
    Service.Alike R (serve (plantFrom plans) depth)
      (serve (plantFrom (plans.map (TreePlan.exchange e))) depth) := by
  induction depth with
  | zero =>
    constructor
    · intro operation v w tree hw
      exact ⟨rfl, hR.report _ _ hw⟩
    · intro v w plan hw
      exact plantFrom_exchanged hR.toGrowingBy.planting plans plan hw
  | succ depth ih =>
    constructor
    · intro operation v w tree hw
      have hused : Coupled R
          (v.withTree tree (Node.perform (serve (plantFrom plans) depth) operation))
          (w.withTree tree (Node.perform
            (serve (plantFrom (plans.map (TreePlan.exchange e))) depth) operation)) := by
        apply World.withTree_exchanged (hR.tree tree hw) hw (hR.report _ _ hw)
        intro root _
        have hheld := hR.holdTree tree root hw
        have hperformed := Node.perform_exchanged hR.toSharing (he.alike hR.toCoupling ih)
          operation root.madeOf_any hheld
        rcases hperformed with ⟨hanswer, hroot, hafter⟩
        rw [← show _ = _ from hroot]
        exact ⟨hanswer, hR.putTree tree _ hafter⟩
      rw [serve_ask, serve_ask, hused.1]
      exact ⟨rfl, hused.2⟩
    · intro v w plan hw
      exact plantFrom_exchanged hR.toGrowingBy.planting plans plan hw

/-- A relation that holding and putting trees keeps is kept by all requests. -/
theorem serve_coupled {R : World → World → Prop} (hR : World.Tending R)
    (plans : Array TreePlan) (depth : Nat) :
    Service.Alike R (serve (plantFrom plans) depth) (serve (plantFrom plans) depth) := by
  have halike := serve_exchanged hR.bySame (Exchange.same_faithful hR.toCoupling) plans depth
  rwa [plans_exchange_same] at halike

/-- What growth, holding trees and putting them back keep is kept by all requests. -/
theorem serve_keeps {P : World → Prop} (hP : World.Growth P)
    (hhold : ∀ {w : World} (tree : TreeId) (root : Node), P w → P (w.holdTree tree root))
    (hput : ∀ {w : World} (tree : TreeId) (root : Node), P w → P (w.putTree tree root))
    (plans : Array TreePlan) (depth : Nat) : (serve (plantFrom plans) depth).Keeps P := by
  have htending : World.Tending (World.Itself P) :=
    { hP.growing with
      tree := fun tree hw => hw.eq fun u => u.trees.get tree
      holdTree := fun tree root hw => hw.step (hhold tree root)
      putTree := fun tree root hw => hw.step (hput tree root) }
  have halike := serve_coupled htending plans depth
  exact ⟨fun operation tree w hw => (halike.ask operation tree ⟨rfl, hw⟩).2.2,
    fun plan w hw => (halike.plant plan ⟨rfl, hw⟩).2.2⟩

/-! ## Trees in use -/

namespace World

/-- The roots of the trees that are in use. -/
def locks (w : World) (tree : TreeId) : Option Node :=
  match w.trees.get tree with
  | some ⟨root, true⟩ => some root
  | _ => none

theorem locks_eq_some {tree : TreeId} {root : Node} {w : World} :
    w.locks tree = some root ↔ w.trees.get tree = some ⟨root, true⟩ := by
  unfold locks
  rcases w.trees.get tree with _ | ⟨found, inUse⟩
  · simp
  · cases inUse <;> simp

theorem isInUse_eq (tree : TreeId) (w : World) : w.isInUse tree = (w.locks tree).isSome := by
  unfold locks isInUse
  rcases w.trees.get tree with _ | ⟨found, inUse⟩
  · rfl
  · cases inUse <;> rfl

/-- A tree taken into use is locked at its root. -/
theorem locks_holdTree (tree : TreeId) (root : Node) (w : World) :
    (w.holdTree tree root).locks = Function.update w.locks tree (some root) := by
  funext other
  by_cases h : other = tree
  · subst h
    simp [locks, holdTree]
  · simp [locks, get_holdTree_of_ne h, h]

/-- A tree that is put back is not locked. -/
theorem locks_putTree (tree : TreeId) (root : Node) (w : World) :
    (w.putTree tree root).locks = Function.update w.locks tree none := by
  funext other
  by_cases h : other = tree
  · subst h
    simp [locks, get_putTree_self]
  · simp [locks, get_putTree_of_ne h, h]

/-- Putting a tree back undoes taking it into use. -/
theorem locks_putTree_of_holdTree {v w : World} {tree : TreeId} {root : Node}
    (hfree : v.locks tree = none) (h : w.locks = (v.holdTree tree root).locks) (left : Node) :
    (w.putTree tree left).locks = v.locks := by
  rw [locks_putTree, h, locks_holdTree, Function.update_idem, ← hfree, Function.update_eq_self]

/-- A new tree is not locked. -/
theorem locks_addTree (root : Node) (w : World) : (w.addTree root).2.locks = w.locks := by
  have hblank : w.trees.get w.trees.size = none := by
    simp [Table.get, Table.size, w.trees_blank]
  have hfree : w.locks w.trees.size = none := by simp [locks, hblank]
  show (w.putTree w.trees.size root).locks = w.locks
  rw [locks_putTree, ← hfree, Function.update_eq_self]

/-- What is locked stays so while nodes work and plans are carried out. -/
theorem growth_locks (locked : TreeId → Option Node) : Growth fun w => w.locks = locked :=
  Growth.ofTrees
    (fun {v w} h hv => by
      rw [← hv]
      funext tree
      simp only [locks, h])
    fun root hw => (locks_addTree root _).trans hw

/-- That a tree is in use, with a certain root, is an invariant of growth. -/
theorem growth_locked (tree : TreeId) (root : Node) : Growth fun w => w.locks tree = some root := by
  apply Growth.ofTrees
  · intro v w htrees hv
    rw [locks_eq_some] at hv ⊢
    rw [htrees, hv]
  · intro w new hw
    rw [locks_addTree, hw]

/-- A use of a tree changes no lock if the work done meanwhile changes none. -/
theorem locks_withTree {α : Type} (tree : TreeId) {use : Node → World → α × Node × World}
    (huse : ∀ root v, (use root v).2.2.locks = v.locks) (w : World) :
    (w.withTree tree use).2.locks = w.locks := by
  apply withTree_keeps (P := fun v => v.locks = w.locks) rfl rfl
  intro root hroot
  have hfree : w.locks tree = none := by simp [locks, hroot]
  exact locks_putTree_of_holdTree hfree (huse root _) _

end World

/-- No request changes which trees are in use, or the root of such a tree. -/
theorem serve_locks (plans : Array TreePlan) (depth : Nat) (locked : TreeId → Option Node) :
    (serve (plantFrom plans) depth).Keeps fun w => w.locks = locked := by
  induction depth generalizing locked with
  | zero =>
    constructor
    · intro operation tree w hw
      exact hw
    · intro plan w hw
      exact plantFrom_keeps (World.growth_locks locked) plans plan hw
  | succ depth ih =>
    constructor
    · intro operation tree w hw
      have huse : ∀ root v,
          (Node.perform (serve (plantFrom plans) depth) operation root v).2.2.locks = v.locks := by
        intro root v
        exact root.perform_keeps (World.growth_locks v.locks).toInvariant (ih v.locks) operation rfl
      exact (World.locks_withTree tree huse w).trans hw
    · intro plan w hw
      exact plantFrom_keeps (World.growth_locks locked) plans plan hw

/-- No operation on a node changes which trees are in use, or the root of such a tree. -/
theorem Node.locks_perform (plans : Array TreePlan) (depth : Nat) (operation : Operation)
    (n : Node) (w : World) :
    (n.perform (serve (plantFrom plans) depth) operation w).2.2.locks = w.locks :=
  n.perform_keeps (World.growth_locks w.locks).toInvariant (serve_locks plans depth w.locks)
    operation rfl

/-! ## A forest without one of its trees -/

/-- The service of a forest that refuses every request to one of its trees, at every level. -/
def serveWithout (barred : TreeId) (plant : PlanId → World → Option TreeId × World) :
    (depth : Nat) → Service
  | 0 => serve plant 0
  | depth + 1 =>
    { ask := fun operation tree w =>
        if tree = barred then
          (.refused, w.refuse)
        else
          let used := w.withTree tree (Node.perform (serveWithout barred plant depth) operation)
          (used.1.getD .refused, used.2)
      plant := plant }

/-- A tree that is in use might as well not be there: nothing that is done meanwhile would go
differently if all requests to it were refused outright. -/
theorem serve_eq_serveWithout (plans : Array TreePlan) (depth : Nat) (barred : TreeId)
    (root : Node) :
    Service.Alike (World.Itself fun w => w.locks barred = some root)
      (serve (plantFrom plans) depth) (serveWithout barred (plantFrom plans) depth) := by
  have hgrowth := World.growth_locked barred root
  induction depth with
  | zero =>
    constructor
    · intro operation v w tree hw
      rcases hw with ⟨rfl, hlocked⟩
      exact ⟨rfl, rfl, hlocked⟩
    · intro v w plan hw
      exact plantFrom_coupled hgrowth.growing plans plan hw
  | succ depth ih =>
    constructor
    · intro operation v w tree hw
      rcases hw with ⟨rfl, hlocked⟩
      by_cases htree : tree = barred
      · have hinUse : v.isInUse tree = true := by
          rw [World.isInUse_eq, htree, hlocked]
          rfl
        rw [serve_ask, World.withTree_of_inUse hinUse]
        simp only [serveWithout, if_pos htree]
        exact ⟨rfl, rfl, hlocked⟩
      · have hused : Coupled (World.Itself fun w => w.locks barred = some root)
            (v.withTree tree (Node.perform (serve (plantFrom plans) depth) operation))
            (v.withTree tree
              (Node.perform (serveWithout barred (plantFrom plans) depth) operation)) := by
          apply World.withTree_coupled rfl ⟨rfl, hlocked⟩ ⟨rfl, hlocked⟩
          intro found _
          have hheld : (v.holdTree tree found).locks barred = some root := by
            rw [World.locks_holdTree, Function.update_of_ne (Ne.symm htree), hlocked]
          have hperformed :=
            found.perform_coupled hgrowth.toInvariant.coupling ih operation ⟨rfl, hheld⟩
          rcases hperformed with ⟨hanswer, hleft, hafter, hstill⟩
          refine ⟨hanswer, by rw [hleft, hafter], ?_⟩
          show World.locks _ barred = some root
          rw [World.locks_putTree, Function.update_of_ne (Ne.symm htree), hstill]
        rw [serve_ask, hused.1]
        simp only [serveWithout, if_neg htree]
        exact ⟨rfl, hused.2⟩
    · intro v w plan hw
      exact plantFrom_coupled hgrowth.growing plans plan hw

end TickTree
