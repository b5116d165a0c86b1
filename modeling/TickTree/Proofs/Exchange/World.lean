import TickTree.Proofs.Forest

/-!
# Exchanged worlds

A world in which the leaves of all trees are exchanged: of the shared trees and of the nodes that
were let loose.  Whatever is done to a world by itself is done in the same way to the exchanged
world, so a relation that all work keeps between two worlds is also kept between a world whose
leaves are to be exchanged and one in which they are.

Main results:

- Theorem `Table.map_set`: changing all values of a table commutes with a write.
- Theorem `World.exchange_fail` and `World.exchange_advance`: faults and clocks have no leaves.
- Theorem `World.Tending.exchanged`: a relation that all work keeps is kept up to an exchange.
-/

namespace TickTree

/-! ## Changing the values of a table -/

namespace Table

variable {α β : Type} (f : α → β) (t : Table α)

/-- Changes every value of a table. -/
def map : Table β := ⟨t.entries.map f, f t.blank⟩

@[simp] theorem size_map : (t.map f).size = t.size := Array.size_map

@[simp] theorem get_map (i : Nat) : (t.map f).get i = f (t.get i) := by
  unfold get map
  rw [Array.getElem?_map, Option.getD_map]

/-- Changing all values commutes with a write. -/
theorem map_set (i : Nat) (a : α) : (t.set i a).map f = (t.map f).set i (f a) := by
  have hsize : (t.map f).entries.size = t.entries.size := size_map f t
  unfold set
  rw [hsize]
  split
  · simp only [map, Array.map_setIfInBounds]
  · simp only [map, Array.map_push, Array.map_append, Array.map_replicate]

end Table

/-! ## Exchanging the leaves in a world -/

namespace World

variable (e : Exchange)

/-- Exchanges the leaves of all nodes in a world. -/
def exchange (w : World) : World :=
  { w with
    trees := w.trees.map (Option.map (Tree.exchange e))
    trees_blank := by simp [Table.map, w.trees_blank]
    loose := w.loose.map (Node.exchange e) }

/-- A fault leaves the exchanged world. -/
theorem exchange_fail (fault : Fault) (w : World) :
    (w.fail fault).exchange e = (w.exchange e).fail fault := by
  rcases w with ⟨clocks, sources, calls, trees, blank, directory, loose, issued, history, first⟩
  cases first <;> rfl

/-- A step of a clock leaves the exchanged world. -/
theorem exchange_advance (clock : ClockId) (step : Duration) (w : World) :
    (w.advance clock step).exchange e = (w.exchange e).advance clock step := by
  unfold advance
  rw [show (w.exchange e).clocks = w.clocks from rfl]
  cases (w.clocks.get clock).advance? step with
  | some moved => rfl
  | none => exact exchange_fail e _ w

/-- A tree that is taken into use is exchanged. -/
theorem exchange_holdTree (tree : TreeId) (root : Node) (w : World) :
    (w.holdTree tree root).exchange e = (w.exchange e).holdTree tree (root.exchange e) := by
  simp only [holdTree, exchange, Table.map_set, Option.map_some, Tree.exchange]

/-- A tree that is put back is exchanged. -/
theorem exchange_putTree (tree : TreeId) (root : Node) (w : World) :
    (w.putTree tree root).exchange e = (w.exchange e).putTree tree (root.exchange e) := by
  simp only [putTree, exchange, Table.map_set, Option.map_some, Tree.exchange]

/-- A new tree is exchanged and has the same number. -/
theorem exchange_addTree (root : Node) (w : World) :
    ((w.addTree root).1, (w.addTree root).2.exchange e) =
      (w.exchange e).addTree (root.exchange e) := by
  unfold addTree
  rw [exchange_putTree, show (w.exchange e).trees.size = w.trees.size from Table.size_map _ _]

/-- Nodes that are let loose are exchanged. -/
theorem exchange_letLoose (nodes : List Node) (w : World) :
    (w.letLoose nodes).exchange e = (w.exchange e).letLoose (nodes.map (Node.exchange e)) := by
  simp only [letLoose, exchange, List.map_append]

/-- A relation that all work keeps is kept up to an exchange of leaves on the first side. -/
theorem Tending.exchanged {R : World → World → Prop} (hR : Tending R) :
    TendingBy e fun v w => R (v.exchange e) w where
  emit event hw := hR.emit event hw
  fail fault hw := by
    rw [exchange_fail]
    exact hR.fail fault hw
  now {v _} clock hw := hR.now (v := v.exchange e) clock hw
  advance clock step hw := by
    rw [exchange_advance]
    exact hR.advance clock step hw
  setClock clock reading hw := hR.setClock clock reading hw
  draw draw take source hw := hR.draw draw take source hw
  countCall seat hw := hR.countCall seat hw
  named {v _} name hw := hR.named (v := v.exchange e) name hw
  found tree hw := by
    rw [← hR.found tree hw, exchange, Table.get_map, Option.isSome_map]
  issue count hw := hR.issue count hw
  letLoose nodes hw := by
    rw [exchange_letLoose]
    exact hR.letLoose _ hw
  addTree root hw := by
    have hadded := hR.addTree (root.exchange e) hw
    rw [← exchange_addTree] at hadded
    exact hadded
  tree tree hw := by
    rw [← hR.tree tree hw]
    exact Table.get_map _ _ _
  holdTree tree root hw := by
    rw [exchange_holdTree]
    exact hR.holdTree tree _ hw
  putTree tree root hw := by
    rw [exchange_putTree]
    exact hR.putTree tree _ hw

end World

end TickTree
