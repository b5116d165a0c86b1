import TickTree.Table

/-!
# Pools of shared cells

A pool holds cells and hands out numbered handles.  Several handles may lead to one cell, and
what is done through one of them is seen through all of them.

Main results:

- Theorem `Pool.get_put_of_cell_eq`: a change is seen through every handle on the cell.
- Theorem `Pool.get_put_of_cell_ne`: a change is seen through no handle on another cell.
- Theorem `Pool.cell_share`: a further handle leads to the same cell.
-/

namespace TickTree

/-- Cells, and for every handle the cell it leads to. -/
structure Pool (α : Type) where
  cells : Table α
  handles : Array Nat

namespace Pool

variable {α : Type}

/-- The pool with one cell; handle 0 leads to it. -/
def single (a : α) : Pool α := ⟨Table.ofList a [a], #[0]⟩

/-- The cell that a handle leads to. -/
def cell (p : Pool α) (handle : Nat) : Nat := p.handles[handle]?.getD 0

/-- The contents of the cell behind a handle. -/
def get (p : Pool α) (handle : Nat) : α := p.cells.get (p.cell handle)

/-- Replaces the contents of the cell behind a handle. -/
def put (p : Pool α) (handle : Nat) (a : α) : Pool α :=
  { p with cells := p.cells.set (p.cell handle) a }

/-- A further handle on the cell of a given one, with its number. -/
def share (p : Pool α) (handle : Nat) : Nat × Pool α :=
  (p.handles.size, { p with handles := p.handles.push (p.cell handle) })

/-- A handle on a new cell, with its number. -/
def add (p : Pool α) (a : α) : Nat × Pool α :=
  (p.handles.size, ⟨p.cells.set p.cells.size a, p.handles.push p.cells.size⟩)

/-- A further handle leads to the same cell. -/
@[simp] theorem cell_share (p : Pool α) (h : Nat) :
    (p.share h).2.cell (p.share h).1 = p.cell h := by
  simp [share, cell]

/-- The handles that were there lead to the same cells. -/
theorem get_share_of_lt (p : Pool α) (h : Nat) {k : Nat} (hk : k < p.handles.size) :
    (p.share h).2.get k = p.get k := by
  simp [share, get, cell, Array.getElem?_push_lt, hk]

/-- A new handle leads to what was put in. -/
@[simp] theorem get_add (p : Pool α) (a : α) : (p.add a).2.get (p.add a).1 = a := by
  simp [add, get, cell]

@[simp] theorem cell_put (p : Pool α) (h k : Nat) (a : α) : (p.put h a).cell k = p.cell k := rfl

/-- A change is seen through every handle on the cell. -/
theorem get_put_of_cell_eq (p : Pool α) {h k : Nat} (a : α) (hk : p.cell k = p.cell h) :
    (p.put h a).get k = a := by
  simp only [get, cell_put, hk]
  simp [put]

/-- A change is seen through no handle on another cell. -/
theorem get_put_of_cell_ne (p : Pool α) {h k : Nat} (a : α) (hk : p.cell k ≠ p.cell h) :
    (p.put h a).get k = p.get k := by
  simp only [get, put]
  exact Table.get_set_ne _ _ hk

end Pool

end TickTree
