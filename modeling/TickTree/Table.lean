/-!
# Tables

A table gives a value to every natural number.  Finitely many entries are stored; all other
numbers have the table's blank value.

Main results:

- Theorems `Table.get_set_self` and `Table.get_set_ne`: a write is seen at its own index and
  nowhere else.
-/

namespace TickTree

/-- A value for every index, equal to `blank` beyond the stored entries. -/
structure Table (α : Type) where
  entries : Array α
  blank : α

namespace Table

variable {α : Type}

/-- The table that is blank everywhere. -/
def empty (blank : α) : Table α := ⟨#[], blank⟩

/-- The table with the given entries at the first indices. -/
def ofList (blank : α) (entries : List α) : Table α := ⟨entries.toArray, blank⟩

/-- The number of stored entries; it is the first index that was never written. -/
def size (t : Table α) : Nat := t.entries.size

/-- The value at an index. -/
def get (t : Table α) (i : Nat) : α := t.entries[i]?.getD t.blank

/-- Writes one index.  Entries between the stored ones and the index become blank. -/
def set (t : Table α) (i : Nat) (a : α) : Table α :=
  if i < t.entries.size then
    { t with entries := t.entries.setIfInBounds i a }
  else
    { t with entries := (t.entries ++ Array.replicate (i - t.entries.size) t.blank).push a }

@[simp] theorem blank_set (t : Table α) (i : Nat) (a : α) : (t.set i a).blank = t.blank := by
  unfold set; split <;> rfl

/-- A write is seen at its own index. -/
@[simp] theorem get_set_self (t : Table α) (i : Nat) (a : α) : (t.set i a).get i = a := by
  unfold set get
  split
  next h => simp [h]
  next h =>
    have hi : t.entries.size + (i - t.entries.size) = i := by omega
    rw [Array.getElem?_push, Array.size_append, Array.size_replicate, hi]
    simp

/-- A write is not seen at any other index. -/
theorem get_set_ne (t : Table α) {i j : Nat} (a : α) (h : j ≠ i) :
    (t.set i a).get j = t.get j := by
  unfold set get
  split
  next hi => simp [Ne.symm h]
  next hi =>
    have hs : t.entries.size + (i - t.entries.size) = i := by omega
    rw [Array.getElem?_push, Array.size_append, Array.size_replicate, hs, if_neg h,
      Array.getElem?_append]
    split
    next hj => rfl
    next hj =>
      rw [Array.getElem?_replicate, Array.getElem?_eq_none (Nat.le_of_not_lt hj)]
      split <;> rfl

/-- The value at an index after a write. -/
theorem get_set (t : Table α) (i j : Nat) (a : α) :
    (t.set i a).get j = if j = i then a else t.get j := by
  by_cases h : j = i
  · subst h; simp
  · simp [h, get_set_ne]

end Table

end TickTree
