import TickTree.Callback

/-!
# Directories

The names under which shared trees are known.  A name leads to one tree; a name that is given anew
leads to the newer tree, and the older one keeps working without it.

Main results:

- Theorems `Directory.find?_bind_self` and `Directory.find?_bind_of_ne`: a name that was given is
  seen under itself and under no other name.
-/

namespace TickTree

/-- Names, each with the tree it leads to. -/
structure Directory where
  entries : List (String × TreeId)

namespace Directory

/-- The directory without a name. -/
def empty : Directory := ⟨[]⟩

/-- The tree that a name leads to. -/
def find? (name : String) (d : Directory) : Option TreeId := d.entries.lookup name

/-- Gives a name to a tree, and takes it from the tree that had it. -/
def bind (name : String) (tree : TreeId) (d : Directory) : Directory :=
  ⟨(name, tree) :: d.entries.filter fun entry => entry.1 != name⟩

/-- The name of a tree. -/
def nameOf? (tree : TreeId) (d : Directory) : Option String :=
  (d.entries.find? fun entry => entry.2 = tree).map Prod.fst

@[simp] theorem find?_empty (name : String) : empty.find? name = none := rfl

/-- A name leads to the tree it was given to. -/
@[simp] theorem find?_bind_self (name : String) (tree : TreeId) (d : Directory) :
    (d.bind name tree).find? name = some tree := by
  simp [bind, find?]

/-- Giving a name changes no other name. -/
theorem find?_bind_of_ne {name other : String} (tree : TreeId) (d : Directory)
    (h : other ≠ name) : (d.bind name tree).find? other = d.find? other := by
  rcases d with ⟨entries⟩
  have hb : (other == name) = false := by simp [h]
  simp only [bind, find?, List.lookup_cons, hb]
  induction entries with
  | nil => rfl
  | cons entry rest ih =>
    rcases entry with ⟨key, value⟩
    by_cases hk : key = name
    · subst hk
      simp [List.lookup_cons, hb, ih]
    · simp [hk, List.lookup_cons, ih]

end Directory

end TickTree
