import Mathlib.Data.List.Nodup
import TickTree.Proofs.Hooks
import TickTree.Proofs.Reset

/-!
# Paths of forwarding trees

In a forest of trees that do nothing but forward, the tree that a reference holds may hold a tree
itself, and so on.  These trees are a path, and every tree beside the path holds nothing.  Taking
the first tree of a path into use leaves the rest of the path to its root, and putting it back puts
it in front of the path that its root has by then.

Main results:

- Definition `ForwardingForest.Poised`: the state of a forest between requests.
- Theorem `ForwardingForest.Poised.holdTree`: what is left to a root when its tree is taken into
  use.
- Theorem `ForwardingForest.Poised.putTree`: what the path is when the tree is put back.
-/

namespace TickTree

/-! ## Forwarding nodes -/

namespace Node

/-- A node without the trees that it is embedded in. -/
def bottom : Node → Node
  | embedded _ root => bottom root
  | n => n

/-- The tree that a node holds as its target. -/
def held? (n : Node) : Option TreeId :=
  match n.bottom with
  | reference r => r.held
  | _ => none

/-- A reference holds its target. -/
theorem held?_of_reference {n : Node} {r : Reference} (h : n.bottom = .reference r) :
    n.held? = r.held := by
  unfold held?
  rw [h]

/-- A leaf holds nothing. -/
theorem held?_of_leaf {n : Node} {part : Leaf} (h : n.bottom = .leaf part) : n.held? = none := by
  unfold held?
  rw [h]

/-- An embedded tree does what its root does. -/
theorem bottom_perform (s : Service) (operation : Operation) (n : Node) (w : World) :
    (n.perform s operation w).2.1.bottom = (n.bottom.perform s operation w).2.1.bottom ∧
      (n.perform s operation w).2.2 = (n.bottom.perform s operation w).2.2 := by
  induction n with
  | leaf part => exact ⟨rfl, rfl⟩
  | composite part children => exact ⟨rfl, rfl⟩
  | decorator part child => exact ⟨rfl, rfl⟩
  | reference part => exact ⟨rfl, rfl⟩
  | embedded tag root ih =>
    cases operation with
    | tick => exact ih
    | reset => exact ih
    | start => exact ih
    | finish => exact ih

/-- The first state of an embedded tree is that of its root. -/
theorem bottom_cleared (n : Node) : n.cleared.bottom = n.bottom.cleared := by
  induction n with
  | leaf part => rfl
  | composite part children => rfl
  | decorator part child => rfl
  | reference part => rfl
  | embedded tag root ih => exact ih

/-- A chain of forwarding nodes as it was made: trees in the place of nodes, around a custom node
that records its hooks or around a reference.  Its callbacks ask nothing of shared trees. -/
inductive Forwards : Node → Prop
  | probe {name : String} {script : Callback Status} (h : script.IsQuiet) :
    Forwards (.leaf (.probe name script true))
  | reference {kind : Reference.Kind} {name : String} {supplier : Supplier (Option Supply)}
    (h : supplier.Chooses) : Forwards (.reference (.new kind name supplier))
  | embedded {tag : Option Tag} {root : Node} (h : Forwards root) : Forwards (.embedded tag root)

/-- A chain that was made has been left in its first state. -/
theorem Forwards.cleared {root : Node} (h : root.Forwards) : root.cleared = root := by
  induction h with
  | probe h => rfl
  | reference h => rfl
  | embedded h ih => exact congrArg _ ih

/-- A chain that was made holds nothing. -/
theorem Forwards.held?_eq_none {root : Node} (h : root.Forwards) : root.held? = none := by
  induction h with
  | probe h => rfl
  | reference h => rfl
  | embedded h ih => exact ih

/-- At the end of a chain there is a custom node or a reference, whatever was done to the chain. -/
theorem Forwards.bottom_cases {root n : Node} (h : root.Forwards) (hn : n.cleared = root) :
    (∃ name script, script.IsQuiet ∧ n.bottom = .leaf (.probe name script true) ∧
      root.bottom = .leaf (.probe name script true)) ∨
    ∃ r, r.supplier.Chooses ∧ n.bottom = .reference r ∧ root.bottom = .reference r.letGo := by
  have hends : (∃ name script, script.IsQuiet ∧ root.bottom = .leaf (.probe name script true)) ∨
      ∃ kind name supplier, supplier.Chooses ∧
        root.bottom = .reference (.new kind name supplier) := by
    clear hn
    induction h with
    | probe h => exact .inl ⟨_, _, h, rfl⟩
    | reference h => exact .inr ⟨_, _, _, h, rfl⟩
    | embedded h ih => exact ih
  have hbottom : n.bottom.cleared = root.bottom := by
    rw [← bottom_cleared, hn]
  rcases hends with ⟨name, script, hquiet, hend⟩ | ⟨kind, name, supplier, hchooses, hend⟩
  · rw [hend] at hbottom
    refine .inl ⟨name, script, hquiet, ?_, hend⟩
    rcases hcurrent : n.bottom with part | _ | _ | _ | _
    · rw [hcurrent] at hbottom
      have hpart : part.reset = .probe name script true := Node.leaf.inj hbottom
      cases part <;> simp_all [Leaf.reset]
    all_goals
      rw [hcurrent] at hbottom
      cases hbottom
  · rw [hend] at hbottom
    rcases hcurrent : n.bottom with _ | _ | _ | r | _
    case reference =>
      rw [hcurrent] at hbottom
      have hr : r.letGo = .new kind name supplier := Node.reference.inj hbottom
      refine .inr ⟨r, ?_, rfl, by rw [hend, hr]⟩
      have hsupplier : r.letGo.supplier = supplier := by rw [hr]; rfl
      exact (show r.supplier = supplier from hsupplier) ▸ hchooses
    all_goals
      rw [hcurrent] at hbottom
      cases hbottom

end Node

/-! ## Forests -/

/-- A fresh forest of trees that do nothing but forward, with a custom node at the end of one of
them. -/
structure ForwardingForest where
  origin : World
  /-- Every tree is free and forwards. -/
  forwards : ∀ tree found, origin.trees.get tree = some found →
    found.inUse = false ∧ found.root.Forwards
  /-- The tree of the custom node. -/
  custom : TreeId
  root : Node
  name : String
  script : Callback Status
  root_eq : origin.trees.get custom = some ⟨root, false⟩
  bottom_eq : root.bottom = .leaf (.probe name script true)
  /-- No other custom node has the same seat. -/
  alone : ∀ tree found name' script', origin.trees.get tree = some found →
    found.root.bottom = .leaf (.probe name' script' true) → script'.seat = script.seat →
      tree = custom
  /-- The custom node has received no hook. -/
  unobserved : origin.hooks script.seat = []

/-- A path of free trees, each of which is held by the root of the tree before it.  A path may end
at a number that no tree has. -/
inductive World.Path (w : World) : Option TreeId → List TreeId → Prop
  | nil : Path w none []
  | lost {tree : TreeId} (h : w.trees.get tree = none) : Path w (some tree) []
  | cons {tree : TreeId} {root : Node} {path : List TreeId}
    (h : w.trees.get tree = some ⟨root, false⟩) (hpath : Path w root.held? path) :
    Path w (some tree) (tree :: path)

namespace World

/-- The trees of a path are free. -/
theorem Path.free {w : World} {held : Option TreeId} {path : List TreeId} (h : w.Path held path) :
    ∀ tree ∈ path, ∃ root, w.trees.get tree = some ⟨root, false⟩ := by
  induction h with
  | nil => simp
  | lost h => simp
  | @cons tree root path hfree hpath ih =>
    intro other hother
    rcases List.mem_cons.1 hother with rfl | hother
    · exact ⟨root, hfree⟩
    · exact ih other hother

/-- A path lies in every world in which its trees are the same, and in which the same trees are
missing. -/
theorem Path.transfer {v w : World} {held : Option TreeId} {path : List TreeId}
    (h : v.Path held path) (hpath : ∀ tree ∈ path, w.trees.get tree = v.trees.get tree)
    (hlost : ∀ tree, v.trees.get tree = none → w.trees.get tree = none) : w.Path held path := by
  induction h with
  | nil => exact .nil
  | lost h => exact .lost (hlost _ h)
  | @cons tree root path hfree _ ih =>
    have hsame := hpath tree List.mem_cons_self
    exact .cons (hsame.trans hfree) (ih fun other h => hpath other (List.mem_cons_of_mem _ h))

end World

namespace ForwardingForest

variable (f : ForwardingForest)

/-- The seat of the custom node. -/
def seat : Nat := f.script.seat

/-- No sub-tree ever finds the tree of the custom node: only dynamic sub-trees do. -/
def Spared : Prop :=
  ∀ tree found r supply, f.origin.trees.get tree = some found →
    found.root.bottom = .reference r → r.kind = .sticky → r.supplier.Gives (some supply) →
      supply.tree? f.origin.directory ≠ some f.custom

/-- A node that is a sub-tree does not hold the tree of the custom node, where this is spared. -/
def Spares (n : Node) : Prop :=
  f.Spared → ∀ r, n.bottom = .reference r → r.kind = .sticky → r.held ≠ some f.custom

/-- The state of a forest between requests, for someone who holds a tree: the trees on the path from
there are free, and all other free trees hold nothing. -/
structure Poised (w : World) (held : Option TreeId) (path : List TreeId) : Prop where
  /-- Every tree is as it was made, apart from what its root holds. -/
  shape : ∀ tree, (w.trees.get tree).map (fun found => found.root.cleared) =
    (f.origin.trees.get tree).map Tree.root
  directory : w.directory = f.origin.directory
  linked : w.Path held path
  nodup : path.Nodup
  idle : ∀ tree root, w.trees.get tree = some ⟨root, false⟩ → tree ∉ path → root.held? = none
  spares : ∀ tree root, w.trees.get tree = some ⟨root, false⟩ → f.Spares root
  fair : w.Fair f.Spared f.seat

/-- The custom node is open only if its tree is on the path, and exactly then where it is spared. -/
structure Phase (w : World) (path : List TreeId) : Prop where
  mem : w.IsOpen f.seat → f.custom ∈ path
  isOpen : f.Spared → f.custom ∈ path → w.IsOpen f.seat

variable {f} {v w : World} {held : Option TreeId} {path : List TreeId}

namespace Poised

/-- Where nothing is held there is no path. -/
theorem path_eq_nil (h : f.Poised w none path) : path = [] := by
  cases h.linked
  rfl

/-- Work that touches neither trees nor hooks does not change the state. -/
theorem aside (h : f.Poised v held path) (hw : World.Aside f.seat v w) : f.Poised w held path where
  shape tree := by rw [hw.trees]; exact h.shape tree
  directory := hw.directory.trans h.directory
  linked := h.linked.transfer (fun _ _ => by rw [hw.trees]) fun _ hnone => by rw [hw.trees, hnone]
  nodup := h.nodup
  idle tree root hroot := h.idle tree root (by rw [← hw.trees, hroot])
  spares tree root hroot := h.spares tree root (by rw [← hw.trees, hroot])
  fair := h.fair.congr hw.hooks

/-- A hook that is fair does not change the state. -/
theorem emit (h : f.Poised w held path) {e : Event} (he : (w.emit e).Fair f.Spared f.seat) :
    f.Poised (w.emit e) held path where
  shape := h.shape
  directory := h.directory
  linked := h.linked.transfer (fun _ _ => rfl) fun _ hnone => hnone
  nodup := h.nodup
  idle := h.idle
  spares := h.spares
  fair := he

/-- At the end of every tree there is a custom node or a reference.  A reference is not at the end
of the custom node's tree, and a custom node at the end of another tree has another seat. -/
theorem bottom_cases (h : f.Poised w held path) {tree : TreeId} {root : Node} {inUse : Bool}
    (hroot : w.trees.get tree = some ⟨root, inUse⟩) :
    (∃ name script, script.IsQuiet ∧ root.bottom = .leaf (.probe name script true) ∧
      (script.seat = f.seat ↔ tree = f.custom)) ∨
    ∃ r, r.supplier.Chooses ∧ root.bottom = .reference r ∧ tree ≠ f.custom ∧
      (f.Spared → r.kind = .sticky → ∀ supply, r.supplier.Gives (some supply) →
        supply.tree? f.origin.directory ≠ some f.custom) := by
  have hshape := h.shape tree
  rw [hroot] at hshape
  rcases Option.map_eq_some_iff.1 hshape.symm with ⟨found, horigin, hcleared⟩
  have hforwards := (f.forwards tree found horigin).2
  rcases hforwards.bottom_cases hcleared.symm with
    ⟨name, script, hquiet, hbottom, hfirst⟩ | ⟨r, hchooses, hbottom, hfirst⟩
  · refine .inl ⟨name, script, hquiet, hbottom, f.alone tree found name script horigin hfirst, ?_⟩
    rintro rfl
    rw [f.root_eq] at horigin
    cases horigin
    rw [f.bottom_eq] at hfirst
    cases hfirst
    rfl
  · refine .inr ⟨r, hchooses, hbottom, ?_, ?_⟩
    · rintro rfl
      rw [f.root_eq] at horigin
      cases horigin
      rw [f.bottom_eq] at hfirst
      cases hfirst
    · intro hspared hkind supply hgives
      exact hspared tree found r.letGo supply horigin hfirst hkind hgives

/-- When the first tree of a path is taken into use, the rest of the path is left to its root. -/
theorem holdTree {tree : TreeId} {root : Node} {rest : List TreeId}
    (h : f.Poised w (some tree) (tree :: rest))
    (hroot : w.trees.get tree = some ⟨root, false⟩) :
    f.Poised (w.holdTree tree root) root.held? rest := by
  have hrest : w.Path root.held? rest := by
    cases h.linked with
    | cons hfree hpath =>
      rw [hroot] at hfree
      cases hfree
      exact hpath
  have hother : ∀ other, other ≠ tree →
      (w.holdTree tree root).trees.get other = w.trees.get other :=
    fun other hne => World.get_holdTree_of_ne hne root w
  have hself : (w.holdTree tree root).trees.get tree = some ⟨root, true⟩ :=
    Table.get_set_self _ _ _
  have hfree : ∀ other found, (w.holdTree tree root).trees.get other = some ⟨found, false⟩ →
      other ≠ tree ∧ w.trees.get other = some ⟨found, false⟩ := by
    intro other found hfound
    have hne : other ≠ tree := by
      rintro rfl
      rw [hself] at hfound
      cases hfound
    exact ⟨hne, (hother other hne).symm.trans hfound⟩
  constructor
  · intro other
    by_cases hne : other = tree
    · rw [hne, hself, ← h.shape tree, hroot]
      rfl
    · rw [hother other hne]
      exact h.shape other
  · exact h.directory
  · refine hrest.transfer (fun other hmem => hother other ?_) fun other hnone => ?_
    · rintro rfl
      exact (List.nodup_cons.1 h.nodup).1 hmem
    · rw [hother other, hnone]
      rintro rfl
      rw [hroot] at hnone
      cases hnone
  · exact (List.nodup_cons.1 h.nodup).2
  · intro other found hfound hmem
    rcases hfree other found hfound with ⟨hne, hfound⟩
    exact h.idle other found hfound (by simp [hne, hmem])
  · intro other found hfound
    exact h.spares other found (hfree other found hfound).2
  · exact h.fair.congr rfl

/-- When a tree in use is put back, it stands in front of the path of its root. -/
theorem putTree {tree : TreeId} {root left : Node}
    (h : f.Poised w left.held? path) (hroot : w.trees.get tree = some ⟨root, true⟩)
    (hcleared : left.cleared = root.cleared) (hspares : f.Spares left) :
    f.Poised (w.putTree tree left) (some tree) (tree :: path) := by
  have hother : ∀ other, other ≠ tree →
      (w.putTree tree left).trees.get other = w.trees.get other :=
    fun other hne => World.get_putTree_of_ne hne left w
  have hself : (w.putTree tree left).trees.get tree = some ⟨left, false⟩ :=
    World.get_putTree_self tree left w
  have hmem : tree ∉ path := by
    intro hmem
    rcases h.linked.free tree hmem with ⟨found, hfree⟩
    rw [hroot] at hfree
    cases hfree
  constructor
  · intro other
    by_cases hne : other = tree
    · rw [hne, hself, ← h.shape tree, hroot]
      exact congrArg some hcleared
    · rw [hother other hne]
      exact h.shape other
  · exact h.directory
  · refine .cons hself (h.linked.transfer (fun other hpath => hother other ?_) ?_)
    · rintro rfl
      exact hmem hpath
    · intro other hnone
      rw [hother other, hnone]
      rintro rfl
      rw [hroot] at hnone
      cases hnone
  · exact List.nodup_cons.2 ⟨hmem, h.nodup⟩
  · intro other found hfound hnot
    rw [List.mem_cons, not_or] at hnot
    rw [hother other hnot.1] at hfound
    exact h.idle other found hfound hnot.2
  · intro other found hfound
    by_cases hne : other = tree
    · rw [hne, hself] at hfound
      cases hfound
      exact hspares
    · rw [hother other hne] at hfound
      exact h.spares other found hfound
  · exact h.fair.congr rfl

/-- Whoever holds nothing may take a tree as the target.  It is alone on its path, or there is no
such tree. -/
theorem take (h : f.Poised w none path) (tree : TreeId) :
    (∃ root, w.trees.get tree = some ⟨root, true⟩) ∨
      (w.trees.get tree = none ∧ f.Poised w (some tree) []) ∨
      f.Poised w (some tree) [tree] := by
  cases h.path_eq_nil
  rcases hfound : w.trees.get tree with _ | ⟨root, inUse⟩
  · exact .inr (.inl ⟨rfl, { h with linked := .lost hfound }⟩)
  · cases inUse with
    | true => exact .inl ⟨root, rfl⟩
    | false =>
      refine .inr (.inr { h with
        linked := .cons hfound ?_, nodup := List.nodup_singleton tree, idle := ?_ })
      · rw [h.idle tree root hfound List.not_mem_nil]
        exact .nil
      · intro other found hfree _
        exact h.idle other found hfree List.not_mem_nil

/-- Whoever holds a tree that holds nothing itself may let it go. -/
theorem letGo {tree : TreeId} {root : Node} (h : f.Poised w (some tree) path)
    (hroot : w.trees.get tree = some ⟨root, false⟩) (hheld : root.held? = none) :
    f.Poised w none [] := by
  have hpath : path = [tree] := by
    cases h.linked with
    | lost hnone =>
      rw [hroot] at hnone
      cases hnone
    | cons hfree hpath =>
      rw [hroot] at hfree
      cases hfree
      rw [hheld] at hpath
      cases hpath
      rfl
  refine { h with linked := .nil, nodup := List.nodup_nil, idle := ?_ }
  intro other found hfound _
  by_cases hne : other = tree
  · rw [hne, hroot] at hfound
    cases hfound
    exact hheld
  · exact h.idle other found hfound (by simp [hpath, hne])

end Poised

end ForwardingForest

end TickTree
