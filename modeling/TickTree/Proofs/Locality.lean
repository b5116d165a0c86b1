import Mathlib.Data.Set.BooleanAlgebra
import TickTree.Proofs.Calm
import TickTree.Proofs.Reset.Continuation
import TickTree.Proofs.Standalone

/-!
# Regions of a world

The cells of a world are what nodes use but do not own, and what their work changes: random sources,
numbers of calls, and shared trees.  A node keeps to a region when whatever it uses itself lies
there, its callbacks change neither clocks nor trees, and its suppliers give trees that there are
already.  A region is closed when the roots of its shared trees keep to it, so nothing outside can
be reached from it.

Work that keeps to a closed region neither depends on what is outside nor changes it.  Both are said
at once, of the same work in two worlds that are the same inside.

Main results:

- Definitions `Node.Within` and `World.Closed`: what keeps to a region.
- Theorem `World.Alongside.write`: the same write to a cell inside, in both worlds.
- Theorem `Callback.alike_of_within`: callbacks that keep to a region answer alike.
-/

namespace TickTree

/-! ## Cells and regions -/

/-- Something in a world that nodes use but do not own, and that work changes. -/
inductive Cell where
  | source (source : SourceId)
  | seat (seat : Nat)
  | tree (tree : TreeId)

/-- A part of a world. -/
abbrev Region := Set Cell

namespace World

/-- Two worlds have the same contents in a region. -/
structure SameCells (region : Region) (v w : World) : Prop where
  sources : ∀ source, Cell.source source ∈ region → v.sources.get source = w.sources.get source
  calls : ∀ seat, Cell.seat seat ∈ region → v.calls.get seat = w.calls.get seat
  trees : ∀ tree, Cell.tree tree ∈ region → v.trees.get tree = w.trees.get tree

/-- Two worlds have the same contents in a region, the same clock readings, and the same names of
trees. -/
structure SameWithin (region : Region) (v w : World) : Prop
    extends SameCells region v w where
  now : ∀ clock, v.now clock = w.now clock
  directory : v.directory = w.directory

section

variable {region inner : Region} {u v w : World}

theorem SameCells.refl (region : Region) (w : World) : SameCells region w w :=
  ⟨fun _ _ => rfl, fun _ _ => rfl, fun _ _ => rfl⟩

theorem SameCells.symm (h : SameCells region v w) : SameCells region w v where
  sources source hsource := (h.sources source hsource).symm
  calls seat hseat := (h.calls seat hseat).symm
  trees tree htree := (h.trees tree htree).symm

theorem SameCells.trans (h : SameCells region u v) (h' : SameCells region v w) :
    SameCells region u w where
  sources source hsource := (h.sources source hsource).trans (h'.sources source hsource)
  calls seat hseat := (h.calls seat hseat).trans (h'.calls seat hseat)
  trees tree htree := (h.trees tree htree).trans (h'.trees tree htree)

/-- Worlds that are the same in a region are the same in every part of it. -/
theorem SameCells.mono (h : SameCells region v w) (hinner : inner ⊆ region) :
    SameCells inner v w where
  sources source hsource := h.sources source (hinner hsource)
  calls seat hseat := h.calls seat (hinner hseat)
  trees tree htree := h.trees tree (hinner htree)

/-- Worlds that are the same in a part of a region and in the rest of it are the same in the
region. -/
theorem SameCells.glue (h : SameCells inner v w) (h' : SameCells (region ∩ innerᶜ) v w) :
    SameCells region v w := by
  refine ⟨fun source hsource => ?_, fun seat hseat => ?_, fun tree htree => ?_⟩
  · by_cases hinner : Cell.source source ∈ inner
    · exact h.sources source hinner
    · exact h'.sources source ⟨hsource, hinner⟩
  · by_cases hinner : Cell.seat seat ∈ inner
    · exact h.calls seat hinner
    · exact h'.calls seat ⟨hseat, hinner⟩
  · by_cases hinner : Cell.tree tree ∈ inner
    · exact h.trees tree hinner
    · exact h'.trees tree ⟨htree, hinner⟩

theorem SameWithin.refl (region : Region) (w : World) : SameWithin region w w :=
  ⟨.refl region w, fun _ => rfl, rfl⟩

theorem SameWithin.symm (h : SameWithin region v w) : SameWithin region w v :=
  ⟨h.toSameCells.symm, fun clock => (h.now clock).symm, h.directory.symm⟩

theorem SameWithin.trans (h : SameWithin region u v) (h' : SameWithin region v w) :
    SameWithin region u w :=
  ⟨h.toSameCells.trans h'.toSameCells, fun clock => (h.now clock).trans (h'.now clock),
    h.directory.trans h'.directory⟩

theorem SameWithin.mono (h : SameWithin region v w) (hinner : inner ⊆ region) :
    SameWithin inner v w :=
  ⟨h.toSameCells.mono hinner, h.now, h.directory⟩

/-- Worlds with the same outside are the same in every region. -/
theorem SameOutside.sameWithin (h : v.SameOutside w) (region : Region) :
    SameWithin region v w := by
  simp only [SameOutside, outside, Outside.mk.injEq] at h
  rcases h with ⟨hclocks, hsources, hcalls, htrees, hdirectory, -⟩
  exact ⟨⟨fun _ _ => by rw [hsources], fun _ _ => by rw [hcalls], fun _ _ => by rw [htrees]⟩,
    fun _ => by rw [now, now, hclocks], hdirectory⟩

end

end World

/-! ## Keeping to a region -/

/-- An effect that changes neither clocks nor trees. -/
def Effect.IsRecord : Effect → Prop
  | .log _ _ => True
  | .fail _ => True
  | _ => False

/-- The seat of a callback lies in a region, and the callback changes neither clocks nor trees. -/
def Callback.Within (region : Region) (α : Type) (c : Callback α) : Prop :=
  Cell.seat c.seat ∈ region ∧ c.Does Effect.IsRecord

/-- A tree that a supplier may give is there already, and it lies in a region. -/
structure Supply.Within (region : Region) (names : Directory) (supply : Supply) : Prop where
  old : ∀ plan, supply ≠ .fresh plan
  inside : ∀ tree, supply.tree? names = some tree → Cell.tree tree ∈ region

/-- The trait of parts that use nothing outside of a region.  Of references it says what may become
their target, not what is. -/
def Trait.within (region : Region) (names : Directory) : Trait where
  leaf part := (∀ source ∈ part.source?, Cell.source source ∈ region) ∧
    part.Every (Callback.Within region)
  composite part := ∀ source ∈ part.source?, Cell.source source ∈ region
  decorator part := (∀ source ∈ part.source?, Cell.source source ∈ region) ∧
    part.Every (Callback.Within region)
  reference part := part.supplier.Every (Callback.Within region) ∧
    ∀ supply, part.supplier.Gives (some supply) → supply.Within region names
  leaf_reset part := by cases part <;> exact Iff.rfl
  composite_reset part := by cases part <;> exact Iff.rfl
  decorator_reset part := by cases part <;> exact Iff.rfl
  reference_letGo _ := Iff.rfl

/-- A node keeps to a region: so do its parts and the targets that it holds. -/
structure Node.Within (region : Region) (names : Directory) (n : Node) : Prop where
  parts : n.MadeOf (.within region names)
  targets : ∀ tree ∈ n.targets, Cell.tree tree ∈ region

/-- The roots of all trees in a region keep to the region. -/
def World.Closed (region : Region) (w : World) : Prop :=
  ∀ tree found, Cell.tree tree ∈ region → w.trees.get tree = some found →
    found.root.Within region w.directory

/-! ## Two worlds alongside each other -/

/-- What the same work inside of a region may have come to in two worlds: inside they are the same,
outside each is as it was in the beginning, and the region is closed. -/
structure World.Alongside (region : Region) (v₀ w₀ v w : World) : Prop where
  inside : v.SameWithin region w
  left : v₀.SameWithin regionᶜ v
  right : w₀.SameWithin regionᶜ w
  closed : v.Closed region

section

variable {region : Region} {v₀ w₀ v w v' w' : World}

namespace World

/-- The same trees and names keep a region closed. -/
theorem Closed.of_eq (h : v.Closed region) (htrees : w.trees = v.trees)
    (hdirectory : w.directory = v.directory) : w.Closed region := by
  unfold Closed at h ⊢
  rw [htrees, hdirectory]
  exact h

/-- In the beginning two worlds need only be the same inside. -/
theorem SameWithin.alongside (h : v.SameWithin region w) (hv : v.Closed region) :
    Alongside region v w v w :=
  ⟨h, .refl _ v, .refl _ w, hv⟩

namespace Alongside

/-- Trees have the names that they had in the beginning. -/
theorem names (h : Alongside region v₀ w₀ v w) : v.directory = v₀.directory :=
  h.left.directory.symm

/-- A tree inside has a root that keeps to the region. -/
theorem root (h : Alongside region v₀ w₀ v w) {tree : TreeId} {found : Tree}
    (htree : Cell.tree tree ∈ region) (hfound : v.trees.get tree = some found) :
    found.root.Within region v₀.directory := by
  rw [← h.names]
  exact h.closed tree found htree hfound

/-- The same write to a cell inside, in both worlds. -/
theorem write (h : Alongside region v₀ w₀ v w) {cell : Cell} (hcell : cell ∈ region)
    (hv : v.SameWithin {cell}ᶜ v') (hw : w.SameWithin {cell}ᶜ w')
    (hsame : v'.SameCells {cell} w') (hclosed : v'.Closed region) :
    Alongside region v₀ w₀ v' w' := by
  have hbeyond : regionᶜ ⊆ ({cell}ᶜ : Region) :=
    Set.compl_subset_compl.2 (Set.singleton_subset_iff.2 hcell)
  have hrest : v'.SameCells (region ∩ {cell}ᶜ) w' :=
    ((hv.symm.mono Set.inter_subset_right).toSameCells.trans
      (h.inside.mono Set.inter_subset_left).toSameCells).trans
      (hw.mono Set.inter_subset_right).toSameCells
  refine ⟨⟨hsame.glue hrest, fun clock => ?_, ?_⟩, h.left.trans (hv.mono hbeyond),
    h.right.trans (hw.mono hbeyond), hclosed⟩
  · rw [← hv.now, ← hw.now, h.inside.now]
  · rw [← hv.directory, ← hw.directory, h.inside.directory]

/-- Two worlds stay alongside each other when nothing but their histories and faults changes. -/
theorem of_outside (h : Alongside region v₀ w₀ v w) (hv : v.SameOutside v')
    (hw : w.SameOutside w') : Alongside region v₀ w₀ v' w' where
  inside := (hv.sameWithin region).symm.trans (h.inside.trans (hw.sameWithin region))
  left := h.left.trans (hv.sameWithin regionᶜ)
  right := h.right.trans (hw.sameWithin regionᶜ)
  closed := h.closed.of_eq (congrArg Outside.trees hv).symm (congrArg Outside.directory hv).symm

theorem fail (h : Alongside region v₀ w₀ v w) (fault : Fault) :
    Alongside region v₀ w₀ (v.fail fault) (w.fail fault) :=
  h.of_outside (outside_fail fault v).symm (outside_fail fault w).symm

end Alongside

/-- Two worlds alongside each other show the same times and take the same events. -/
theorem tracking_alongside : Tracking (Alongside region v₀ w₀) where
  emit _ h := h.of_outside rfl rfl
  now clock h := h.inside.now clock

/-! ## Writes to cells -/

/-- A draw changes its source only. -/
theorem sameWithin_drawWith {α : Type} (draw : Draw) (take : Source → α × Source)
    (source : SourceId) (w : World) :
    w.SameWithin {Cell.source source}ᶜ (w.drawWith draw take source).2 := by
  refine ⟨⟨fun other hother => ?_, fun _ _ => rfl, fun _ _ => rfl⟩, fun _ => rfl, rfl⟩
  exact (Table.get_set_ne _ _ fun h => hother (congrArg Cell.source h)).symm

/-- A count changes its seat only. -/
theorem sameWithin_countCall (seat : Nat) (w : World) :
    w.SameWithin {Cell.seat seat}ᶜ (w.countCall seat).2 := by
  refine ⟨⟨fun _ _ => rfl, fun other hother => ?_, fun _ _ => rfl⟩, fun _ => rfl, rfl⟩
  exact (Table.get_set_ne _ _ fun h => hother (congrArg Cell.seat h)).symm

/-- Taking a tree into use changes this tree only. -/
theorem sameWithin_holdTree (tree : TreeId) (root : Node) (w : World) :
    w.SameWithin {Cell.tree tree}ᶜ (w.holdTree tree root) := by
  refine ⟨⟨fun _ _ => rfl, fun _ _ => rfl, fun other hother => ?_⟩, fun _ => rfl, rfl⟩
  exact (get_holdTree_of_ne (fun h => hother (congrArg Cell.tree h)) root w).symm

/-- Putting a tree back changes this tree only. -/
theorem sameWithin_putTree (tree : TreeId) (root : Node) (w : World) :
    w.SameWithin {Cell.tree tree}ᶜ (w.putTree tree root) := by
  refine ⟨⟨fun _ _ => rfl, fun _ _ => rfl, fun other hother => ?_⟩, fun _ => rfl, rfl⟩
  exact (get_putTree_of_ne (fun h => hother (congrArg Cell.tree h)) root w).symm

/-- A region stays closed when one tree gets a root that keeps to it. -/
theorem Closed.of_tree (h : v.Closed region) {tree : TreeId} {root : Node} {inUse : Bool}
    (hother : v.SameWithin {Cell.tree tree}ᶜ w)
    (hfound : w.trees.get tree = some ⟨root, inUse⟩) (hroot : root.Within region v.directory) :
    w.Closed region := by
  intro other found hinside hother'
  rw [← hother.directory]
  by_cases hsame : other = tree
  · subst hsame
    rw [hfound] at hother'
    cases hother'
    exact hroot
  · have hkept := hother.trees other fun h => hsame (Cell.tree.inj h)
    exact h other found hinside (hkept.trans hother')

/-- Draws from a source inside give the same. -/
theorem drawsAlike_alongside {source : SourceId} (hsource : Cell.source source ∈ region) :
    DrawsAlike (Alongside region v₀ w₀) source := by
  intro v w α draw take h
  have hsame := h.inside.sources source hsource
  refine ⟨by simp only [drawWith, hsame], h.write hsource (sameWithin_drawWith draw take source v)
    (sameWithin_drawWith draw take source w) ⟨?_, nofun, nofun⟩ (h.closed.of_eq rfl rfl)⟩
  intro other hother
  cases hother
  simp only [drawWith, sources_emit, Table.get_set_self, hsame]

namespace Alongside

/-- Calls at a seat inside are counted alike. -/
theorem countCall (h : Alongside region v₀ w₀ v w) {seat : Nat}
    (hseat : Cell.seat seat ∈ region) :
    Coupled (Alongside region v₀ w₀) (v.countCall seat) (w.countCall seat) := by
  have hsame := h.inside.calls seat hseat
  refine ⟨hsame, h.write hseat (sameWithin_countCall seat v) (sameWithin_countCall seat w)
    ⟨nofun, ?_, nofun⟩ (h.closed.of_eq rfl rfl)⟩
  intro other hother
  cases hother
  simp only [World.countCall, Table.get_set_self, hsame]

/-- A tree inside is taken into use. -/
theorem holdTree (h : Alongside region v₀ w₀ v w) {tree : TreeId} {root : Node}
    (htree : Cell.tree tree ∈ region) (hroot : root.Within region v₀.directory) :
    Alongside region v₀ w₀ (v.holdTree tree root) (w.holdTree tree root) := by
  have hheld : ∀ u : World, (u.holdTree tree root).trees.get tree = some ⟨root, true⟩ :=
    fun u => Table.get_set_self _ _ _
  rw [← h.names] at hroot
  refine h.write htree (sameWithin_holdTree tree root v) (sameWithin_holdTree tree root w)
    ⟨nofun, nofun, ?_⟩ (h.closed.of_tree (sameWithin_holdTree tree root v) (hheld v) hroot)
  intro other hother
  cases hother
  rw [hheld, hheld]

/-- A tree inside is put back. -/
theorem putTree (h : Alongside region v₀ w₀ v w) {tree : TreeId} {root : Node}
    (htree : Cell.tree tree ∈ region) (hroot : root.Within region v₀.directory) :
    Alongside region v₀ w₀ (v.putTree tree root) (w.putTree tree root) := by
  rw [← h.names] at hroot
  refine h.write htree (sameWithin_putTree tree root v) (sameWithin_putTree tree root w)
    ⟨nofun, nofun, ?_⟩
    (h.closed.of_tree (sameWithin_putTree tree root v) (get_putTree_self tree root v) hroot)
  intro other hother
  cases hother
  rw [get_putTree_self, get_putTree_self]

end Alongside

end World

/-! ## Callbacks -/

variable {s t : Service}

/-- Records leave worlds alongside each other. -/
theorem Effect.alongside_performAll (effects : List Effect)
    (h : ∀ effect ∈ effects, effect.IsRecord) (hw : World.Alongside region v₀ w₀ v w) :
    World.Alongside region v₀ w₀ (performAll s effects v) (performAll t effects w) := by
  induction effects generalizing v w with
  | nil => exact hw
  | cons effect rest ih =>
    have hrecord := h effect List.mem_cons_self
    have hfirst : World.Alongside region v₀ w₀ (effect.perform s v) (effect.perform t w) := by
      cases effect with
      | advance clock step => exact hrecord.elim
      | set clock reading => exact hrecord.elim
      | ask operation name => exact hrecord.elim
      | log level message => exact hw.of_outside rfl rfl
      | fail fault => exact hw.fail fault
    exact ih (fun effect heffect => h effect (List.mem_cons_of_mem _ heffect)) hfirst

/-- A callback that keeps to a region answers alike, whatever the services. -/
theorem Callback.alike_of_within (α : Type) (c : Callback α) (h : c.Within region) :
    Callback.Alike (World.Alongside region v₀ w₀) s t α c := by
  intro v w hw
  rcases hw.countCall h.1 with ⟨hcount, hafter⟩
  unfold consult
  simp only [hcount]
  exact ⟨rfl, Effect.alongside_performAll _ (h.2 _) hafter⟩

end

end TickTree
