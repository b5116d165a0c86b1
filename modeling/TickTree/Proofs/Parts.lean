import TickTree.Node.Cleared

/-!
# Parts of trees

What holds of the callbacks of a leaf or a decorator, and what holds of all parts of a tree.  A
trait of parts is not changed by resets; so a tree is made of parts with a trait in all of its
states if it is in one of them.

Main results:

- Theorem `Leaf.every_reset` and `Decorator.every_reset`: a reset keeps the callbacks.
- Theorem `Node.MadeOf.of_forall`: traits of all parts of a tree hold together.
- Theorem `Node.madeOf_cleared`: a tree is made of certain parts exactly when its first state is.
-/

namespace TickTree

/-! ## Callbacks of parts -/

section

variable (X : ∀ α : Type, Callback α → Prop)

/-- The callback behind a supplier has a property, if there is one. -/
def Supplier.Every {α : Type} : Supplier α → Prop
  | .constant _ => True
  | .scripted callback => X α callback

/-- Every callback of a leaf has a property. -/
def Leaf.Every : Leaf → Prop
  | action _ body => body.Every X
  | condition _ test => test.Every X
  | sleep _ => True
  | sleepUntil _ test => test.Every X
  | sleepUntilIdle _ test bypass =>
    (∀ supplier, bypass = some supplier → supplier.Every X) ∧ test.Every X
  | probe _ script _ => X Status script
  | countdown _ _ _ => True

/-- Every callback of a decorator has a property. -/
def Decorator.Every : Decorator → Prop
  | cooldown _ period _ => period.Every X
  | successRate _ percentage => percentage.Every X
  | _ => True

section

variable {κ : Type} {Z : κ → ∀ α : Type, Callback α → Prop} {Y : ∀ α : Type, Callback α → Prop}
  (h : ∀ α callback, (∀ k, Z k α callback) → Y α callback)
include h

/-- Properties of the callback behind a supplier hold together. -/
theorem Supplier.Every.of_forall {α : Type} {supplier : Supplier α}
    (hs : ∀ k, supplier.Every (Z k)) : supplier.Every Y := by
  cases supplier with
  | constant value => trivial
  | scripted callback => exact h α callback hs

/-- Properties of the callbacks of a leaf hold together. -/
theorem Leaf.Every.of_forall {part : Leaf} (hp : ∀ k, part.Every (Z k)) : part.Every Y := by
  cases part with
  | action name body => exact Supplier.Every.of_forall h hp
  | condition name test => exact Supplier.Every.of_forall h hp
  | sleep timer => trivial
  | sleepUntil timer test => exact Supplier.Every.of_forall h hp
  | sleepUntilIdle watch test bypass =>
    refine ⟨fun supplier hsupplier => ?_, Supplier.Every.of_forall h fun k => (hp k).2⟩
    exact Supplier.Every.of_forall h fun k => (hp k).1 supplier hsupplier
  | probe name script hooks => exact h Status script hp
  | countdown name count remaining => trivial

/-- Properties of the callbacks of a decorator hold together. -/
theorem Decorator.Every.of_forall {part : Decorator} (hp : ∀ k, part.Every (Z k)) :
    part.Every Y := by
  cases part with
  | cooldown clock period last => exact Supplier.Every.of_forall h hp
  | successRate source percentage => exact Supplier.Every.of_forall h hp
  | inverter => trivial
  | repetition limit count => trivial
  | retry limit count => trivial
  | sleepUntilSuccess timer => trivial

end

section

variable {X} {Y : ∀ α : Type, Callback α → Prop} (h : ∀ α callback, X α callback → Y α callback)
include h

/-- A property of the callback behind a supplier may be weakened. -/
theorem Supplier.Every.mono {α : Type} {supplier : Supplier α} (hs : supplier.Every X) :
    supplier.Every Y :=
  Supplier.Every.of_forall (fun α c hc => h α c (hc ())) fun _ : Unit => hs

/-- A property of the callbacks of a leaf may be weakened. -/
theorem Leaf.Every.mono {part : Leaf} (hp : part.Every X) : part.Every Y :=
  Leaf.Every.of_forall (fun α c hc => h α c (hc ())) fun _ : Unit => hp

/-- A property of the callbacks of a decorator may be weakened. -/
theorem Decorator.Every.mono {part : Decorator} (hp : part.Every X) : part.Every Y :=
  Decorator.Every.of_forall (fun α c hc => h α c (hc ())) fun _ : Unit => hp

end

section

variable {X} (h : ∀ α callback, X α callback)
include h

/-- What holds of all callbacks holds of that behind a supplier. -/
theorem Supplier.every_of_all {α : Type} (supplier : Supplier α) : supplier.Every X :=
  Supplier.Every.of_forall (Z := Empty.elim) (fun α c _ => h α c) nofun

/-- What holds of all callbacks holds of those of a leaf. -/
theorem Leaf.every_of_all (part : Leaf) : part.Every X :=
  Leaf.Every.of_forall (Z := Empty.elim) (fun α c _ => h α c) nofun

/-- What holds of all callbacks holds of those of a decorator. -/
theorem Decorator.every_of_all (part : Decorator) : part.Every X :=
  Decorator.Every.of_forall (Z := Empty.elim) (fun α c _ => h α c) nofun

end

/-- A reset keeps the callbacks of a leaf. -/
theorem Leaf.every_reset (part : Leaf) : part.reset.Every X ↔ part.Every X := by
  cases part <;> exact Iff.rfl

/-- A reset keeps the callbacks of a decorator. -/
theorem Decorator.every_reset (part : Decorator) : part.reset.Every X ↔ part.Every X := by
  cases part <;> exact Iff.rfl

end

/-! ## Sources of parts -/

/-- The source from which a leaf draws, if it draws at all. -/
def Leaf.source? : Leaf → Option SourceId
  | sleep timer => some timer.source
  | sleepUntil timer _ => some timer.source
  | _ => none

/-- The source from which a composite draws, if it draws at all. -/
def Composite.source? : Composite → Option SourceId
  | randomSelector source _ => some source
  | _ => none

/-- The source from which a decorator draws, if it draws at all. -/
def Decorator.source? : Decorator → Option SourceId
  | successRate source _ => some source
  | sleepUntilSuccess timer => some timer.source
  | _ => none

/-! ## Traits -/

/-- What may hold of the parts of a tree, where a reset does not change it. -/
structure Trait where
  leaf : Leaf → Prop
  composite : Composite → Prop
  decorator : Decorator → Prop
  reference : Reference → Prop
  leaf_reset : ∀ part : Leaf, leaf part.reset ↔ leaf part
  composite_reset : ∀ part : Composite, composite part.reset ↔ composite part
  decorator_reset : ∀ part : Decorator, decorator part.reset ↔ decorator part
  reference_letGo : ∀ part : Reference, reference part.letGo ↔ reference part

/-- The trait of all parts. -/
def Trait.any : Trait where
  leaf _ := True
  composite _ := True
  decorator _ := True
  reference _ := True
  leaf_reset _ := Iff.rfl
  composite_reset _ := Iff.rfl
  decorator_reset _ := Iff.rfl
  reference_letGo _ := Iff.rfl

/-- The trait of parts that are no references and all of whose callbacks have a property. -/
def Trait.standalone (X : ∀ α : Type, Callback α → Prop) : Trait where
  leaf part := part.Every X
  composite _ := True
  decorator part := part.Every X
  reference _ := False
  leaf_reset := Leaf.every_reset X
  composite_reset _ := Iff.rfl
  decorator_reset := Decorator.every_reset X
  reference_letGo _ := Iff.rfl

/-- A trait that follows from several traits together. -/
structure Trait.FollowsFrom (q : Trait) {κ : Type} (p : κ → Trait) : Prop where
  leaf : ∀ part, (∀ k, (p k).leaf part) → q.leaf part
  composite : ∀ part, (∀ k, (p k).composite part) → q.composite part
  decorator : ∀ part, (∀ k, (p k).decorator part) → q.decorator part
  reference : ∀ part, (∀ k, (p k).reference part) → q.reference part

namespace Node

/-- A tree all of whose parts have a trait. -/
inductive MadeOf (p : Trait) : Node → Prop
  | leaf {part : Leaf} (h : p.leaf part) : MadeOf p (.leaf part)
  | composite {part : Composite} {children : List Node} (hpart : p.composite part)
    (h : ∀ child ∈ children, MadeOf p child) : MadeOf p (.composite part children)
  | decorator {part : Decorator} {child : Option Node} (hpart : p.decorator part)
    (h : ∀ inner, child = some inner → MadeOf p inner) : MadeOf p (.decorator part child)
  | reference {part : Reference} (h : p.reference part) : MadeOf p (.reference part)
  | embedded {tag : Option Tag} {root : Node} (h : MadeOf p root) : MadeOf p (.embedded tag root)

/-- Every tree is made of parts. -/
theorem madeOf_any (n : Node) : n.MadeOf .any := by
  induction n with
  | leaf part => exact .leaf trivial
  | composite part children ih => exact .composite trivial ih
  | decorator part child ih => exact .decorator trivial ih
  | reference part => exact .reference trivial
  | embedded tag root ih => exact .embedded ih

/-- A tree whose parts have several traits is made of parts with a trait that follows from them. -/
theorem MadeOf.of_forall {κ : Type} {p : κ → Trait} {q : Trait} (hq : q.FollowsFrom p) {n : Node}
    (h : ∀ k, n.MadeOf (p k)) : n.MadeOf q := by
  induction n with
  | leaf part =>
    refine .leaf (hq.leaf part fun k => ?_)
    cases h k with
    | leaf hpart => exact hpart
  | composite part children ih =>
    refine .composite (hq.composite part fun k => ?_) fun child hchild => ?_
    · cases h k with
      | composite hpart _ => exact hpart
    · refine ih child hchild fun k => ?_
      cases h k with
      | composite _ hchildren => exact hchildren child hchild
  | decorator part child ih =>
    refine .decorator (hq.decorator part fun k => ?_) fun inner hinner => ?_
    · cases h k with
      | decorator hpart _ => exact hpart
    · refine ih inner hinner fun k => ?_
      cases h k with
      | decorator _ hinners => exact hinners inner hinner
  | reference part =>
    refine .reference (hq.reference part fun k => ?_)
    cases h k with
    | reference hpart => exact hpart
  | embedded tag root ih =>
    refine .embedded (ih fun k => ?_)
    cases h k with
    | embedded hroot => exact hroot

variable {p : Trait}

/-- A tree is made of certain parts exactly when its first state is. -/
theorem madeOf_cleared (n : Node) : n.cleared.MadeOf p ↔ n.MadeOf p := by
  induction n with
  | leaf part =>
    rw [cleared]
    constructor
    · intro h
      cases h with
      | leaf h => exact .leaf ((p.leaf_reset part).1 h)
    · intro h
      cases h with
      | leaf h => exact .leaf ((p.leaf_reset part).2 h)
  | composite part children ih =>
    rw [cleared, clearedChildren_eq]
    constructor
    · intro h
      cases h with
      | composite hpart h =>
        exact .composite ((p.composite_reset part).1 hpart) fun child hchild =>
          (ih child hchild).1 (h _ (List.mem_map_of_mem hchild))
    · intro h
      cases h with
      | composite hpart h =>
        refine .composite ((p.composite_reset part).2 hpart) fun child hchild => ?_
        rcases List.mem_map.1 hchild with ⟨old, hold, rfl⟩
        exact (ih old hold).2 (h old hold)
  | decorator part child ih =>
    rw [cleared, clearedChild_eq]
    constructor
    · intro h
      cases h with
      | decorator hpart h =>
        refine .decorator ((p.decorator_reset part).1 hpart) fun inner hinner => ?_
        subst hinner
        exact (ih inner rfl).1 (h _ rfl)
    · intro h
      cases h with
      | decorator hpart h =>
        refine .decorator ((p.decorator_reset part).2 hpart) fun inner hinner => ?_
        rcases Option.map_eq_some_iff.1 hinner with ⟨old, rfl, rfl⟩
        exact (ih old rfl).2 (h old rfl)
  | reference part =>
    rw [cleared]
    constructor
    · intro h
      cases h with
      | reference h => exact .reference ((p.reference_letGo part).1 h)
    · intro h
      cases h with
      | reference h => exact .reference ((p.reference_letGo part).2 h)
  | embedded tag root ih =>
    rw [cleared]
    constructor
    · intro h
      cases h with
      | embedded h => exact .embedded (ih.1 h)
    · intro h
      cases h with
      | embedded h => exact .embedded (ih.2 h)

/-- A node with the same first state is made of the same parts. -/
theorem MadeOf.of_cleared_eq {n m : Node} (h : n.MadeOf p) (hm : m.cleared = n.cleared) :
    m.MadeOf p := by
  rw [← madeOf_cleared, hm, madeOf_cleared]
  exact h

end Node

end TickTree
