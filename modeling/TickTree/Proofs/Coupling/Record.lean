import TickTree.Node.Tick
import TickTree.Proofs.Coupling.Parent

/-!
# Children with records

A parent may work on children that keep a record of what is done to them.  Whatever the records are,
as long as the children themselves are ticked and reset as they would be without, the parent does
the same.

Main results:

- Theorem `Node.tick_recorded`: a composite does the same over children with records.
- Theorem `Node.tick_recorded_child`: a decorator does the same around a child with a record.
-/

namespace TickTree

namespace Node

variable {ρ : Type} (s : Service)

/-- A child with a record is ticked as it would be without. -/
structure RecordsTicks (o : Offer (Node × ρ)) (child : Node) : Prop where
  state : o.state.1 = child
  tick : ∀ w, (o.tick w).map Prod.fst = child.tick s w

/-- A child with a record is reset as it would be without. -/
def RecordsResets (reset : Node × ρ → World → (Node × ρ) × World) : Prop :=
  ∀ k w, ((reset k w).1.1, (reset k w).2) = k.1.reset s w

variable {s} {reset' : Node × ρ → World → (Node × ρ) × World}

/-- Children with records are coupled with the children themselves. -/
theorem RecordsTicks.coupled {o : Offer (Node × ρ)} {child : Node} (h : RecordsTicks s o child) :
    Offer.Coupled (fun (k : Node × ρ) m => k.1 = m) (World.Itself fun _ => True) o
      ⟨child, fun w => child.tick s w⟩ := by
  refine ⟨h.state, ?_⟩
  intro v w hw
  rcases hw with ⟨rfl, -⟩
  have htick := h.tick v
  exact ⟨congrArg Ticked.status htick, congrArg Ticked.state htick, congrArg Ticked.world htick,
    trivial⟩

/-- Resets of children with records are coupled with resets of the children themselves. -/
theorem RecordsResets.alike (h : RecordsResets s reset') :
    ResetsAlike (fun (k : Node × ρ) m => k.1 = m) (World.Itself fun _ => True) reset'
      (reset s) := by
  intro k m v w hk hw
  rcases hw with ⟨rfl, -⟩
  subst hk
  have hreset := h k v
  exact ⟨congrArg Prod.fst hreset, congrArg Prod.snd hreset, trivial⟩

/-- A composite does the same over children with records. -/
theorem tick_recorded (hreset : RecordsResets s reset') (part : Composite)
    {offers' : List (Offer (Node × ρ))} {children : List Node}
    (h : List.Forall₂ (RecordsTicks s) offers' children) (w : World) :
    ((part.tick reset' offers' w).map fun state => composite state.1 (state.2.map Prod.fst)) =
      (composite part children).tick s w := by
  have hoffers : List.Forall₂ (Offer.Coupled (fun (k : Node × ρ) m => k.1 = m)
      (World.Itself fun _ => True)) offers' (offers s children) := by
    rw [offers_eq, List.forall₂_map_right_iff]
    exact h.imp fun _ _ hchild => hchild.coupled
  have htick := part.tick_coupled World.coupling_itself.toSharing hreset.alike hoffers
    (w := w) ⟨rfl, trivial⟩
  simp only [tick]
  refine (htick.map (f := fun state => composite state.1 (state.2.map Prod.fst))
    (g := fun state => composite state.1 state.2) ?_).eq
  intro x y hxy
  rcases x with ⟨_, ks⟩
  rcases y with ⟨_, ms⟩
  rcases hxy with ⟨rfl, hstates⟩
  have hmap : ks.map Prod.fst = ms := by
    rw [← List.forall₂_eq_eq_eq, List.forall₂_map_left_iff]
    exact hstates
  exact congrArg (composite _) hmap

/-- A decorator does the same around a child with a record. -/
theorem tick_recorded_child (hreset : RecordsResets s reset') (part : Decorator)
    {offer' : Option (Offer (Node × ρ))} {child : Option Node}
    (h : Option.Rel (RecordsTicks s) offer' child) (w : World) :
    ((part.tick s reset' (fun k => k.1.name) offer' w).map fun state =>
        decorator state.1 (state.2.map Prod.fst)) =
      (decorator part child).tick s w := by
  have hoffer : Option.Rel (Offer.Coupled (fun (k : Node × ρ) m => k.1 = m)
      (World.Itself fun _ => True)) offer' (offer s child) := by
    cases h with
    | none =>
      simp only [offer]
      exact .none
    | some hchild =>
      simp only [offer]
      exact .some hchild.coupled
  have htick := part.tick_coupled World.coupling_itself s.alike_itself hreset.alike
    (fun _ _ h => congrArg name h) hoffer (w := w) ⟨rfl, trivial⟩
  simp only [tick]
  refine (htick.map (f := fun state => decorator state.1 (state.2.map Prod.fst))
    (g := fun state => decorator state.1 state.2) ?_).eq
  intro x y hxy
  rcases x with ⟨_, k⟩
  rcases y with ⟨_, m⟩
  rcases hxy with ⟨rfl, hstate⟩
  cases hstate with
  | none => rfl
  | some h => exact congrArg (fun inner => decorator _ (some inner)) h

end Node

end TickTree
