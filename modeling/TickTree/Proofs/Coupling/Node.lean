import TickTree.Proofs.Coupling.Parent
import TickTree.Proofs.Exchange
import TickTree.Proofs.Reset

/-!
# Coupled nodes

Whatever a node is asked to do, it does the same in coupled worlds: it gives the same answer, it is
left in the same state, and the worlds stay related.  The proof is one induction on the node; the
parents are covered by their own theorems.

The induction is more general in two ways.  The leaves of the second tree may be exchanged for
others that do alike; and nothing needs to be known but of the parts that the tree is made of.

Main results:

- Theorem `Node.tick_exchanged`: a tree gives the same status when its leaves are exchanged.
- Theorem `Node.tick_coupled`: a node gives the same status in coupled worlds.
- Theorem `Node.perform_coupled`: every operation gives the same answer in coupled worlds.
- Theorem `Node.perform_keeps`: a property that the service keeps is kept by every operation.
-/

namespace TickTree

variable {R : World → World → Prop} {s t : Service} {v w : World} {e : Exchange} {p : Trait}

/-! ## Parts on two sides -/

/-- Operations other than ticks leave a reference the same and the worlds related. -/
def Reference.Calm (R : World → World → Prop) (s t : Service) (r : Reference) : Prop :=
  ∀ operation, operation ≠ .tick → ∀ {v w : World}, R v w →
    Coupled R (r.perform s operation v) (r.perform t operation w)

/-- Operations other than ticks leave all references the same in coupled worlds. -/
theorem Reference.perform_coupled (hs : ∀ operation, operation ≠ .tick →
      Service.AlikeAt R s t operation) (r : Reference) : r.Calm R s t := by
  intro operation hoperation v w hw
  have hcalm : ∀ request ∈ r.requests operation, request.1 ≠ .tick := by
    rcases r with ⟨kind, name, supplier, held⟩
    cases operation <;> cases kind <;> cases held <;> simp [requests, release]
  have hsent := Service.send_coupled (r.requests operation)
    (fun request hrequest _ _ hw => hs request.1 (hcalm request hrequest) request.2 hw) .failure hw
  exact ⟨rfl, hsent.2⟩

/-- An observation is recorded on both sides. -/
theorem Leaf.observe_coupled {operation : Operation}
    (hobserve : ∀ (seat : Nat) (name : String) {v w : World}, R v w →
      R (v.emit (.observed seat name operation)) (w.emit (.observed seat name operation)))
    (part : Leaf) (hw : R v w) : R (part.observe operation v) (part.observe operation w) := by
  unfold Leaf.observe
  split
  · exact hobserve _ _ hw
  · exact hw

/-- The parts that have a trait do alike in related worlds when leaves are exchanged on the second
side. -/
structure Exchange.Alike (e : Exchange) (p : Trait) (R : World → World → Prop) (s t : Service) :
    Prop where
  leaf : ∀ {part : Leaf} {v w : World}, p.leaf part → R v w →
    Ticked.Coupled (fun x y => e.leaf x = y) R (part.tick s v) ((e.leaf part).tick t w)
  decorator : ∀ {part : Decorator}, p.decorator part → part.Every (Callback.Alike R s t)
  reference : ∀ {part : Reference} {v w : World}, p.reference part → R v w →
    Ticked.Coupled Eq R (part.tick s v) (part.tick t w)
  calm : ∀ {part : Reference}, p.reference part → part.Calm R s t

/-- Exchanged leaves do alike in related worlds whenever all requests are answered alike. -/
def Exchange.Faithful (e : Exchange) (R : World → World → Prop) : Prop :=
  ∀ (s t : Service), Service.Alike R s t → ∀ (part : Leaf) {v w : World}, R v w →
    Ticked.Coupled (fun x y => e.leaf x = y) R (part.tick s v) ((e.leaf part).tick t w)

/-- Leaves that are not exchanged do alike in coupled worlds. -/
theorem Exchange.same_faithful (hR : World.Coupling R) : Exchange.same.Faithful R :=
  fun _ _ hs part _ _ hw => part.tick_coupled hR hs hw

/-- All parts do alike in coupled worlds. -/
theorem Exchange.Faithful.alike (he : e.Faithful R) (hR : World.Coupling R)
    (hs : Service.Alike R s t) : e.Alike .any R s t where
  leaf _ hw := he s t hs _ hw
  decorator _ := Decorator.every_of_all (Callback.alike hR hs) _
  reference _ hw := Reference.tick_coupled hR hs _ hw
  calm _ := Reference.perform_coupled (fun operation _ => hs.ask operation) _

namespace Node

/-! ## Exchanged leaves -/

/-- The second tree is the first one with its leaves exchanged. -/
def Exchanged (e : Exchange) (n m : Node) : Prop := n.exchange e = m

/-- What is done to a tree and to the tree with its leaves exchanged leaves such trees again. -/
def ExchangedAfter (e : Exchange) (R : World → World → Prop) (x y : Node × World) : Prop :=
  x.1.Exchanged e y.1 ∧ R x.2 y.2

/-- A reset leaves related worlds when leaves are exchanged. -/
theorem reset_exchanged (hR : World.Sharing R)
    (hcalm : ∀ {part : Reference}, p.reference part → part.Calm R s t) {n : Node}
    (hn : n.MadeOf p) (hw : R v w) :
    ExchangedAfter e R (n.reset s v) ((n.exchange e).reset t w) := by
  have hnode : ((n.reset s v).1.exchange e) = ((n.exchange e).reset t w).1 := by
    rw [fst_reset, fst_reset, cleared_exchange]
  refine ⟨hnode, ?_⟩
  clear hnode
  induction n generalizing v w with
  | leaf part =>
    simp only [exchange, reset, e.observe]
    exact part.observe_coupled (fun _ _ _ _ hw => hR.emit _ hw) hw
  | composite part children ih =>
    cases hn with
    | composite hpart hchildren =>
      simp only [exchange, reset, exchangeChildren_eq, resetChildren_eq]
      clear hpart part
      induction children generalizing v w with
      | nil => exact hw
      | cons child rest ihrest =>
        exact ihrest (fun child h => ih child (List.mem_cons_of_mem _ h))
          (ih child List.mem_cons_self (hchildren child List.mem_cons_self) hw)
          fun child h => hchildren child (List.mem_cons_of_mem _ h)
  | decorator part child ih =>
    cases hn with
    | decorator _ hchild =>
      cases child with
      | none =>
        simp only [exchange, exchangeChild, reset, resetChild]
        exact hw
      | some inner =>
        simp only [exchange, exchangeChild, reset, resetChild]
        exact ih inner rfl (hchild inner rfl) hw
  | reference part =>
    cases hn with
    | reference hpart =>
      simp only [exchange, reset]
      exact (hcalm hpart .reset (by decide) hw).2
  | embedded tag root ih =>
    cases hn with
    | embedded hroot =>
      simp only [exchange, reset]
      exact ih hroot hw

/-- A start goes alike when leaves are exchanged. -/
theorem start_exchanged (hR : World.Sharing R)
    (hcalm : ∀ {part : Reference}, p.reference part → part.Calm R s t) {n : Node}
    (hn : n.MadeOf p) (hw : R v w) :
    ExchangedAfter e R (n.start s v) ((n.exchange e).start t w) := by
  have hnode : ((n.start s v).1.exchange e) = ((n.exchange e).start t w).1 := by
    rw [fst_start, fst_start]
  refine ⟨hnode, ?_⟩
  clear hnode
  induction hn with
  | @leaf part _ =>
    simp only [exchange, start, e.observe]
    exact part.observe_coupled (fun _ _ _ _ hw => hR.emit _ hw) hw
  | composite _ _ _ => exact hw
  | decorator _ _ _ => exact hw
  | reference hpart => exact (hcalm hpart .start (by decide) hw).2
  | embedded _ ih => exact ih

/-- A finish goes alike when leaves are exchanged. -/
theorem finish_exchanged (hR : World.Sharing R)
    (hcalm : ∀ {part : Reference}, p.reference part → part.Calm R s t) {n : Node}
    (hn : n.MadeOf p) (hw : R v w) :
    ExchangedAfter e R (n.finish s v) ((n.exchange e).finish t w) := by
  induction hn with
  | @leaf part _ =>
    refine ⟨rfl, ?_⟩
    simp only [exchange, finish, e.observe]
    exact part.observe_coupled (fun _ _ _ _ hw => hR.emit _ hw) hw
  | composite _ _ _ => exact ⟨rfl, hw⟩
  | decorator _ _ _ => exact ⟨rfl, hw⟩
  | reference hpart =>
    rcases hcalm hpart .finish (by decide) hw with ⟨hpart, hafter⟩
    exact ⟨congrArg Node.reference hpart, hafter⟩
  | @embedded tag _ _ ih => exact ⟨congrArg (embedded tag) ih.1, ih.2⟩

/-- A tree gives the same status when its leaves are exchanged for others that do alike. -/
theorem tick_exchanged (hR : World.Sharing R) (h : e.Alike p R s t) {n : Node} (hn : n.MadeOf p)
    (hw : R v w) :
    Ticked.Coupled (Exchanged e) R (n.tick s v) ((n.exchange e).tick t w) := by
  -- Children are made of the same parts in all of their states, so their resets are alike as well.
  let S : Node → Node → Prop := fun x y => x.MadeOf p ∧ x.Exchanged e y
  have hresets : ResetsAlike S R (reset s) (reset t) := by
    intro x y v w hxy hw
    rcases hxy with ⟨hx, rfl⟩
    rcases reset_exchanged (e := e) hR h.calm hx hw with ⟨hnode, hafter⟩
    exact ⟨⟨hx.perform s .reset v, hnode⟩, hafter⟩
  have hoffer : ∀ child : Node, child.MadeOf p →
      (∀ {v w : World}, R v w →
        Ticked.Coupled (Exchanged e) R (child.tick s v) ((child.exchange e).tick t w)) →
      Offer.Coupled S R ⟨child, fun w => child.tick s w⟩
        ⟨child.exchange e, fun w => (child.exchange e).tick t w⟩ := by
    refine fun child hchild htick => ⟨⟨hchild, rfl⟩, fun {v w} hw => ?_⟩
    have htick := htick hw
    exact ⟨htick.status, ⟨hchild.perform s .tick v, htick.state⟩, htick.world⟩
  induction n generalizing v w with
  | leaf part =>
    cases hn with
    | leaf hpart =>
      simp only [exchange, tick]
      exact (h.leaf hpart hw).map fun hstate => congrArg leaf hstate
  | composite part children ih =>
    cases hn with
    | composite _ hchildren =>
      have hoffers : List.Forall₂ (Offer.Coupled S R) (offers s children)
          (offers t (children.map (exchange e))) := by
        rw [offers_eq, offers_eq, List.map_map, List.forall₂_map_left_iff,
          List.forall₂_map_right_iff]
        exact List.forall₂_same.2 fun child hchild => hoffer child (hchildren child hchild)
          fun hw => ih child hchild (hchildren child hchild) hw
      simp only [exchange, exchangeChildren_eq, tick]
      apply (part.tick_coupled hR hresets hoffers hw).map
      intro x y hxy
      rcases x with ⟨_, xs⟩
      rcases y with ⟨_, ys⟩
      rcases hxy with ⟨rfl, hstates⟩
      have hmap : xs.map (exchange e) = ys := by
        rw [← List.forall₂_eq_eq_eq, List.forall₂_map_left_iff]
        exact hstates.imp fun _ _ hstate => hstate.2
      simp only [Exchanged, exchange, exchangeChildren_eq, hmap]
  | decorator part child ih =>
    cases hn with
    | decorator hpart hchild =>
      have hoffers : Option.Rel (Offer.Coupled S R) (offer s child)
          (offer t (exchangeChild e child)) := by
        cases child with
        | none =>
          simp only [offer, exchangeChild]
          exact .none
        | some inner =>
          simp only [offer, exchangeChild]
          exact .some (hoffer inner (hchild inner rfl) fun hw => ih inner rfl (hchild inner rfl) hw)
      have hname : ∀ x y, S x y → x.name = y.name := by
        intro x y hxy
        rw [← hxy.2, name_exchange]
      simp only [exchange, tick]
      apply (part.tick_alike hR.toTracking hresets hname (fun source _ => hR.drawsAlike source)
        (h.decorator hpart) hoffers hw).map
      intro x y hxy
      rcases x with ⟨_, x⟩
      rcases y with ⟨_, y⟩
      rcases hxy with ⟨rfl, hstate⟩
      cases hstate with
      | none => rfl
      | some hstate => simp only [Exchanged, exchange, exchangeChild, show _ = _ from hstate.2]
  | reference part =>
    cases hn with
    | reference hpart =>
      simp only [exchange, tick]
      exact (h.reference hpart hw).map fun hstate => congrArg reference hstate
  | embedded tag root ih =>
    cases hn with
    | embedded hroot =>
      simp only [exchange, tick]
      exact (ih hroot hw).map fun hstate => congrArg (embedded tag) hstate

/-- Every operation gives the same answer when leaves are exchanged. -/
theorem perform_exchanged (hR : World.Sharing R) (h : e.Alike p R s t) (operation : Operation)
    {n : Node} (hn : n.MadeOf p) (hw : R v w) :
    (n.perform s operation v).1 = ((n.exchange e).perform t operation w).1 ∧
      ExchangedAfter e R (n.perform s operation v).2 ((n.exchange e).perform t operation w).2 := by
  cases operation with
  | tick =>
    have htick := tick_exchanged hR h hn hw
    exact ⟨congrArg Answer.ticked htick.status, htick.state, htick.world⟩
  | reset => exact ⟨rfl, reset_exchanged hR h.calm hn hw⟩
  | start => exact ⟨rfl, start_exchanged hR h.calm hn hw⟩
  | finish => exact ⟨rfl, finish_exchanged hR h.calm hn hw⟩

/-- What is left when no leaf is exchanged is the same. -/
theorem ExchangedAfter.coupled {x y : Node × World} (h : ExchangedAfter .same R x y) :
    Coupled R x y := by
  rcases h with ⟨hnode, hworld⟩
  rw [Exchanged, exchange_same] at hnode
  exact ⟨hnode, hworld⟩

/-! ## Coupled worlds -/

/-- A reset leaves related worlds.  Only requests other than ticks need to be answered alike. -/
theorem reset_coupled (hR : World.Coupling R)
    (hs : ∀ operation, operation ≠ .tick → Service.AlikeAt R s t operation) (n : Node)
    (hw : R v w) : Coupled R (n.reset s v) (n.reset t w) := by
  have hreset := reset_exchanged (e := .same) hR.toSharing
    (fun _ => Reference.perform_coupled hs _) n.madeOf_any hw
  rw [exchange_same] at hreset
  exact hreset.coupled

/-- A node starts alike in coupled worlds. -/
theorem start_coupled (hR : World.Coupling R)
    (hs : ∀ operation, operation ≠ .tick → Service.AlikeAt R s t operation) (n : Node)
    (hw : R v w) : Coupled R (n.start s v) (n.start t w) := by
  have hstart := start_exchanged (e := .same) hR.toSharing
    (fun _ => Reference.perform_coupled hs _) n.madeOf_any hw
  rw [exchange_same] at hstart
  exact hstart.coupled

/-- A node finishes alike in coupled worlds. -/
theorem finish_coupled (hR : World.Coupling R)
    (hs : ∀ operation, operation ≠ .tick → Service.AlikeAt R s t operation) (n : Node)
    (hw : R v w) : Coupled R (n.finish s v) (n.finish t w) := by
  have hfinish := finish_exchanged (e := .same) hR.toSharing
    (fun _ => Reference.perform_coupled hs _) n.madeOf_any hw
  rw [exchange_same] at hfinish
  exact hfinish.coupled

/-- A node gives the same status in coupled worlds. -/
theorem tick_coupled (hR : World.Coupling R) (hs : Service.Alike R s t) (n : Node)
    (hw : R v w) : Ticked.Coupled Eq R (n.tick s v) (n.tick t w) := by
  have halike := (Exchange.same_faithful hR).alike hR hs
  have htick := tick_exchanged hR.toSharing halike n.madeOf_any hw
  rw [exchange_same] at htick
  exact ⟨htick.status, (exchange_same _).symm.trans htick.state, htick.world⟩

/-- An operation other than a tick gives the same answer in coupled worlds, even when ticks of
shared trees are answered differently. -/
theorem perform_coupled_of_ne_tick (hR : World.Coupling R)
    (hs : ∀ operation, operation ≠ .tick → Service.AlikeAt R s t operation)
    {operation : Operation} (h : operation ≠ .tick) (n : Node) (hw : R v w) :
    (n.perform s operation v).1 = (n.perform t operation w).1 ∧
      Coupled R (n.perform s operation v).2 (n.perform t operation w).2 := by
  cases operation with
  | tick => exact absurd rfl h
  | reset => exact ⟨rfl, n.reset_coupled hR hs hw⟩
  | start => exact ⟨rfl, n.start_coupled hR hs hw⟩
  | finish => exact ⟨rfl, n.finish_coupled hR hs hw⟩

/-- Every operation gives the same answer in coupled worlds. -/
theorem perform_coupled (hR : World.Coupling R) (hs : Service.Alike R s t)
    (operation : Operation) (n : Node) (hw : R v w) :
    (n.perform s operation v).1 = (n.perform t operation w).1 ∧
      Coupled R (n.perform s operation v).2 (n.perform t operation w).2 := by
  have halike := (Exchange.same_faithful hR).alike hR hs
  have hperformed := perform_exchanged hR.toSharing halike operation n.madeOf_any hw
  rw [exchange_same] at hperformed
  exact ⟨hperformed.1, hperformed.2.coupled⟩

/-- A property that the service keeps is kept by every operation. -/
theorem perform_keeps {P : World → Prop} (hP : World.Invariant P) (hs : s.Keeps P)
    (operation : Operation) (n : Node) (hw : P w) : P (n.perform s operation w).2.2 :=
  (n.perform_coupled hP.coupling hs.coupled operation ⟨rfl, hw⟩).2.2.2

/-- A property that the service keeps at all operations but ticks is kept by them. -/
theorem perform_keeps_of_ne_tick {P : World → Prop} (hP : World.Invariant P)
    (hs : ∀ operation, operation ≠ .tick → s.KeepsAt P operation) {operation : Operation}
    (h : operation ≠ .tick) (n : Node) (hw : P w) : P (n.perform s operation w).2.2 :=
  (n.perform_coupled_of_ne_tick hP.coupling (fun operation h => (hs operation h).alikeAt) h
    ⟨rfl, hw⟩).2.2.2

end Node

end TickTree
