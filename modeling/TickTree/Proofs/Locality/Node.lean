import TickTree.Proofs.Locality

/-!
# Work inside of a region

A node that keeps to a closed region does the same in two worlds that are the same inside, changes
nothing outside, and keeps to the region afterwards.  The induction on the node needs this of the
requests to trees inside; for the requests it is shown by induction on how deep they are nested.

Main results:

- Theorem `Reference.tick_within`: references find and ask trees inside only.
- Theorem `Node.perform_within`: nodes that keep to a region work alongside each other.
- Theorem `serve_within`: so do requests to trees inside.
-/

namespace TickTree

variable {region : Region} {v₀ w₀ v w : World} {s : Service}

/-- Requests to trees inside of a region are answered alike in worlds alongside each other. -/
def Service.Local (region : Region) (v₀ w₀ : World) (s : Service) : Prop :=
  ∀ operation tree, Cell.tree tree ∈ region →
    Service.AlikeTo (World.Alongside region v₀ w₀) s s (operation, tree)

/-! ## References -/

/-- What a supplier gives means the same tree on both sides, and the tree lies inside. -/
theorem Supply.Within.find {supply : Supply} (h : supply.Within region v₀.directory)
    (hw : World.Alongside region v₀ w₀ v w) :
    Coupled (World.Alongside region v₀ w₀) (s.find (some supply) v) (s.find (some supply) w) ∧
      ∀ tree, (s.find (some supply) v).1 = some tree → Cell.tree tree ∈ region := by
  cases supply with
  | existing tree =>
    have hinside := h.inside tree rfl
    have hsame := hw.inside.trees tree hinside
    refine ⟨⟨by simp only [Service.find, hsame], hw⟩, fun found hfound => ?_⟩
    rcases Option.map_eq_some_iff.1 hfound with ⟨_, -, rfl⟩
    exact hinside
  | named name =>
    have hnames : v.named? name = v₀.directory.find? name := by
      rw [World.named?, hw.names]
    have hsame : v.named? name = w.named? name := by
      rw [World.named?, World.named?, hw.inside.directory]
    exact ⟨⟨hsame, hw⟩, fun found hfound => h.inside found (hnames.symm.trans hfound)⟩
  | fresh plan => exact absurd rfl (h.old plan)

/-- A reference asks of its targets only. -/
theorem Reference.mem_tickRequests {r : Reference} {found : Option TreeId} {request : Request}
    (h : request ∈ r.tickRequests found) :
    request.2 ∈ r.held.toList ∨ found = some request.2 := by
  rcases r with ⟨kind, name, supplier, held⟩
  rcases request with ⟨asked, tree⟩
  cases found <;> cases kind <;> cases held <;> grind [tickRequests, release]

section

variable {r : Reference} (hr : (Trait.within region v₀.directory).reference r)
  (hheld : ∀ tree ∈ r.held.toList, Cell.tree tree ∈ region)
  (hw : World.Alongside region v₀ w₀ v w)
include hr hheld hw

/-- A reference finds the same tree on both sides, and the tree lies inside. -/
theorem Reference.resolve_within :
    Coupled (World.Alongside region v₀ w₀) (r.resolve s v) (r.resolve s w) ∧
      ∀ tree, (r.resolve s v).1 = some tree → Cell.tree tree ∈ region := by
  have hsupplied : ∀ {v w : World}, World.Alongside region v₀ w₀ v w →
      Coupled (World.Alongside region v₀ w₀)
          (s.find (r.supplier.get s v).1 (r.supplier.get s v).2)
          (s.find (r.supplier.get s w).1 (r.supplier.get s w).2) ∧
        ∀ tree, (s.find (r.supplier.get s v).1 (r.supplier.get s v).2).1 = some tree →
          Cell.tree tree ∈ region := by
    intro v w hw
    have hasked := Supplier.get_alike (s := s) (t := s) World.tracking_alongside
      (hr.1.mono Callback.alike_of_within) hw
    have hgives := r.supplier.gives_get s v
    rcases hasked with ⟨hsupply, hafter⟩
    rw [← hsupply]
    cases hvalue : (r.supplier.get s v).1 with
    | none => exact ⟨⟨rfl, hafter⟩, fun _ h => absurd h (Option.some_ne_none _).symm⟩
    | some supply =>
      rw [hvalue] at hgives
      exact (hr.2 supply hgives).find hafter
  unfold Reference.resolve
  split
  · cases r.kind with
    | sticky => exact hsupplied (World.tracking_alongside.report _ _ hw)
    | dynamic => exact hsupplied hw
  · exact ⟨⟨rfl, hw⟩, fun tree htree => hheld tree (Option.mem_toList.2 htree)⟩

/-- A reference gives the same status on both sides, and its next target lies inside. -/
theorem Reference.tick_within (hs : s.Local region v₀ w₀) :
    Ticked.Coupled Eq (World.Alongside region v₀ w₀) (r.tick s v) (r.tick s w) ∧
      ∀ tree ∈ (r.tick s v).state.held.toList, Cell.tree tree ∈ region := by
  rcases resolve_within (s := s) hr hheld hw with ⟨hresolved, hfound⟩
  refine ⟨tick_alike World.tracking_alongside hresolved fun request hrequest => ?_, ?_⟩
  · rw [← hresolved.1] at hrequest
    rcases mem_tickRequests hrequest with hold | hnew
    · exact hs request.1 request.2 (hheld _ hold)
    · exact hs request.1 request.2 (hfound _ hnew)
  · exact fun tree htree => hfound tree (Option.mem_toList.1 htree)

end

/-! ## Nodes -/

namespace Node

/-- The same node on both sides, which keeps to a region. -/
def BothWithin (region : Region) (names : Directory) (n m : Node) : Prop :=
  n = m ∧ n.Within region names

/-- The children of a composite that keeps to a region keep to it. -/
theorem Within.children {names : Directory} {part : Composite} {children : List Node}
    (h : (composite part children).Within region names) :
    ∀ child ∈ children, child.Within region names := by
  intro child hchild
  cases h.parts with
  | composite _ hchildren =>
    refine ⟨hchildren child hchild, fun tree htree => h.targets tree ?_⟩
    rw [Node.targets, targetsOfChildren_eq]
    exact List.mem_flatMap.2 ⟨child, hchild, htree⟩

/-- The child of a decorator that keeps to a region keeps to it. -/
theorem Within.child {names : Directory} {part : Decorator} {inner : Node}
    (h : (decorator part (some inner)).Within region names) : inner.Within region names := by
  cases h.parts with
  | decorator _ hchild => exact ⟨hchild inner rfl, h.targets⟩

/-- Children that are the same one by one are the same, and all of them keep to the region. -/
theorem BothWithin.all {names : Directory} {xs ys : List Node}
    (h : List.Forall₂ (BothWithin region names) xs ys) :
    xs = ys ∧ ∀ child ∈ xs, child.Within region names := by
  have hsame : xs = ys := by
    rw [← List.forall₂_eq_eq_eq]
    exact h.imp fun _ _ hchild => hchild.1
  subst hsame
  exact ⟨rfl, fun child hchild => (List.forall₂_same.1 h child hchild).2⟩

/-- The same child on both sides, if there is one, has all its targets in the region. -/
theorem BothWithin.child {names : Directory} {x y : Option Node}
    (h : Option.Rel (BothWithin region names) x y) :
    x = y ∧ ∀ tree ∈ targetsOfChild x, Cell.tree tree ∈ region := by
  cases h with
  | none => exact ⟨rfl, fun _ htree => absurd htree List.not_mem_nil⟩
  | some hinner => exact ⟨congrArg some hinner.1, hinner.2.targets⟩

section

variable (hs : s.Local region v₀ w₀) {n : Node} (hn : n.Within region v₀.directory)
include hs hn

/-- Operations other than ticks stay inside of a region. -/
theorem calm_within {operation : Operation} (h : operation ≠ .tick)
    (hw : World.Alongside region v₀ w₀ v w) :
    BothWithin region v₀.directory (n.perform s operation v).2.1 (n.perform s operation w).2.1 ∧
      World.Alongside region v₀ w₀ (n.perform s operation v).2.2
        (n.perform s operation w).2.2 := by
  refine ⟨⟨n.perform_eq_of_ne_tick s s h v w, hn.parts.perform s operation v, ?_⟩, ?_⟩
  · exact fun tree htree => hn.targets tree ((n.eased_perform s h v).mem_targets htree)
  · exact n.calm_coupled (fun _ _ _ _ hw => hw.of_outside rfl rfl) h
      (fun asked _ tree htree => hs asked tree (hn.targets tree htree)) hw

end

/-- Ticks stay inside of a region. -/
theorem tick_within (hs : s.Local region v₀ w₀) {n : Node} (hn : n.Within region v₀.directory)
    (hw : World.Alongside region v₀ w₀ v w) :
    Ticked.Coupled (BothWithin region v₀.directory) (World.Alongside region v₀ w₀) (n.tick s v)
      (n.tick s w) := by
  let S := BothWithin region v₀.directory
  let R := World.Alongside region v₀ w₀
  have hresets : ResetsAlike S R (reset s) (reset s) := by
    intro x y v w hxy hw
    rcases hxy with ⟨rfl, hx⟩
    exact calm_within hs hx (show Operation.reset ≠ .tick by decide) hw
  have hoffer : ∀ child : Node, child.Within region v₀.directory →
      (∀ {v w : World}, R v w → Ticked.Coupled S R (child.tick s v) (child.tick s w)) →
      Offer.Coupled S R ⟨child, fun w => child.tick s w⟩ ⟨child, fun w => child.tick s w⟩ :=
    fun child hchild htick => ⟨⟨rfl, hchild⟩, htick⟩
  -- What a node is made of does not change, so only its targets are to be looked at.
  have hkept : ∀ {n : Node} {v : World}, n.Within region v₀.directory →
      (∀ tree ∈ (n.tick s v).state.targets, Cell.tree tree ∈ region) →
      (n.tick s v).state.Within region v₀.directory :=
    fun hn htargets => ⟨hn.parts.perform s .tick _, htargets⟩
  induction n generalizing v w with
  | leaf part =>
    cases hn.parts with
    | leaf hpart =>
      have htick := part.tick_alike (s := s) (t := s) World.tracking_alongside
        (fun source hsource => World.drawsAlike_alongside (hpart.1 source hsource))
        (hpart.2.mono Callback.alike_of_within) hw
      have htargets : ∀ tree ∈ ((leaf part).tick s v).state.targets, Cell.tree tree ∈ region :=
        fun _ htree => absurd htree List.not_mem_nil
      exact ⟨htick.status, ⟨congrArg leaf htick.state, hkept hn htargets⟩, htick.world⟩
  | composite part children ih =>
    cases hn.parts with
    | composite hpart _ =>
      have hwithin := hn.children
      have hoffers : List.Forall₂ (Offer.Coupled S R) (offers s children) (offers s children) := by
        rw [offers_eq, List.forall₂_map_left_iff, List.forall₂_map_right_iff]
        exact List.forall₂_same.2 fun child hchild => hoffer child (hwithin child hchild)
          fun hw => ih child hchild (hwithin child hchild) hw
      have htick := part.tick_alike World.tracking_alongside hresets
        (fun source hsource => World.drawsAlike_alongside (hpart source hsource)) hoffers hw
      rcases htick.state with ⟨hleft, hstates⟩
      rcases BothWithin.all hstates with ⟨hsame, hchildren⟩
      refine ⟨htick.status, ⟨congrArg₂ composite hleft hsame, hkept hn ?_⟩, htick.world⟩
      simp only [tick, Ticked.map, targets, targetsOfChildren_eq, List.mem_flatMap]
      rintro tree ⟨child, hchild, htree⟩
      exact (hchildren child hchild).targets tree htree
  | decorator part child ih =>
    cases hn.parts with
    | decorator hpart _ =>
      have hoffers : Option.Rel (Offer.Coupled S R) (offer s child) (offer s child) := by
        cases child with
        | none =>
          simp only [offer]
          exact .none
        | some inner =>
          simp only [offer]
          exact .some (hoffer inner hn.child fun hw => ih inner rfl hn.child hw)
      have htick := part.tick_alike (s := s) (t := s) World.tracking_alongside hresets
        (fun x y hxy => congrArg name hxy.1)
        (fun source hsource => World.drawsAlike_alongside (hpart.1 source hsource))
        (hpart.2.mono Callback.alike_of_within) hoffers hw
      rcases htick.state with ⟨hleft, hstate⟩
      rcases BothWithin.child hstate with ⟨hchild, htargets⟩
      exact ⟨htick.status, ⟨congrArg₂ decorator hleft hchild, hkept hn htargets⟩, htick.world⟩
  | reference part =>
    cases hn.parts with
    | reference hpart =>
      rcases part.tick_within hpart hn.targets hw hs with ⟨htick, hheld⟩
      exact ⟨htick.status, ⟨congrArg reference htick.state, hkept hn hheld⟩, htick.world⟩
  | embedded tag root ih =>
    cases hn.parts with
    | embedded hroot =>
      have htick := ih ⟨hroot, hn.targets⟩ hw
      exact ⟨htick.status, ⟨congrArg (embedded tag) htick.state.1, hkept hn htick.state.2.targets⟩,
        htick.world⟩

/-- Whatever a node is asked to do, it stays inside of a region to which it keeps. -/
theorem perform_within (hs : s.Local region v₀ w₀) (operation : Operation) {n : Node}
    (hn : n.Within region v₀.directory) (hw : World.Alongside region v₀ w₀ v w) :
    (n.perform s operation v).1 = (n.perform s operation w).1 ∧
      BothWithin region v₀.directory (n.perform s operation v).2.1
        (n.perform s operation w).2.1 ∧
      World.Alongside region v₀ w₀ (n.perform s operation v).2.2
        (n.perform s operation w).2.2 := by
  by_cases h : operation = .tick
  · subst h
    have htick := tick_within hs hn hw
    exact ⟨congrArg Answer.ticked htick.status, htick.state, htick.world⟩
  · rw [fst_perform_of_ne_tick s h, fst_perform_of_ne_tick s h]
    exact ⟨rfl, calm_within hs hn h hw⟩

end Node

/-! ## Requests -/

/-- Requests to trees inside of a closed region stay inside. -/
theorem serve_within (plant : PlanId → World → Option TreeId × World) (depth : Nat)
    (region : Region) (v₀ w₀ : World) : (serve plant depth).Local region v₀ w₀ := by
  induction depth with
  | zero => exact fun _ _ _ _ _ hw => ⟨rfl, hw.of_outside rfl rfl⟩
  | succ depth ih =>
    intro operation tree htree v w hw
    have hused : Coupled (World.Alongside region v₀ w₀)
        (v.withTree tree (Node.perform (serve plant depth) operation))
        (w.withTree tree (Node.perform (serve plant depth) operation)) := by
      have hsame := hw.inside.trees tree htree
      apply World.withTree_coupled hsame hw (hw.of_outside rfl rfl)
      intro root hroot
      have hwithin := hw.root htree (hsame.trans hroot)
      rcases Node.perform_within ih operation hwithin (hw.holdTree htree hwithin) with
        ⟨hanswer, ⟨hleft, hkept⟩, hafter⟩
      rw [← hleft]
      exact ⟨hanswer, hafter.putTree htree hkept⟩
    rw [serve_ask, serve_ask, hused.1]
    exact ⟨rfl, hused.2⟩

end TickTree
