import TickTree.Proofs.Coupling.Node
import TickTree.Proofs.Exchange.Plan

/-!
# Coupled plans

Carrying out a plan takes more from a world than the work of a node does: it hands out numbers, lets
nodes loose, and adds shared trees.  A relation that is kept by these steps as well is kept by every
plan, and the same nodes are made on both sides.  When the leaves of the second plan are exchanged,
so are those of the nodes that it makes.

Main results:

- Theorem `World.Growth.growing`: an invariant of growth couples a world with itself.
- Theorem `TreePlan.grow_exchanged`: a plan with exchanged leaves makes the exchanged tree.
- Theorem `plantFrom_coupled`: coupled worlds get the same new shared tree.
- Theorem `plantFrom_keeps`: planting keeps every invariant of growth.
-/

namespace TickTree

/-! ## Relations that plans keep -/

/-- Lets nodes loose. -/
def World.letLoose (nodes : List Node) (w : World) : World := { w with loose := nodes ++ w.loose }

/-- A coupling that is kept by whatever carrying out a plan does to a world. -/
structure World.Growing (R : World → World → Prop) : Prop extends World.Coupling R where
  issue : ∀ {v w : World} (count : Nat), R v w → Coupled R (v.issue count) (w.issue count)
  letLoose : ∀ {v w : World} (nodes : List Node), R v w → R (v.letLoose nodes) (w.letLoose nodes)
  addTree : ∀ {v w : World} (root : Node), R v w → Coupled R (v.addTree root) (w.addTree root)

/-- A coupling that is kept by whatever carrying out a plan does to a world, when the leaves of the
nodes on the second side are exchanged. -/
structure World.GrowingBy (e : Exchange) (R : World → World → Prop) : Prop
    extends World.Coupling R where
  issue : ∀ {v w : World} (count : Nat), R v w → Coupled R (v.issue count) (w.issue count)
  letLoose : ∀ {v w : World} (nodes : List Node), R v w →
    R (v.letLoose nodes) (w.letLoose (nodes.map (Node.exchange e)))
  addTree : ∀ {v w : World} (root : Node), R v w →
    Coupled R (v.addTree root) (w.addTree (root.exchange e))

/-- A relation that is kept by whatever carrying out a plan does to a world, when the leaves of the
nodes on the second side are exchanged.  No callback is called and nothing is drawn for a plan. -/
structure World.PlantingBy (e : Exchange) (R : World → World → Prop) : Prop where
  report : ∀ {v w : World} (level : Level) (message : String), R v w →
    R (v.report level message) (w.report level message)
  configured : ∀ {v w : World} (spread : Float) (now : Duration), R v w →
    R (v.emit (.configured spread now)) (w.emit (.configured spread now))
  fail : ∀ {v w : World} (fault : Fault), R v w → R (v.fail fault) (w.fail fault)
  now : ∀ {v w : World} (clock : ClockId), R v w → v.now clock = w.now clock
  named : ∀ {v w : World} (name : String), R v w → v.named? name = w.named? name
  issue : ∀ {v w : World} (count : Nat), R v w → Coupled R (v.issue count) (w.issue count)
  letLoose : ∀ {v w : World} (nodes : List Node), R v w →
    R (v.letLoose nodes) (w.letLoose (nodes.map (Node.exchange e)))
  addTree : ∀ {v w : World} (root : Node), R v w →
    Coupled R (v.addTree root) (w.addTree (root.exchange e))

/-- A coupling that plans keep is kept by what carrying out a plan does. -/
theorem World.GrowingBy.planting {e : Exchange} {R : World → World → Prop}
    (hR : World.GrowingBy e R) : World.PlantingBy e R where
  report level message hw := hR.report level message hw
  configured _ _ hw := hR.emit _ hw
  fail := hR.fail
  now := hR.now
  named := hR.named
  issue := hR.issue
  letLoose := hR.letLoose
  addTree := hR.addTree

/-- Where no leaf is exchanged, the same nodes are let loose and added. -/
theorem World.Growing.bySame {R : World → World → Prop} (hR : World.Growing R) :
    World.GrowingBy .same R where
  toCoupling := hR.toCoupling
  issue := hR.issue
  letLoose nodes hw := by
    rw [List.map_congr_left fun n _ => n.exchange_same, List.map_id']
    exact hR.letLoose nodes hw
  addTree root hw := by
    rw [Node.exchange_same]
    exact hR.addTree root hw

/-- An invariant that is kept by whatever carrying out a plan does to a world. -/
structure World.Growth (P : World → Prop) : Prop extends World.Invariant P where
  issue : ∀ {w : World} (count : Nat), P w → P (w.issue count).2
  letLoose : ∀ {w : World} (nodes : List Node), P w → P (w.letLoose nodes)
  addTree : ∀ {w : World} (root : Node), P w → P (w.addTree root).2

/-- An invariant of growth couples a world with itself. -/
theorem World.Growth.growing {P : World → Prop} (h : World.Growth P) :
    World.Growing (World.Itself P) where
  toCoupling := h.toInvariant.coupling
  issue count hw := hw.coupled (h.issue count)
  letLoose nodes hw := hw.step (h.letLoose nodes)
  addTree root hw := hw.coupled (h.addTree root)

/-- A property of worlds that is kept by whatever carrying out a plan does. -/
structure World.Planting (P : World → Prop) : Prop where
  report : ∀ {w : World} (level : Level) (message : String), P w → P (w.report level message)
  configured : ∀ {w : World} (spread : Float) (now : Duration), P w →
    P (w.emit (.configured spread now))
  fail : ∀ {w : World} (fault : Fault), P w → P (w.fail fault)
  issue : ∀ {w : World} (count : Nat), P w → P (w.issue count).2
  letLoose : ∀ {w : World} (nodes : List Node), P w → P (w.letLoose nodes)
  addTree : ∀ {w : World} (root : Node), P w → P (w.addTree root).2

/-- A property that plans keep couples a world with itself. -/
theorem World.Planting.bySame {P : World → Prop} (h : World.Planting P) :
    World.PlantingBy .same (World.Itself P) where
  report level message hw := hw.step (h.report level message)
  configured spread now hw := hw.step (h.configured spread now)
  fail fault hw := hw.step (h.fail fault)
  now clock hw := hw.eq fun u => u.now clock
  named name hw := hw.eq fun u => u.named? name
  issue count hw := hw.coupled (h.issue count)
  letLoose nodes hw := by
    rw [List.map_congr_left fun n _ => n.exchange_same, List.map_id']
    exact hw.step (h.letLoose nodes)
  addTree root hw := by
    rw [Node.exchange_same]
    exact hw.coupled (h.addTree root)

/-- An invariant of growth is kept by what carrying out a plan does. -/
theorem World.Growth.planting {P : World → Prop} (h : World.Growth P) : World.Planting P where
  report _ _ hw := h.emit _ hw
  configured _ _ hw := h.emit _ hw
  fail := h.fail
  issue := h.issue
  letLoose := h.letLoose
  addTree := h.addTree

/-- What is said of the shared trees alone is an invariant of growth when new trees keep it. -/
theorem World.Growth.ofTrees {P : World → Prop}
    (h : ∀ {v w : World}, w.trees = v.trees → P v → P w)
    (hadd : ∀ {w : World} (root : Node), P w → P (w.addTree root).2) : World.Growth P where
  toInvariant := World.Invariant.ofTrees h
  issue _ hw := h (by rfl) hw
  letLoose _ hw := h (by rfl) hw
  addTree := hadd

section

variable {e : Exchange} {R : World → World → Prop} {v w : World}

/-! ## New parts -/

/-- Two results have related worlds, and the value of the second is a function of that of the
first. -/
def CoupledBy {α β : Type} (f : α → β) (R : World → World → Prop) (x : α × World) (y : β × World) :
    Prop :=
  f x.1 = y.1 ∧ R x.2 y.2

/-- Coupled results are a value and its image, with two related worlds. -/
theorem CoupledBy.split {α β : Type} {f : α → β} {x : α × World} {y : β × World}
    (h : CoupledBy f R x y) : ∃ a v w, x = (a, v) ∧ y = (f a, w) ∧ R v w := by
  rcases x with ⟨a, v⟩
  rcases y with ⟨b, w⟩
  rcases h with ⟨hvalue, hworld⟩
  have himage : f a = b := hvalue
  exact ⟨a, v, w, rfl, by rw [himage], hworld⟩

/-- What is made of a plan on the two sides. -/
abbrev MadeBy {α : Type} (f : α → α) (R : World → World → Prop)
    (x y : Except BuildError α × World) : Prop :=
  CoupledBy (Except.map f) R x y

/-- A new leaf is exchanged on the second side. -/
theorem Leaf.seated_exchanged (hR : World.PlantingBy e R) (part : Leaf) (hw : R v w) :
    CoupledBy e.leaf R (part.seated v) ((e.leaf part).seated w) := by
  rcases hR.issue 2 hw with ⟨hnumber, hafter⟩
  refine ⟨?_, hafter⟩
  show e.leaf (part.atSeat v.issued) = (e.leaf part).atSeat w.issued
  rw [e.atSeat, show v.issued = w.issued from hnumber]

/-- A new decorator is the same on both sides. -/
theorem Decorator.seated_coupled (hR : World.PlantingBy e R) (part : Decorator) (hw : R v w) :
    Coupled R (part.seated v) (part.seated w) := by
  rcases hR.issue 1 hw with ⟨hnumber, hafter⟩
  exact ⟨congrArg part.atSeat hnumber, hafter⟩

/-- A new reference is the same on both sides. -/
theorem Reference.seated_coupled (hR : World.PlantingBy e R) (part : Reference) (hw : R v w) :
    Coupled R (part.seated v) (part.seated w) := by
  rcases hR.issue 1 hw with ⟨hnumber, hafter⟩
  exact ⟨congrArg part.atSeat hnumber, hafter⟩

/-- A link leads to the same tree on both sides. -/
theorem linked_coupled (hR : World.PlantingBy e R) (name tree : String) (hw : R v w) :
    linked name tree v = linked name tree w := by
  unfold linked
  rw [hR.named tree hw]

/-- The outcome of labelling counts as a node that was made; it gets the same label on both
sides. -/
theorem made_exchanged (hR : World.PlantingBy e R) (label : Option String) (node : Node)
    (hw : R v w) :
    MadeBy (Node.exchange e) R (.ok (tagged label node v).1, (tagged label node v).2)
      (.ok (tagged label (node.exchange e) w).1, (tagged label (node.exchange e) w).2) := by
  cases label with
  | none => exact ⟨rfl, hw⟩
  | some label =>
    rcases hR.issue 1 hw with ⟨hnumber, hafter⟩
    refine ⟨?_, hafter⟩
    simp only [tagged, Except.map, Node.exchange, hnumber]

/-- The outcome of a call counts as a step that was taken; a misuse is logged on both sides. -/
theorem Builder.called_exchanged (hR : World.PlantingBy e R) (b : Builder) (call : Builder.Call)
    (hw : R v w) :
    MadeBy (Builder.exchange e) R (.ok (b.call call v).1, (b.call call v).2)
      (.ok ((b.exchange e).call (call.exchange e) w).1,
        ((b.exchange e).call (call.exchange e) w).2) := by
  unfold Builder.call
  rw [complaint_exchange, step_exchange]
  cases b.complaint call with
  | none => exact ⟨rfl, hw⟩
  | some error => exact ⟨rfl, hR.report _ _ hw⟩

/-- A builder gives the exchanged tree on the second side. -/
theorem Builder.finish_exchanged (hR : World.PlantingBy e R) (b : Builder) (hw : R v w) :
    MadeBy (Node.exchange e) R (b.finish v) ((b.exchange e).finish w) := by
  unfold Builder.finish
  rw [build_exchange, leftovers_exchange]
  cases b.build with
  | ok root => exact ⟨rfl, hw⟩
  | error error => exact ⟨rfl, hR.letLoose b.leftovers hw⟩

end

/-! ## Plans -/

section

variable {e : Exchange} {R : World → World → Prop}

mutual

/-- A plan with exchanged leaves makes the exchanged node. -/
theorem NodePlan.grow_exchanged (hR : World.PlantingBy e R) :
    ∀ (plan : NodePlan) {v w : World}, R v w →
      MadeBy (Node.exchange e) R (NodePlan.grow plan v) (NodePlan.grow (plan.exchange e) w)
  | .leaf label part, v, w, hw => by
    rcases part.seated_exchanged hR hw with ⟨hpart, hseated⟩
    simp only [NodePlan.exchange, NodePlan.grow, ← hpart]
    exact made_exchanged hR label _ hseated
  | .composite label part children, v, w, hw => by
    have hgrown := NodePlan.growAll_exchanged hR children hw
    rcases hgrown.split with ⟨made, v', w', hv, hu, hafter⟩
    simp only [NodePlan.exchange, NodePlan.grow, hv, hu]
    cases made with
    | error error => exact ⟨rfl, hafter⟩
    | ok children =>
      have hmade := made_exchanged hR label (.composite part children) hafter
      rwa [Node.exchange, Node.exchangeChildren_eq] at hmade
  | .decorator label part child, v, w, hw => by
    have hgrown := NodePlan.growChild_exchanged hR child hw
    rcases hgrown.split with ⟨made, v', w', hv, hu, hafter⟩
    simp only [NodePlan.exchange, NodePlan.grow, hv, hu]
    cases made with
    | error error => exact ⟨rfl, hafter⟩
    | ok child =>
      rcases part.seated_coupled hR hafter with ⟨hpart, hseated⟩
      have hmade := made_exchanged hR label (.decorator (part.seated v').1 child) hseated
      rw [Node.exchange, Node.exchangeChild_eq, hpart] at hmade
      simp only [Except.map, hpart]
      exact hmade
  | .reference label part, v, w, hw => by
    rcases part.seated_coupled hR hw with ⟨hpart, hseated⟩
    simp only [NodePlan.exchange, NodePlan.grow, hpart]
    exact made_exchanged hR label (.reference _) hseated
  | .link label name tree, v, w, hw => by
    simp only [NodePlan.exchange, NodePlan.grow, linked_coupled hR name tree hw]
    exact made_exchanged hR label (.reference _) hw
  | .tree label tree, v, w, hw => by
    have hgrown := TreePlan.grow_exchanged hR tree hw
    rcases hgrown.split with ⟨made, v', w', hv, hu, hafter⟩
    simp only [NodePlan.exchange, NodePlan.grow, hv, hu]
    cases made with
    | error error => exact ⟨rfl, hafter⟩
    | ok root => exact made_exchanged hR label (.embedded none root) hafter
  | .broken under fault, v, w, hw => by
    have hgrown := NodePlan.growAll_exchanged hR under hw
    rcases hgrown.split with ⟨made, v', w', hv, hu, hafter⟩
    simp only [NodePlan.exchange, NodePlan.grow, hv, hu]
    cases made with
    | error error => exact ⟨rfl, hafter⟩
    | ok nodes => exact ⟨rfl, hR.fail fault hafter⟩

/-- Plans with exchanged leaves make the exchanged nodes. -/
theorem NodePlan.growAll_exchanged (hR : World.PlantingBy e R) :
    ∀ (plans : List NodePlan) {v w : World}, R v w →
      MadeBy (List.map (Node.exchange e)) R (NodePlan.growAll plans v)
        (NodePlan.growAll (NodePlan.exchangeAll e plans) w)
  | [], v, w, hw => by
    simp only [NodePlan.exchangeAll, NodePlan.growAll]
    exact ⟨rfl, hw⟩
  | plan :: rest, v, w, hw => by
    have hgrown := NodePlan.grow_exchanged hR plan hw
    rcases hgrown.split with ⟨made, v', w', hv, hu, hafter⟩
    simp only [NodePlan.exchangeAll, NodePlan.growAll, hv, hu]
    cases made with
    | error error => exact ⟨rfl, hafter⟩
    | ok node =>
      have hothers := NodePlan.growAll_exchanged hR rest hafter
      rcases hothers.split with ⟨others, v'', w'', hv', hu', hlast⟩
      simp only [Except.map, hv', hu']
      cases others with
      | error error => exact ⟨rfl, hlast⟩
      | ok nodes => exact ⟨rfl, hlast⟩

/-- The plan of a child with exchanged leaves makes the exchanged child. -/
theorem NodePlan.growChild_exchanged (hR : World.PlantingBy e R) :
    ∀ (plan : Option NodePlan) {v w : World}, R v w →
      MadeBy (Option.map (Node.exchange e)) R (NodePlan.growChild plan v)
        (NodePlan.growChild (NodePlan.exchangeChild e plan) w)
  | none, v, w, hw => by
    simp only [NodePlan.exchangeChild, NodePlan.growChild]
    exact ⟨rfl, hw⟩
  | some plan, v, w, hw => by
    have hgrown := NodePlan.grow_exchanged hR plan hw
    rcases hgrown.split with ⟨made, v', w', hv, hu, hafter⟩
    simp only [NodePlan.exchangeChild, NodePlan.growChild, hv, hu]
    cases made with
    | error error => exact ⟨rfl, hafter⟩
    | ok node => exact ⟨rfl, hafter⟩

/-- A plan with exchanged leaves makes the exchanged tree. -/
theorem TreePlan.grow_exchanged (hR : World.PlantingBy e R) :
    ∀ (plan : TreePlan) {v w : World}, R v w →
      MadeBy (Node.exchange e) R (TreePlan.grow plan v) (TreePlan.grow (plan.exchange e) w)
  | .root root, v, w, hw => by
    simp only [TreePlan.exchange, TreePlan.grow]
    exact NodePlan.grow_exchanged hR root hw
  | .rootOf tree, v, w, hw => by
    simp only [TreePlan.exchange, TreePlan.grow]
    exact TreePlan.grow_exchanged hR tree hw
  | .build steps, v, w, hw => by
    have hperformed := PlanStep.performAll_exchanged hR steps (Builder.new .standard) hw
    rcases hperformed.split with ⟨made, v', w', hv, hu, hafter⟩
    have hnew : (Builder.new .standard).exchange e = Builder.new .standard := rfl
    rw [hnew] at hu
    simp only [TreePlan.exchange, TreePlan.grow, hv, hu]
    cases made with
    | error error => exact ⟨rfl, hafter⟩
    | ok b => exact b.finish_exchanged hR hafter

/-- A step of building with exchanged leaves keeps the builder exchanged. -/
theorem PlanStep.perform_exchanged (hR : World.PlantingBy e R) :
    ∀ (step : PlanStep) (b : Builder) {v w : World}, R v w →
      MadeBy (Builder.exchange e) R (PlanStep.perform step b v)
        (PlanStep.perform (step.exchange e) (b.exchange e) w)
  | .configure config, b, v, w, hw => by
    simp only [PlanStep.exchange, PlanStep.perform]
    exact b.called_exchanged hR (.configure config) hw
  | .peek, b, v, w, hw => by
    simp only [PlanStep.exchange, PlanStep.perform, hR.now b.config.clock hw]
    exact ⟨rfl, hR.configured _ _ hw⟩
  | .scope part, b, v, w, hw => by
    simp only [PlanStep.exchange, PlanStep.perform]
    exact b.called_exchanged hR (.scope part) hw
  | .composite part children, b, v, w, hw => by
    have hgrown := NodePlan.growAll_exchanged hR children hw
    rcases hgrown.split with ⟨made, v', w', hv, hu, hafter⟩
    simp only [PlanStep.exchange, PlanStep.perform, hv, hu]
    cases made with
    | error error => exact ⟨rfl, hafter⟩
    | ok children => exact b.called_exchanged hR (.composite part children) hafter
  | .close, b, v, w, hw => by
    simp only [PlanStep.exchange, PlanStep.perform]
    exact b.called_exchanged hR .close hw
  | .wrap part, b, v, w, hw => by
    rcases part.seated_coupled hR hw with ⟨hpart, hseated⟩
    simp only [PlanStep.exchange, PlanStep.perform, hpart]
    exact b.called_exchanged hR (.wrap _) hseated
  | .decorator part child, b, v, w, hw => by
    have hgrown := NodePlan.growChild_exchanged hR child hw
    rcases hgrown.split with ⟨made, v', w', hv, hu, hafter⟩
    simp only [PlanStep.exchange, PlanStep.perform, hv, hu]
    cases made with
    | error error => exact ⟨rfl, hafter⟩
    | ok child =>
      have hloose := hR.letLoose child.toList hafter
      have hchild : child.toList.map (Node.exchange e) = (child.map (Node.exchange e)).toList := by
        cases child <;> rfl
      rw [hchild] at hloose
      rcases part.seated_coupled hR hloose with ⟨hpart, hseated⟩
      simp only [World.letLoose] at hpart hseated
      simp only [Except.map, hpart]
      exact b.called_exchanged hR (.decorator _) hseated
  | .leaf part, b, v, w, hw => by
    rcases part.seated_exchanged hR hw with ⟨hpart, hseated⟩
    simp only [PlanStep.exchange, PlanStep.perform, ← hpart]
    exact b.called_exchanged hR (.leaf _) hseated
  | .reference part, b, v, w, hw => by
    rcases part.seated_coupled hR hw with ⟨hpart, hseated⟩
    simp only [PlanStep.exchange, PlanStep.perform, hpart]
    exact b.called_exchanged hR (.node (.reference _)) hseated
  | .link name tree, b, v, w, hw => by
    simp only [PlanStep.exchange, PlanStep.perform, linked_coupled hR name tree hw]
    exact b.called_exchanged hR (.node (.reference _)) hw
  | .node plan, b, v, w, hw => by
    have hgrown := NodePlan.grow_exchanged hR plan hw
    rcases hgrown.split with ⟨made, v', w', hv, hu, hafter⟩
    simp only [PlanStep.exchange, PlanStep.perform, hv, hu]
    cases made with
    | error error => exact ⟨rfl, hafter⟩
    | ok node => exact b.called_exchanged hR (.node node) hafter
  | .ownTree name tree, b, v, w, hw => by
    have hgrown := TreePlan.grow_exchanged hR tree hw
    rcases hgrown.split with ⟨made, v', w', hv, hu, hafter⟩
    simp only [PlanStep.exchange, PlanStep.perform, hv, hu]
    cases made with
    | error error => exact ⟨rfl, hafter⟩
    | ok root =>
      rcases hR.addTree root hafter with ⟨htree, hadded⟩
      simp only [Except.map, htree]
      exact b.called_exchanged hR (.node (.reference _)) hadded
  | .apply fragment, b, v, w, hw => by
    simp only [PlanStep.exchange, PlanStep.perform]
    exact PlanStep.performAll_exchanged hR fragment b hw
  | .broken under fault, b, v, w, hw => by
    have hgrown := NodePlan.growAll_exchanged hR under hw
    rcases hgrown.split with ⟨made, v', w', hv, hu, hafter⟩
    simp only [PlanStep.exchange, PlanStep.perform, hv, hu]
    cases made with
    | error error => exact ⟨rfl, hafter⟩
    | ok nodes => exact ⟨rfl, hR.fail fault hafter⟩

/-- Steps of building with exchanged leaves keep the builder exchanged. -/
theorem PlanStep.performAll_exchanged (hR : World.PlantingBy e R) :
    ∀ (steps : List PlanStep) (b : Builder) {v w : World}, R v w →
      MadeBy (Builder.exchange e) R (PlanStep.performAll steps b v)
        (PlanStep.performAll (PlanStep.exchangeAll e steps) (b.exchange e) w)
  | [], b, v, w, hw => by
    simp only [PlanStep.exchangeAll, PlanStep.performAll]
    exact ⟨rfl, hw⟩
  | step :: rest, b, v, w, hw => by
    have hperformed := PlanStep.perform_exchanged hR step b hw
    rcases hperformed.split with ⟨made, v', w', hv, hu, hafter⟩
    simp only [PlanStep.exchangeAll, PlanStep.performAll, hv, hu]
    cases made with
    | error error => exact ⟨rfl, hafter⟩
    | ok b => exact PlanStep.performAll_exchanged hR rest b hafter

end

/-- Plans with exchanged leaves give the same number to a new shared tree. -/
theorem plantFrom_exchanged (hR : World.PlantingBy e R) (plans : Array TreePlan) (plan : PlanId)
    {v w : World} (hw : R v w) :
    Coupled R (plantFrom plans plan v) (plantFrom (plans.map (TreePlan.exchange e)) plan w) := by
  unfold plantFrom
  rw [Array.getElem?_map]
  cases plans[plan]? with
  | none => exact ⟨rfl, hw⟩
  | some plan =>
    have hgrown := plan.grow_exchanged hR hw
    rcases hgrown.split with ⟨made, v', w', hv, hu, hafter⟩
    simp only [Option.map_some, hv, hu]
    cases made with
    | error error => exact ⟨rfl, hafter⟩
    | ok root =>
      rcases hR.addTree root hafter with ⟨htree, hadded⟩
      exact ⟨congrArg some htree, hadded⟩

/-- Coupled worlds get the same new shared tree. -/
theorem plantFrom_coupled (hR : World.Growing R) (plans : Array TreePlan) (plan : PlanId)
    {v w : World} (hw : R v w) :
    Coupled R (plantFrom plans plan v) (plantFrom plans plan w) := by
  have hplanted := plantFrom_exchanged hR.bySame.planting plans plan hw
  rwa [plans_exchange_same] at hplanted

end

/-- Planting keeps what carrying out plans keeps. -/
theorem World.Planting.keeps {P : World → Prop} (hP : World.Planting P) (plans : Array TreePlan)
    (plan : PlanId) {w : World} (hw : P w) : P (plantFrom plans plan w).2 := by
  have hplanted := plantFrom_exchanged hP.bySame plans plan (w := w) ⟨rfl, hw⟩
  rw [plans_exchange_same] at hplanted
  exact hplanted.2.2

/-- Planting keeps every invariant of growth. -/
theorem plantFrom_keeps {P : World → Prop} (hP : World.Growth P) (plans : Array TreePlan)
    (plan : PlanId) {w : World} (hw : P w) : P (plantFrom plans plan w).2 :=
  hP.planting.keeps plans plan hw

end TickTree
