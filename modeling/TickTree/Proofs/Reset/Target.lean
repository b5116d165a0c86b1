import TickTree.Proofs.Forest
import TickTree.Proofs.Reset

/-!
# Resets of targets

A node that is reset lets the targets of its references go, and each target that is not in use is
reset itself.  A reset asks nothing but to finish and to be reset, so whatever further requests it
causes, a target keeps its first state until it is reset, and is left alone in it afterwards.

Main results:

- Theorem `Node.calm_coupled` and `Node.calm_keeps`: what observations and requests to targets keep,
  all operations other than ticks keep.
- Theorem `serve_freeRoot`: what all operations but ticks keep of a root is kept by all requests but
  ticks.
- Theorem `Node.reset_target`: a reset resets the free targets of a node.
- Theorem `Node.clearHistory_reset`: without targets a reset does nothing to the world.
-/

namespace TickTree

/-! ## Targets -/

namespace Node

mutual

/-- The trees that the references of a node hold. -/
def targets : Node → List TreeId
  | leaf _ => []
  | composite _ children => targetsOfChildren children
  | decorator _ child => targetsOfChild child
  | reference part => part.held.toList
  | embedded _ root => targets root

/-- The trees that the children of a composite hold. -/
def targetsOfChildren : List Node → List TreeId
  | [] => []
  | child :: rest => targets child ++ targetsOfChildren rest

/-- The trees that the child of a decorator holds. -/
def targetsOfChild : Option Node → List TreeId
  | none => []
  | some child => targets child

end

/-- The children of a composite hold their trees in order. -/
theorem targetsOfChildren_eq (children : List Node) :
    targetsOfChildren children = children.flatMap targets := by
  induction children with
  | nil => rfl
  | cons child rest ih => simp [targetsOfChildren, ih]

/-- A node in its first state holds no tree. -/
theorem targets_cleared (n : Node) : n.cleared.targets = [] := by
  induction n with
  | leaf part => simp only [cleared, targets]
  | composite part children ih =>
    simp only [cleared, targets]
    induction children with
    | nil => simp only [clearedChildren, targetsOfChildren]
    | cons child rest ihrest =>
      simp only [clearedChildren, targetsOfChildren, ih child List.mem_cons_self,
        ihrest fun other h => ih other (List.mem_cons_of_mem _ h), List.append_nil]
  | decorator part child ih =>
    cases child with
    | none => simp only [cleared, clearedChild, targets, targetsOfChild]
    | some inner => simp only [cleared, clearedChild, targets, targetsOfChild, ih inner rfl]
  | reference part => simp only [cleared, targets, Reference.letGo, Option.toList_none]
  | embedded tag root ih => simp only [cleared, targets, ih]

end Node

/-! ## Operations other than ticks -/

section

variable {R : World → World → Prop} {P : World → Prop} {s t : Service} {operation : Operation}
  {v w : World}

/-- Operations other than ticks ask of the held tree only, and for no tick. -/
theorem Reference.calm_of_mem_requests {r : Reference} {request : Request}
    (h : request ∈ r.requests operation) : request.1 ≠ .tick ∧ request.2 ∈ r.held.toList := by
  rcases r with ⟨kind, name, supplier, held⟩
  rcases request with ⟨asked, tree⟩
  cases operation <;> cases kind <;> cases held <;> grind [requests, release]

/-- Operations other than ticks on a reference leave related worlds when requests to the held tree
are answered alike. -/
theorem Reference.perform_alike (r : Reference)
    (hask : ∀ asked, asked ≠ .tick → ∀ tree ∈ r.held.toList, Service.AlikeTo R s t (asked, tree))
    (hw : R v w) : R (r.perform s operation v).2 (r.perform t operation w).2 := by
  refine (Service.send_coupled (r.requests operation) (fun request hrequest => ?_) .failure hw).2
  rcases Reference.calm_of_mem_requests hrequest with ⟨hcalm, hheld⟩
  exact hask request.1 hcalm request.2 hheld

namespace Node

/-- Operations other than ticks leave related worlds when observations are recorded on both sides
and requests to targets are answered alike. -/
theorem calm_coupled
    (hobserve : ∀ (seat : Nat) (name : String) {v w : World}, R v w →
      R (v.emit (.observed seat name operation)) (w.emit (.observed seat name operation)))
    (h : operation ≠ .tick) (n : Node)
    (hask : ∀ asked, asked ≠ .tick → ∀ tree ∈ n.targets, Service.AlikeTo R s t (asked, tree))
    (hw : R v w) : R (n.perform s operation v).2.2 (n.perform t operation w).2.2 := by
  cases operation with
  | tick => exact absurd rfl h
  | reset =>
    simp only [perform]
    induction n generalizing v w with
    | leaf part => exact part.observe_coupled hobserve hw
    | composite part children ih =>
      simp only [targets, targetsOfChildren_eq] at hask
      simp only [reset, resetChildren_eq]
      induction children generalizing v w with
      | nil => exact hw
      | cons child rest ihrest =>
        rw [List.flatMap_cons] at hask
        have hfirst := ih child List.mem_cons_self
          (fun asked hasked tree htree => hask asked hasked tree (List.mem_append_left _ htree)) hw
        exact ihrest (fun other hother => ih other (List.mem_cons_of_mem _ hother)) hfirst
          fun asked hasked tree htree => hask asked hasked tree (List.mem_append_right _ htree)
    | decorator part child ih =>
      cases child with
      | none => exact hw
      | some inner => exact ih inner rfl hask hw
    | reference part => exact part.perform_alike hask hw
    | embedded tag root ih => exact ih hask hw
  | start =>
    simp only [perform]
    induction n with
    | leaf part => exact part.observe_coupled hobserve hw
    | composite part children => exact hw
    | decorator part child => exact hw
    | reference part => exact part.perform_alike hask hw
    | embedded tag root ih => exact ih hask
  | finish =>
    simp only [perform]
    induction n with
    | leaf part => exact part.observe_coupled hobserve hw
    | composite part children => exact hw
    | decorator part child => exact hw
    | reference part => exact part.perform_alike hask hw
    | embedded tag root ih => exact ih hask

/-- What observations and requests to targets keep, operations other than ticks keep. -/
theorem calm_keeps
    (hobserve : ∀ (seat : Nat) (name : String) {w : World}, P w →
      P (w.emit (.observed seat name operation)))
    (h : operation ≠ .tick) (n : Node)
    (hask : ∀ asked, asked ≠ .tick → ∀ tree ∈ n.targets, ∀ w, P w → P (s.ask asked tree w).2)
    (hw : P w) : P (n.perform s operation w).2.2 := by
  have hcalm : World.Itself P (n.perform s operation w).2.2 (n.perform s operation w).2.2 :=
    n.calm_coupled (fun seat name _ _ hw => hw.step (hobserve seat name)) h
      (fun asked hasked tree htree _ _ hw => hw.coupled (hask asked hasked tree htree _)) ⟨rfl, hw⟩
  exact hcalm.2

/-- Without targets a reset does nothing to the world but record what probes observe. -/
theorem clearHistory_reset (s : Service) (n : Node) (h : n.targets = []) (w : World) :
    (n.reset s w).2.clearHistory = w.clearHistory := by
  refine n.calm_keeps (P := fun u => u.clearHistory = w.clearHistory) (fun _ _ _ hu => hu)
    (show Operation.reset ≠ .tick by decide) (fun _ _ tree htree => ?_) rfl
  rw [h] at htree
  exact absurd htree List.not_mem_nil

end Node

end

/-! ## Roots under calm requests -/

/-- A tree is there, and its root has a property. -/
def World.HasRoot (tree : TreeId) (C : Node → Prop) (w : World) : Prop :=
  ∃ root inUse, w.trees.get tree = some ⟨root, inUse⟩ ∧ C root

/-- A tree is free, and its root has a property. -/
def World.FreeRoot (tree : TreeId) (C : Node → Prop) (w : World) : Prop :=
  ∃ root, w.trees.get tree = some ⟨root, false⟩ ∧ C root

theorem World.freeRoot_iff {tree : TreeId} {C : Node → Prop} {w : World} :
    w.FreeRoot tree C ↔ w.HasRoot tree C ∧ w.locks tree = none := by
  constructor
  · intro h
    rcases h with ⟨root, hroot, hC⟩
    have hfree : w.locks tree = none := by simp only [locks, hroot]
    exact ⟨⟨root, false, hroot, hC⟩, hfree⟩
  · intro h
    rcases h with ⟨⟨root, inUse, hroot, hC⟩, hfree⟩
    cases inUse with
    | true => simp only [locks, hroot, reduceCtorEq] at hfree
    | false => exact ⟨root, hroot, hC⟩

/-- What is said of the root of a free tree is an invariant. -/
theorem World.invariant_freeRoot (tree : TreeId) (C : Node → Prop) :
    World.Invariant (World.FreeRoot tree C) :=
  World.Invariant.ofTrees fun h ⟨root, hroot, hC⟩ => ⟨root, by rw [h, hroot], hC⟩

/-- What is said of the root of a tree is an invariant. -/
theorem World.invariant_hasRoot (tree : TreeId) (C : Node → Prop) :
    World.Invariant (World.HasRoot tree C) :=
  World.Invariant.ofTrees fun h ⟨root, inUse, hroot, hC⟩ => ⟨root, inUse, by rw [h, hroot], hC⟩

/-- A property that no operation but a tick takes from a node. -/
def Node.CalmlyKept (C : Node → Prop) : Prop :=
  ∀ (s : Service) (operation : Operation), operation ≠ .tick → ∀ (n : Node) (w : World),
    C n → C (n.perform s operation w).2.1

/-- What all operations but ticks keep of a root is kept by all requests but ticks. -/
theorem serve_hasRoot (plant : PlanId → World → Option TreeId × World) (depth : Nat)
    (tree : TreeId) {C : Node → Prop} (hC : Node.CalmlyKept C) (operation : Operation)
    (h : operation ≠ .tick) :
    (serve plant depth).KeepsAt (World.HasRoot tree C) operation := by
  induction depth generalizing operation with
  | zero => exact fun _ _ hw => hw
  | succ depth ih =>
    intro other w hw
    rw [serve_ask]
    apply World.withTree_keeps hw hw
    intro root hroot
    by_cases hother : other = tree
    · subst hother
      rcases hw with ⟨found, inUse, hfound, hroot'⟩
      rw [hroot] at hfound
      cases hfound
      exact ⟨_, false, World.get_putTree_self _ _ _, hC _ _ h _ _ hroot'⟩
    · have hheld : (w.holdTree other root).HasRoot tree C := by
        rcases hw with ⟨found, inUse, hfound, hfound'⟩
        exact ⟨found, inUse, by rw [World.get_holdTree_of_ne (Ne.symm hother), hfound], hfound'⟩
      have hkept := root.perform_keeps_of_ne_tick (World.invariant_hasRoot tree C) ih h hheld
      rcases hkept with ⟨found, inUse, hfound, hfound'⟩
      exact ⟨found, inUse, by rw [World.get_putTree_of_ne (Ne.symm hother), hfound], hfound'⟩

/-- What all operations but ticks keep of the root of a free tree is kept by all requests but
ticks. -/
theorem serve_freeRoot (plans : Array TreePlan) (depth : Nat) (tree : TreeId) {C : Node → Prop}
    (hC : Node.CalmlyKept C) (operation : Operation) (h : operation ≠ .tick) :
    (serve (plantFrom plans) depth).KeepsAt (World.FreeRoot tree C) operation := by
  intro other w hw
  rcases World.freeRoot_iff.1 hw with ⟨hroot, hfree⟩
  have hlocks := (serve_locks plans depth w.locks).1 operation other rfl
  exact World.freeRoot_iff.2
    ⟨serve_hasRoot _ depth tree hC operation h other hroot, by rw [hlocks, hfree]⟩

/-- First states are kept by all operations. -/
theorem Node.calmlyKept_cleared (first : Node) : CalmlyKept fun n => n.cleared = first := by
  intro s operation _ n w hn
  rw [cleared_perform, hn]

/-- A finish of a node in its first state changes nothing. -/
theorem Node.fst_finish_of_cleared (s : Service) {n : Node} (h : n.cleared = n) (w : World) :
    (n.finish s w).1 = n := by
  induction n with
  | leaf part => rfl
  | composite part children => rfl
  | decorator part child => rfl
  | reference part =>
    rcases part with ⟨kind, name, supplier, held⟩
    cases h
    cases kind <;> rfl
  | embedded tag root ih =>
    rw [cleared, embedded.injEq] at h
    simp only [finish, ih h.2]

/-- A node in its first state is left in it by all operations but ticks. -/
theorem Node.calmlyKept_eq_cleared (n : Node) : CalmlyKept fun m => m = n.cleared := by
  intro s operation hoperation m w hm
  subst hm
  cases operation with
  | tick => exact absurd rfl hoperation
  | reset => exact (fst_reset s _ w).trans n.cleared_cleared
  | start => exact fst_start s _ w
  | finish => exact fst_finish_of_cleared s n.cleared_cleared w

/-! ## Resets reach the targets -/

section

variable (plans : Array TreePlan) (depth : Nat) {tree : TreeId} {root : Node}

/-- A request for a reset leaves a free tree in its first state. -/
theorem serve_ask_reset {w : World} (hw : w.FreeRoot tree fun n => n.cleared = root.cleared) :
    ((serve (plantFrom plans) (depth + 1)).ask .reset tree w).2.FreeRoot tree
      fun n => n = root.cleared := by
  rcases hw with ⟨found, hfound, hfirst⟩
  rw [serve_ask, World.withTree_of_free hfound]
  exact ⟨_, World.get_putTree_self _ _ _, (Node.fst_reset _ _ _).trans hfirst⟩

/-- A reset of a reference resets its target if it is free. -/
theorem Reference.reset_target {r : Reference} (hheld : r.held = some tree) {w : World}
    (hw : w.FreeRoot tree fun n => n.cleared = root.cleared) :
    (r.perform (serve (plantFrom plans) (depth + 1)) .reset w).2.FreeRoot tree
      fun n => n = root.cleared := by
  rcases r with ⟨kind, name, supplier, held⟩
  cases hheld
  cases kind with
  | sticky => exact serve_ask_reset plans depth hw
  | dynamic =>
    have hfinished := serve_freeRoot plans (depth + 1) tree (Node.calmlyKept_cleared root.cleared)
      .finish (by decide) tree hw
    exact serve_ask_reset plans depth hfinished

namespace Node

/-- A reset keeps what all operations but ticks keep of the root of a free tree. -/
theorem freeRoot_reset {C : Node → Prop} (hC : CalmlyKept C) (n : Node) {w : World}
    (hw : w.FreeRoot tree C) : (n.reset (serve (plantFrom plans) depth) w).2.FreeRoot tree C :=
  n.perform_keeps_of_ne_tick (World.invariant_freeRoot tree C)
    (fun operation h => serve_freeRoot plans depth tree hC operation h)
    (show Operation.reset ≠ .tick by decide) hw

/-- A reset brings every free target of a node to its first state. -/
theorem freeRoot_reset_of_target (n : Node) (htree : tree ∈ n.targets) {w : World}
    (hw : w.FreeRoot tree fun m => m.cleared = root.cleared) :
    (n.reset (serve (plantFrom plans) (depth + 1)) w).2.FreeRoot tree
      fun m => m = root.cleared := by
  induction n generalizing w with
  | leaf part => simp only [targets, List.not_mem_nil] at htree
  | composite part children ih =>
    simp only [targets] at htree
    simp only [reset]
    induction children generalizing w with
    | nil => simp only [targetsOfChildren, List.not_mem_nil] at htree
    | cons child rest ihrest =>
      simp only [resetChildren]
      simp only [targetsOfChildren, List.mem_append] at htree
      by_cases hchild : tree ∈ child.targets
      · have hfirst := ih child List.mem_cons_self hchild hw
        have hrest := (composite part rest).freeRoot_reset plans (depth + 1)
          root.calmlyKept_eq_cleared hfirst
        simpa only [reset] using hrest
      · have hfirst := child.freeRoot_reset plans (depth + 1) (calmlyKept_cleared root.cleared) hw
        exact ihrest (fun other h => ih other (List.mem_cons_of_mem _ h))
          (htree.resolve_left hchild) hfirst
  | decorator part child ih =>
    cases child with
    | none => simp only [targets, targetsOfChild, List.not_mem_nil] at htree
    | some inner =>
      simp only [targets, targetsOfChild] at htree
      simp only [reset, resetChild]
      exact ih inner rfl htree hw
  | reference part =>
    simp only [targets, Option.mem_toList] at htree
    simp only [reset]
    exact Reference.reset_target plans depth htree hw
  | embedded tag inner ih =>
    simp only [targets] at htree
    simp only [reset]
    exact ih htree hw

/-- A reset resets the free targets of a node. -/
theorem reset_target (n : Node) (htree : tree ∈ n.targets) {w : World}
    (hw : w.trees.get tree = some ⟨root, false⟩) :
    (n.reset (serve (plantFrom plans) (depth + 1)) w).2.trees.get tree =
      some ⟨root.cleared, false⟩ := by
  have hreset := freeRoot_reset_of_target plans depth n htree ⟨root, hw, rfl⟩
  rcases hreset with ⟨found, hfound, rfl⟩
  exact hfound

end Node

end

end TickTree
