import TickTree.Proofs.Hooks
import TickTree.Proofs.Reference.Stint

/-!
# Refused targets of dynamic sub-trees

A dynamic sub-tree starts a new target and ticks it at once.  The target may be in use further up
the stack of calls; then both requests are refused, and the dynamic sub-tree holds the target all
the same.  On later ticks the target is not new, so it is ticked without having been started.

Main results:

- Theorem `serve_refused_again`: a request to a tree does not change whether the tree refuses.
- Theorem `Reference.granted_switch`: a new target is both started and ticked, or neither.
- Theorem `Reference.started_iff_granted_at_switch`: a target that is ticked was started exactly
  when it was not refused as a new target, apart from starts that were passed on to it.
-/

namespace TickTree

/-! ## Refusing twice -/

/-- No operation on a node is refused. -/
theorem Node.answer_perform_ne_refused (s : Service) (operation : Operation) (n : Node)
    (w : World) : (n.perform s operation w).1 ≠ .refused := by
  cases operation with
  | tick => exact Answer.noConfusion
  | reset => exact Answer.noConfusion
  | start => exact Answer.noConfusion
  | finish => exact Answer.noConfusion

section

variable (plant : PlanId → World → Option TreeId × World) (depth : Nat)

/-- A request is refused exactly when it has no depth left or the tree is not free. -/
theorem serve_refuses_iff (operation : Operation) (tree : TreeId) (w : World) :
    ((serve plant depth).ask operation tree w).1 = .refused ↔
      depth = 0 ∨ ∀ root, w.trees.get tree ≠ some ⟨root, false⟩ := by
  constructor
  · intro hrefused
    rcases serve_ask_cases plant depth operation tree w with
      ⟨further, root, rfl, hfree, hasked⟩ | hasked | ⟨hnone, hasked⟩
    · rw [hasked] at hrefused
      exact absurd hrefused (root.answer_perform_ne_refused _ _ _)
    · cases depth with
      | zero => exact .inl rfl
      | succ further =>
        refine .inr fun root hfree => ?_
        rw [serve_ask, World.withTree_of_free hfree] at hrefused
        exact root.answer_perform_ne_refused _ _ _ hrefused
    · refine .inr fun root hfree => ?_
      rw [hnone] at hfree
      cases hfree
  · intro h
    rcases serve_ask_cases plant depth operation tree w with
      ⟨further, root, rfl, hfree, -⟩ | hasked | ⟨-, hasked⟩
    · rcases h with hzero | hnot
      · cases hzero
      · exact absurd hfree (hnot root)
    · rw [hasked]
    · rw [hasked]

/-- A request to a tree does not change whether the tree refuses. -/
theorem serve_refused_again (operation second : Operation) (tree : TreeId) (w : World) :
    ((serve plant depth).ask second tree
        ((serve plant depth).ask operation tree w).2).1 = .refused ↔
      ((serve plant depth).ask operation tree w).1 = .refused := by
  have hsame : (∀ root, ((serve plant depth).ask operation tree w).2.trees.get tree ≠
      some ⟨root, false⟩) ↔ ∀ root, w.trees.get tree ≠ some ⟨root, false⟩ := by
    rcases serve_ask_cases plant depth operation tree w with
      ⟨further, root, rfl, hfree, hasked⟩ | hasked | ⟨-, hasked⟩
    · rw [hasked]
      exact iff_of_false (fun h => h _ (World.get_putTree_self _ _ _)) fun h => h root hfree
    · rw [hasked]
      exact Iff.rfl
    · rw [hasked]
  rw [serve_refuses_iff, serve_refuses_iff, hsame]

end

/-! ## Granted requests -/

namespace Deed

/-- The request that is made in a deed and not refused. -/
def granted? : Deed → Option Request
  | ask request answer => if answer = .refused then none else some request
  | _ => none

/-- The requests that are made in some deeds and not refused. -/
def granted (deeds : List Deed) : List Request := deeds.filterMap granted?

@[simp] theorem granted_append (first second : List Deed) :
    granted (first ++ second) = granted first ++ granted second :=
  List.filterMap_append

/-- What is granted is asked. -/
theorem mem_requests_of_mem_granted {deeds : List Deed} {request : Request}
    (h : request ∈ granted deeds) : request ∈ requests deeds := by
  rcases List.mem_filterMap.1 h with ⟨deed, hdeed, hgranted⟩
  refine List.mem_filterMap.2 ⟨deed, hdeed, ?_⟩
  cases deed with
  | resolve found => cases hgranted
  | report message => cases hgranted
  | ask asked answer =>
    simp only [granted?] at hgranted
    split at hgranted
    · cases hgranted
    · exact hgranted

end Deed

/-- Of two requests to one tree, one after the other, both are granted or none. -/
theorem granted_pair (plant : PlanId → World → Option TreeId × World) (depth : Nat)
    (first second : Operation) (tree : TreeId) (w : World) :
    Deed.granted ((serve plant depth).dialogue [(first, tree), (second, tree)] w) = [] ∨
      Deed.granted ((serve plant depth).dialogue [(first, tree), (second, tree)] w) =
        [(first, tree), (second, tree)] := by
  have hagain := serve_refused_again plant depth first second tree w
  by_cases hrefused : ((serve plant depth).ask first tree w).1 = .refused
  · left
    simp [Service.dialogue, Deed.granted, Deed.granted?, hrefused, hagain.2 hrefused]
  · right
    have hsecond := mt hagain.1 hrefused
    simp [Service.dialogue, Deed.granted, Deed.granted?, hrefused, hsecond]

namespace Stage

variable (s : Service)

/-- The requests of a stage that are not refused. -/
def granted (stage : Stage) : List Request := Deed.granted (stage.deeds s)

/-- In a stage a tree becomes the target. -/
def SwitchesTo (tree : TreeId) (stage : Stage) : Prop :=
  stage.found s = some tree ∧ stage.part.held ≠ some tree

/-- In a stage a tree was the target and remains it. -/
def StaysOn (tree : TreeId) (stage : Stage) : Prop :=
  stage.part.held = some tree ∧ (stage.operation = .start ∨ stage.found s = some tree)

end Stage

namespace Reference

section

variable {plant : PlanId → World → Option TreeId × World} {depth : Nat} {r : Reference}
  (hkind : r.kind = .dynamic)
include hkind

/-- When a dynamic sub-tree has a new target, it lets the old one go; then the new one is both
started and ticked, or neither. -/
theorem granted_switch {operation : Operation} {w : World} {tree : TreeId}
    (h : Stage.SwitchesTo (serve plant depth) tree ⟨r, operation, w⟩) :
    ∃ ended, (∀ request ∈ ended, request ∈ closing r.held) ∧
      let stage : Stage := ⟨r, operation, w⟩
      (stage.granted (serve plant depth) = ended ∨
        stage.granted (serve plant depth) = ended ++ [(.start, tree), (.tick, tree)]) := by
  rcases h with ⟨hfound, hheld⟩
  cases operation with
  | reset => cases hfound
  | start => cases hfound
  | finish => cases hfound
  | tick =>
    let s := serve plant depth
    let u := r.announce (some tree) (r.resolve s w).2
    have hfound : (r.resolve s w).1 = some tree := hfound
    have hrequests : r.tickRequests (some tree) =
        closing r.held ++ [(.start, tree), (.tick, tree)] := by
      simp only [tickRequests, hkind, switches, release_of_dynamic hkind]
      rw [decide_eq_true hheld, if_pos rfl]
    have hsearching : Deed.granted (r.searching (some tree)) = [] :=
      (r.filterMap_searching (fun _ => rfl) _).trans (ite_self _)
    have hannouncing : Deed.granted (r.announcing (some tree)) = [] :=
      r.filterMap_announcing (fun _ => rfl) _
    have hgranted : Deed.granted (r.deeds s .tick w) =
        Deed.granted (s.dialogue (closing r.held) u) ++
          Deed.granted (s.dialogue [(.start, tree), (.tick, tree)]
            (s.send (closing r.held) .failure u).2) := by
      simp only [deeds, hfound, Deed.granted_append, hsearching, hannouncing, hrequests,
        s.dialogue_append _ _ .failure, List.nil_append, u]
    refine ⟨Deed.granted (s.dialogue (closing r.held) u), ?_, ?_⟩
    · intro request hrequest
      have hasked := Deed.mem_requests_of_mem_granted hrequest
      rwa [Service.requests_dialogue] at hasked
    · rcases granted_pair plant depth .start .tick tree
          (s.send (closing r.held) .failure u).2 with hpair | hpair
      · left
        exact hgranted.trans (by rw [hpair, List.append_nil])
      · right
        exact hgranted.trans (by rw [hpair])

/-- So a new target is started exactly when it is ticked. -/
theorem granted_start_iff {operation : Operation} {w : World} {tree : TreeId}
    (h : Stage.SwitchesTo (serve plant depth) tree ⟨r, operation, w⟩) :
    let stage : Stage := ⟨r, operation, w⟩
    (.start, tree) ∈ stage.granted (serve plant depth) ↔
      (.tick, tree) ∈ stage.granted (serve plant depth) := by
  rcases granted_switch hkind h with ⟨ended, hended, hgranted⟩
  have hclosing : ∀ request ∈ closing r.held, request.1 = .finish ∨ request.1 = .reset := by
    cases r.held with
    | none => simp [closing]
    | some tree => simp [closing]
  have hstart : (Operation.start, tree) ∉ ended := by
    intro hmem
    rcases hclosing _ (hended _ hmem) with hop | hop <;> cases hop
  have htick : (Operation.tick, tree) ∉ ended := by
    intro hmem
    rcases hclosing _ (hended _ hmem) with hop | hop <;> cases hop
  rcases hgranted with hgranted | hgranted
  · simp only [hgranted]
    exact iff_of_false hstart htick
  · simp only [hgranted]
    exact iff_of_true (by simp) (by simp)

/-- A dynamic sub-tree that stays on its target asks for a start only when it is started itself. -/
theorem operation_eq_start {s : Service} {operation : Operation} {w : World} {tree : TreeId}
    (h : Stage.StaysOn s tree ⟨r, operation, w⟩)
    (hgranted : (.start, tree) ∈ Stage.granted s ⟨r, operation, w⟩) : operation = .start := by
  rcases h with ⟨hheld, hstart | hfound⟩
  · exact hstart
  · have hrequest := Deed.mem_requests_of_mem_granted hgranted
    have hoperation : operation ≠ .start := by
      rintro rfl
      cases hfound
    rw [(requests_stage hkind hoperation w).1, hfound, requestsOf, if_pos hheld] at hrequest
    simp at hrequest

end

/-- Only a tree that is found is ticked. -/
theorem eq_of_tick_mem_requestsOf {held found : Option TreeId} {tree : TreeId}
    (h : (.tick, tree) ∈ requestsOf held found) : found = some tree := by
  have hclosing : (Operation.tick, tree) ∉ closing held := by
    cases held <;> simp [closing]
  cases found with
  | none => exact absurd h hclosing
  | some other =>
    simp only [requestsOf] at h
    split at h
    · cases List.mem_singleton.1 h
      rfl
    · rcases List.mem_append.1 h with hended | hnew
      · exact absurd hended hclosing
      · simp only [List.mem_cons, Prod.mk.injEq, reduceCtorEq, false_and, true_and,
          List.not_mem_nil, or_false, false_or] at hnew
        rw [hnew]

/-! ## From the switch to the tick -/

section

variable {s : Service} {r : Reference}

/-- A course with one more operation has one more stage. -/
theorem course_concat (moves : List (Operation × World)) (operation : Operation) (w : World) :
    r.course s (moves ++ [(operation, w)]) =
        r.course s moves ++ [⟨r.afterCourse s moves, operation, w⟩] ∧
      r.afterCourse s (moves ++ [(operation, w)]) =
        (r.afterCourse s moves).next s operation w := by
  induction moves generalizing r with
  | nil => exact ⟨rfl, rfl⟩
  | cons move rest ih =>
    rcases ih (r := r.next s move.1 move.2) with ⟨hcourse, hafter⟩
    exact ⟨congrArg (_ :: ·) hcourse, hafter⟩

/-- After a course, a dynamic sub-tree is of the same kind. -/
theorem kind_afterCourse (moves : List (Operation × World)) :
    (r.afterCourse s moves).kind = r.kind := by
  induction moves generalizing r with
  | nil => rfl
  | cons move rest ih => exact ih.trans (r.kind_next s move.1 move.2).1

/-- A tree that is held at the end of a course became the target in some stage, and remained it
since. -/
theorem exists_switch (hkind : r.kind = .dynamic) (hheld : r.held = none)
    (moves : List (Operation × World)) {tree : TreeId}
    (h : (r.afterCourse s moves).held = some tree) :
    ∃ earlier switch between, r.course s moves = earlier ++ switch :: between ∧
      switch.SwitchesTo s tree ∧ ∀ stage ∈ between, stage.StaysOn s tree := by
  induction moves using List.reverseRecOn with
  | nil =>
    rw [show r.afterCourse s [] = r from rfl, hheld] at h
    cases h
  | append_singleton moves move ih =>
    rcases move with ⟨operation, w⟩
    rcases course_concat (s := s) (r := r) moves operation w with ⟨hcourse, hafter⟩
    let last : Stage := ⟨r.afterCourse s moves, operation, w⟩
    have hnext : operation ≠ .start → (last.part.next s operation w).held = last.found s :=
      fun hoperation => (requests_stage ((kind_afterCourse moves).trans hkind) hoperation w).2
    rw [hafter] at h
    rw [hcourse]
    by_cases hbefore : (r.afterCourse s moves).held = some tree
    · -- The tree was held before, and the last stage is one more in which it remains.
      have hstays : last.StaysOn s tree := by
        by_cases hoperation : operation = .start
        · exact ⟨hbefore, .inl hoperation⟩
        · exact ⟨hbefore, .inr ((hnext hoperation).symm.trans h)⟩
      rcases ih hbefore with ⟨earlier, switch, between, heq, hswitch, hbetween⟩
      refine ⟨earlier, switch, between ++ [last], ?_, hswitch, ?_⟩
      · rw [heq, List.append_assoc, List.cons_append]
      · intro stage hstage
        rcases List.mem_append.1 hstage with hstage | hstage
        · exact hbetween stage hstage
        · rw [List.mem_singleton.1 hstage]
          exact hstays
    · -- The tree is new in the last stage.
      have hoperation : operation ≠ .start := by
        rintro rfl
        exact hbefore h
      have hswitch : last.SwitchesTo s tree := ⟨(hnext hoperation).symm.trans h, hbefore⟩
      exact ⟨r.course s moves, last, [], rfl, hswitch, by simp⟩

end

/-- A dynamic sub-tree ticks only targets that it started, unless a target was in use when it became
the target.  Whenever a tick of the target is granted in a course of a dynamic sub-tree, the course
has a last switch to this target.  Since then the target was started exactly when it was ticked at
the switch already, or when a start of the dynamic sub-tree itself was passed on to it. -/
theorem started_iff_granted_at_switch (plant : PlanId → World → Option TreeId × World)
    (depth : Nat) (name : String) (supplier : Supplier (Option Supply))
    (moves : List (Operation × World)) (w : World) (tree : TreeId) :
    let s := serve plant depth
    let made := Reference.new .dynamic name supplier
    let now : Stage := ⟨made.afterCourse s moves, .tick, w⟩
    (.tick, tree) ∈ now.granted s →
      ∃ earlier switch between,
        made.course s (moves ++ [(.tick, w)]) = earlier ++ switch :: between ∧
        switch.SwitchesTo s tree ∧ (∀ stage ∈ between, stage.StaysOn s tree) ∧
        ((∃ stage ∈ switch :: between, (.start, tree) ∈ stage.granted s) ↔
          (.tick, tree) ∈ switch.granted s ∨
            ∃ stage ∈ between, stage.operation = .start ∧ (.start, tree) ∈ stage.granted s) := by
  intro s made now hgranted
  have hkind : now.part.kind = .dynamic := kind_afterCourse moves
  have hheld : (made.afterCourse s (moves ++ [(.tick, w)])).held = some tree := by
    have hrequest := Deed.mem_requests_of_mem_granted hgranted
    have hstage := requests_stage (s := s) hkind (show Operation.tick ≠ .start by decide) w
    rw [hstage.1] at hrequest
    rw [(course_concat moves .tick w).2]
    exact hstage.2.trans (eq_of_tick_mem_requestsOf hrequest)
  rcases exists_switch rfl rfl _ hheld with
    ⟨earlier, switch, between, hcourse, hswitch, hbetween⟩
  have hkinds : ∀ stage ∈ switch :: between, stage.part.kind = .dynamic := by
    intro stage hstage
    have hmem : stage ∈ made.course s (moves ++ [(.tick, w)]) := by
      rw [hcourse]
      exact List.mem_append_right _ hstage
    exact (kind_of_mem_course hmem).1
  refine ⟨earlier, switch, between, hcourse, hswitch, hbetween, ?_⟩
  have hatSwitch := granted_start_iff (hkinds switch List.mem_cons_self) hswitch
  constructor
  · rintro ⟨stage, hstage, hstart⟩
    rcases List.mem_cons.1 hstage with rfl | hafter
    · exact .inl (hatSwitch.1 hstart)
    · have hoperation := operation_eq_start (hkinds stage hstage) (hbetween stage hafter) hstart
      exact .inr ⟨stage, hafter, hoperation, hstart⟩
  · rintro (htick | ⟨stage, hafter, -, hstart⟩)
    · exact ⟨switch, List.mem_cons_self, hatSwitch.2 htick⟩
    · exact ⟨stage, List.mem_cons_of_mem _ hafter, hstart⟩

/-- A target that is free when it becomes the target is started at its first tick. -/
theorem started_iff_granted_at_switch_free :
    let w := ((World.start (.empty .start) (.empty (.seeded 0))).addTree default).2
    let s := serve (plantFrom #[]) 1
    let made := Reference.new .dynamic "follow" (.constant (some (.existing 0)))
    ∃ stage ∈ made.course s [(.tick, w)], (.start, 0) ∈ stage.granted s := by
  intro w s made
  have hgranted : Stage.granted s ⟨made, .tick, w⟩ = [(.start, 0), (.tick, 0)] := rfl
  have hnow : (.tick, 0) ∈ Stage.granted s ⟨made, .tick, w⟩ := by
    rw [hgranted]
    exact List.mem_cons_of_mem _ List.mem_cons_self
  have hstarted := started_iff_granted_at_switch (plantFrom #[]) 1 "follow"
    (.constant (some (.existing 0))) [] w 0 hnow
  rcases hstarted with ⟨earlier, switch, between, hcourse, -, -, hstart⟩
  rcases earlier with _ | ⟨first, rest⟩
  · cases hcourse
    exact hstart.2 (.inl hnow)
  · have hrest : [] = rest ++ switch :: between := (List.cons.inj hcourse).2
    exact absurd hrest.symm (List.append_ne_nil_of_right_ne_nil _ (List.cons_ne_nil _ _))

/-- A dynamic sub-tree ticks a target that it did not start.  The target is a probe that ticks the
dynamic sub-tree in the first of its own ticks; there the probe is in use and refuses the dynamic
sub-tree's start and tick, and the next tick of the dynamic sub-tree ticks the probe. -/
theorem ticked_without_start :
    let script : Callback Status := ⟨0, "target", fun n =>
      if n = 0 then ⟨[.ask .tick "follow"], .running⟩ else ⟨[], .success⟩⟩
    let target := Node.leaf (.probe "target" script true)
    let follow := Node.reference (.new .dynamic "follow" (.constant (some (.existing 0))))
    let empty := World.start (.empty .start) (.empty (.seeded 0))
    let w := ((empty.addTree target).2.addTree follow).2.nameTree "follow" 1
    let s := serve (plantFrom #[]) 3
    let first := s.ask .tick 0 w
    let second := s.ask .tick 1 first.2
    second.1 = .ticked .success ∧ second.2.observedAt 0 = [.tick, .tick] := by
  decide +kernel

end Reference

end TickTree
