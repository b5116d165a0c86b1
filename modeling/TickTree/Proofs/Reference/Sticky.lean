import Mathlib.Data.List.DropRight
import TickTree.Proofs.Reference.Refusal

/-!
# Targets of sub-trees

A sub-tree without a target calls its supplier on each tick, until a tree is found.  From then on
it passes every operation on to this tree and calls the supplier no more; a reset is passed on as
well, and after it the sub-tree has no target again.  So what it holds follows from the answers of
its supplier since the last reset.  Whether the target completes, or refuses because it is in use,
makes no difference.

Main results:

- Definition `Stage.kept`: what was found first since the last reset.
- Theorem `Reference.held_eq_kept`: in every course a sub-tree holds just that.
- Theorem `Reference.sticks_until_reset`: what each operation on a sub-tree does.
-/

namespace TickTree

namespace Stage

variable (s : Service)

/-- The first tree that the supplier's answers meant since the last reset, after some stages. -/
def kept (history : List Stage) : Option TreeId :=
  ((history.rtakeWhile fun stage => stage.operation ≠ .reset).flatMap fun stage =>
    Deed.findings (stage.deeds s)).findSome? id

/-- A reset forgets the tree; another stage matters only when there is none yet. -/
theorem kept_concat (history : List Stage) (stage : Stage) :
    kept s (history ++ [stage]) =
      if stage.operation = .reset then none
      else (kept s history).or ((Deed.findings (stage.deeds s)).findSome? id) := by
  unfold kept
  by_cases hreset : stage.operation = .reset
  · rw [List.rtakeWhile_concat_neg _ _ _ (by simpa using hreset), if_pos hreset]
    rfl
  · rw [List.rtakeWhile_concat_pos _ _ _ (by simpa using hreset), if_neg hreset,
      List.flatMap_append, List.flatMap_singleton, List.findSome?_append]

end Stage

namespace Reference

/-! ## One operation -/

section

variable {s : Service} {r : Reference} (hkind : r.kind = .sticky)
include hkind

/-- A sub-tree that holds a tree need not look for it. -/
theorem resolve_of_held {tree : TreeId} (hheld : r.held = some tree) (w : World) :
    r.resolve s w = (some tree, w) := by
  simp [resolve, resolves, hkind, hheld]

/-- A sub-tree calls its supplier on a tick exactly when it holds nothing. -/
theorem findings_tick_sticky (w : World) :
    Deed.findings (r.deeds s .tick w) = if r.held = none then [(r.resolve s w).1] else [] := by
  rw [findings_deeds]
  simp [resolves, hkind]

/-- All that a sub-tree asks on a tick is one tick of its target, if there is one. -/
theorem requests_tick_sticky (w : World) :
    Deed.requests (r.deeds s .tick w) = (r.resolve s w).1.toList.map (Prod.mk .tick) := by
  rw [requests_deeds_tick]
  cases hfound : (r.resolve s w).1 with
  | some tree => simp only [tickRequests, hkind, Option.toList_some, List.map_singleton]
  | none =>
    have hheld : r.held = none := by
      cases hheld : r.held with
      | none => rfl
      | some tree =>
        rw [resolve_of_held hkind hheld w] at hfound
        cases hfound
    simp only [tickRequests, release, hheld, Option.toList_none, List.map_nil]

/-- Every other operation is passed on to the tree that is held. -/
theorem requests_sticky {operation : Operation} (h : operation ≠ .tick) :
    r.requests operation = r.held.toList.map (Prod.mk operation) := by
  cases operation with
  | tick => exact absurd rfl h
  | reset => cases hheld : r.held <;> simp [requests, release, hkind, hheld]
  | start => rfl
  | finish => simp only [requests, hkind]

/-- The target's answer to this tick is the last deed, and it gives the status. -/
theorem tick_sticky_of_found {tree : TreeId} {w : World} (hfound : (r.resolve s w).1 = some tree) :
    let answer := (s.ask .tick tree (r.resolve s w).2).1
    r.deeds s .tick w = r.searching (some tree) ++ [.ask (.tick, tree) answer] ∧
      (r.tick s w).status = answer.status := by
  have hquiet : r.announcing (some tree) = [] := by simp only [announcing, hkind]
  have hasked : r.tickRequests (some tree) = [(.tick, tree)] := by simp only [tickRequests, hkind]
  have hsame : r.announce (some tree) (r.resolve s w).2 = (r.resolve s w).2 := by
    simp only [announce, hkind]
  constructor
  · simp only [deeds, hfound, hquiet, hasked, hsame, List.append_nil]
    rfl
  · simp only [tick, hfound, hasked, hsame]
    rfl

/-- A reset lets the tree go; otherwise a sub-tree keeps it, and holds what it finds when it holds
nothing. -/
theorem held_next_sticky (operation : Operation) (w : World) :
    (r.next s operation w).held =
      if operation = .reset then none
      else r.held.or ((Deed.findings (r.deeds s operation w)).findSome? id) := by
  cases operation with
  | tick =>
    rw [findings_tick_sticky hkind]
    cases hheld : r.held with
    | none => cases hfound : (r.resolve s w).1 <;> simp [next, afterTick, hfound]
    | some tree => simp [next, afterTick, resolve_of_held hkind hheld]
  | reset => rfl
  | start =>
    rw [findings_deeds]
    exact (Option.or_none).symm
  | finish =>
    rw [findings_deeds]
    simp [next, after, hkind]

end

/-! ## Courses -/

/-- In every course a sub-tree holds the tree that it found first since the last reset. -/
theorem held_eq_kept (s : Service) {made : Reference} (hkind : made.kind = .sticky)
    (hheld : made.held = none) (moves : List (Operation × World)) :
    (made.afterCourse s moves).held = Stage.kept s (made.course s moves) := by
  induction moves using List.reverseRecOn with
  | nil => exact hheld
  | append_singleton moves move ih =>
    rcases course_concat (s := s) (r := made) moves move.1 move.2 with ⟨hcourse, hafter⟩
    rw [hcourse, hafter, Stage.kept_concat, ← ih]
    exact held_next_sticky ((kind_afterCourse moves).trans hkind) move.1 move.2

/-- After a course a reference has the same supplier. -/
theorem supplier_afterCourse (s : Service) (made : Reference) (moves : List (Operation × World)) :
    (made.afterCourse s moves).supplier = made.supplier := by
  induction moves generalizing made with
  | nil => rfl
  | cons move rest ih => exact (ih _).trans (made.kind_next s move.1 move.2).2

/-- A tree that is in use refuses the tick of a reference that finds it. -/
theorem refused_of_inUse (plans : Array TreePlan) (depth : Nat) (r : Reference) {tree : TreeId}
    {w : World} (h : w.isInUse tree = true) :
    let s := serve (plantFrom plans) depth
    (s.ask .tick tree (r.resolve s w).2).1 = .refused := by
  intro s
  have hkept := r.resolve_coupled (World.growth_locks w.locks).toInvariant.coupling
    (serve_locks plans depth w.locks).coupled ⟨rfl, rfl⟩
  have hlocks : (r.resolve s w).2.locks = w.locks := hkept.2.2
  rw [World.isInUse_eq, ← hlocks, ← World.isInUse_eq] at h
  refine (serve_refuses_iff _ depth .tick tree _).2 (.inr fun root hfree => ?_)
  simp [World.isInUse, hfree] at h

/-- A sub-tree looks for its target once and sticks to it until it is reset.  In every course it is
ticked, reset, started and finished in any order and in any worlds; each operation is exactly the
deeds that are listed for it.  What the sub-tree holds before an operation is the tree that its
supplier gave first since the last reset.  A tick calls the supplier exactly when there is none,
asks the target for one tick, has its status, and fails when the target is in use; without a target
it fails and asks nothing.  Every other operation calls no supplier and is asked of the tree that is
held, once, and of nothing else; a reset lets the tree go, and a start and a finish keep it. -/
theorem sticks_until_reset (plans : Array TreePlan) (depth : Nat) (name : String)
    (supplier : Supplier (Option Supply)) (moves : List (Operation × World))
    (operation : Operation) (w : World) :
    let s := serve (plantFrom plans) depth
    let made := Reference.new .sticky name supplier
    let kept := Stage.kept s (made.course s moves)
    let stage : Stage := ⟨made.afterCourse s moves, operation, w⟩
    let next := made.afterCourse s (moves ++ [(operation, w)])
    let performed := Node.perform s operation (.reference stage.part) w
    stage.part.held = kept ∧ performed.2.1 = .reference next ∧
    Deed.LeadAll s supplier (stage.deeds s) w performed.2.2 ∧
    (operation = .tick →
      Deed.findings (stage.deeds s) = (if kept = none then [stage.found s] else []) ∧
      Deed.requests (stage.deeds s) = (stage.found s).toList.map (Prod.mk .tick) ∧
      next.held = stage.found s ∧
      (∀ tree ∈ kept, stage.found s = some tree) ∧
      (stage.found s = none → performed.1 = .ticked .failure) ∧
      ∀ tree ∈ stage.found s, ∃ earlier answer,
        stage.deeds s = earlier ++ [.ask (.tick, tree) answer] ∧
        performed.1 = .ticked answer.status ∧ (w.isInUse tree = true → answer = .refused)) ∧
    (operation ≠ .tick →
      Deed.findings (stage.deeds s) = [] ∧
      Deed.requests (stage.deeds s) = kept.toList.map (Prod.mk operation) ∧
      next.held = if operation = .reset then none else kept) := by
  intro s made kept stage next performed
  have hkind : stage.part.kind = .sticky := kind_afterCourse moves
  have hheld : stage.part.held = kept := held_eq_kept s rfl rfl moves
  have hnext : next = stage.part.next s operation w := (course_concat moves operation w).2
  have hdeeds := stage.part.leadAll_deeds s operation w
  rw [show stage.part.supplier = supplier from supplier_afterCourse s made moves] at hdeeds
  refine ⟨hheld, ?_, hdeeds, ?_, ?_⟩
  · rw [hnext]
    exact stage.part.perform_reference s operation w
  · rintro rfl
    refine ⟨?_, requests_tick_sticky hkind w, by rw [hnext]; rfl, ?_, ?_, ?_⟩
    · rw [← hheld]
      exact findings_tick_sticky hkind w
    · intro tree htree
      rw [← hheld] at htree
      exact congrArg Prod.fst (resolve_of_held hkind htree w)
    · intro hfound
      exact congrArg Answer.ticked (tick_of_none _ depth hfound)
    · intro tree hfound
      rcases tick_sticky_of_found hkind hfound with ⟨hlast, hstatus⟩
      exact ⟨_, _, hlast, congrArg Answer.ticked hstatus,
        fun hinUse => refused_of_inUse plans depth stage.part hinUse⟩
  · intro hoperation
    have hfindings : Deed.findings (stage.part.deeds s operation w) = [] := by
      rw [findings_deeds, if_neg fun h => hoperation h.1]
    refine ⟨hfindings, ?_, ?_⟩
    · rw [Stage.deeds, requests_deeds_of_ne_tick s stage.part hoperation,
        requests_sticky hkind hoperation, hheld]
    · rw [hnext, held_next_sticky hkind, hfindings, hheld]
      exact congrArg (ite _ none) Option.or_none

-- A sub-tree whose supplier gives nothing at first: it fails, finds its target on the second tick,
-- keeps it through a finish, and looks for it again after the reset.
example :
    let w := ((World.start (.empty .start) (.empty (.seeded 0))).addTree default).2
    let later := (w.countCall 0).2
    let s := serve (plantFrom #[]) 1
    let supplier : Supplier (Option Supply) :=
      .scripted ⟨0, "find", fun n => ⟨[], if n = 0 then none else some (.existing 0)⟩⟩
    let course := (Reference.new .sticky "find" supplier).course s
      [(.tick, w), (.tick, later), (.finish, later), (.tick, later), (.reset, later), (.tick, w)]
    course.map (fun stage => Deed.requests (stage.deeds s)) =
        [[], [(.tick, 0)], [(.finish, 0)], [(.tick, 0)], [(.reset, 0)], []] ∧
      course.map (fun stage => Deed.findings (stage.deeds s)) =
        [[none], [some 0], [], [], [], [none]] :=
  ⟨rfl, rfl⟩

end Reference

end TickTree
