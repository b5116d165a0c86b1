import Mathlib.Data.List.SplitBy
import TickTree.Proofs.Forest
import TickTree.Proofs.Reference

/-!
# Stints of dynamic sub-trees

A dynamic sub-tree deals with its targets in stints: one tree is started, ticked at least once,
finished and reset.  Ticks belong to one stint as long as they follow each other and find the same
tree; so the stints can be read off what is found, without the reference.

Main results:

- Definition `stints`: the maximal rows of ticks that find one tree.
- Theorem `requestsAfter_flatten`: the requests of such rows are the calls of their stints.
- Theorem `Reference.calls_form_stints`: what a dynamic sub-tree asks of its targets, whatever is
  done to it.
-/

namespace TickTree

/-! ## Stints -/

/-- The time for which a dynamic sub-tree has one target: the tree, and how often it is ticked after
the first time. -/
structure Stint where
  tree : TreeId
  further : Nat
  deriving DecidableEq

/-- The requests that end a stint. -/
def closing : Option TreeId → List Request
  | none => []
  | some tree => [(.finish, tree), (.reset, tree)]

namespace Stint

/-- The requests of a stint that is not over. -/
def opening (s : Stint) : List Request :=
  (.start, s.tree) :: List.replicate (s.further + 1) (.tick, s.tree)

/-- The requests of a stint. -/
def calls (s : Stint) : List Request := s.opening ++ closing (some s.tree)

end Stint

/-- The stint of a row of findings of one tree; there is none when nothing was found. -/
def stint? (row : List (Option TreeId)) : Option Stint :=
  row.head?.join.map fun tree => ⟨tree, row.length - 1⟩

/-- The stints of a course of findings: the maximal rows of one and the same tree. -/
def stints (findings : List (Option TreeId)) : List Stint :=
  (findings.splitBy (· == ·)).filterMap stint?

example : stints [some 1, some 1, none, some 1, some 2] = [⟨1, 1⟩, ⟨1, 0⟩, ⟨2, 0⟩] := rfl

/-! ## Requests -/

/-- What is asked when one tree is held and another one is found, or nothing. -/
def requestsOf (held : Option TreeId) : Option TreeId → List Request
  | none => closing held
  | some tree =>
    if held = some tree then [(.tick, tree)] else closing held ++ [(.start, tree), (.tick, tree)]

/-- What is asked in a course of findings. -/
def requestsAfter : (held : Option TreeId) → List (Option TreeId) → List Request
  | _, [] => []
  | held, found :: rest => requestsOf held found ++ requestsAfter found rest

/-- Findings of the tree that is held are ticks of it, until something else is found. -/
theorem requestsAfter_replicate_some (tree : TreeId) (count : Nat)
    (rest : List (Option TreeId)) :
    requestsAfter (some tree) (List.replicate count (some tree) ++ rest) =
      List.replicate count (.tick, tree) ++ requestsAfter (some tree) rest := by
  induction count with
  | zero => rfl
  | succ count ih =>
    simp only [List.replicate_succ, List.cons_append, requestsAfter, requestsOf, if_pos, ih]
    rfl

/-- While nothing is held and nothing is found, nothing is asked. -/
theorem requestsAfter_replicate_none (count : Nat) (rest : List (Option TreeId)) :
    requestsAfter none (List.replicate count none ++ rest) = requestsAfter none rest := by
  induction count with
  | zero => rfl
  | succ count ih =>
    simp only [List.replicate_succ, List.cons_append, requestsAfter, requestsOf, closing, ih]
    rfl

/-- A row of findings asks for the end of what was held, and then for a stint of its own, which is
not over. -/
theorem requestsAfter_row {held found : Option TreeId} (h : found ≠ none → held ≠ found)
    (count : Nat) (rest : List (Option TreeId)) :
    requestsAfter held (List.replicate (count + 1) found ++ rest) =
      closing held ++ (stint? (List.replicate (count + 1) found)).toList.flatMap Stint.opening ++
        requestsAfter found rest := by
  cases found with
  | none =>
    have hstint : stint? (List.replicate (count + 1) none) = none := rfl
    simp only [List.replicate_succ, List.cons_append, requestsAfter, requestsOf,
      requestsAfter_replicate_none] at hstint ⊢
    simp only [hstint, Option.toList_none, List.flatMap_nil, List.append_nil]
  | some tree =>
    have hheld : held ≠ some tree := h (Option.some_ne_none tree)
    have hstint : stint? (List.replicate (count + 1) (some tree)) = some ⟨tree, count⟩ := by
      simp [stint?, List.replicate_succ]
    rw [hstint, List.replicate_succ, List.cons_append, requestsAfter, requestsOf, if_neg hheld,
      requestsAfter_replicate_some]
    simp [Stint.opening, List.replicate_succ]

/-- The requests of rows of findings, each of another tree than the one before it, are the calls of
their stints; the last one is ended in addition. -/
theorem requestsAfter_flatten (rows : List (List (Option TreeId))) (held : Option TreeId)
    (hrows : ∀ row ∈ rows, ∃ found count, row = List.replicate (count + 1) found)
    (hheld : ∀ row ∈ rows.head?, ∀ found ∈ row.head?, found ≠ none → held ≠ found)
    (hchange : rows.IsChain fun row next => ∀ last ∈ row.getLast?, ∀ found ∈ next.head?,
      last ≠ found) :
    requestsAfter held rows.flatten ++ closing (rows.flatten.getLast?.getD held) =
      closing held ++ (rows.filterMap stint?).flatMap Stint.calls := by
  induction rows generalizing held with
  | nil => simp [requestsAfter]
  | cons row rest ih =>
    rcases hrows row List.mem_cons_self with ⟨found, count, rfl⟩
    have hfirst : found ≠ none → held ≠ found := hheld _ rfl found rfl
    have hnext : ∀ row ∈ rest.head?, ∀ other ∈ row.head?, other ≠ none → found ≠ other := by
      intro row hrow other hother _
      have hbreak := (List.isChain_cons.1 hchange).1 row hrow
      exact hbreak found (by simp [List.getLast?_replicate]) other hother
    have hrest := ih found (fun row h => hrows row (List.mem_cons_of_mem _ h)) hnext
      (List.isChain_cons.1 hchange).2
    have hlast : (List.replicate (count + 1) found ++ rest.flatten).getLast?.getD held =
        rest.flatten.getLast?.getD found := by
      rw [List.getLast?_append]
      cases rest.flatten.getLast? <;> simp [List.getLast?_replicate]
    rw [List.flatten_cons, hlast, requestsAfter_row hfirst, List.append_assoc, hrest]
    cases found with
    | none => simp [stint?, closing, List.replicate_succ]
    | some tree => simp [stint?, List.replicate_succ, Stint.calls]

/-- The rows of a course of findings are of one finding each, and each of another one than the row
before it. -/
theorem rows_splitBy (findings : List (Option TreeId)) :
    (∀ row ∈ findings.splitBy (· == ·), ∃ found count, row = List.replicate (count + 1) found) ∧
    (findings.splitBy (· == ·)).IsChain fun row next =>
      ∀ last ∈ row.getLast?, ∀ found ∈ next.head?, last ≠ found := by
  constructor
  · intro row hrow
    have hsame := List.isChain_of_mem_splitBy hrow
    simp only [beq_iff_eq] at hsame
    cases row with
    | nil => exact absurd rfl (List.ne_nil_of_mem_splitBy hrow)
    | cons found others =>
      refine ⟨found, others.length, ?_⟩
      rw [List.replicate_succ, ← List.isChain_cons_eq_iff_eq_replicate.1 hsame]
  · apply (List.isChain_getLast_head_splitBy (· == ·) findings).imp
    intro row next hbreak last hlast found hfound
    rcases hbreak with ⟨hrow, hnext, hbreak⟩
    rw [List.getLast?_eq_some_getLast hrow] at hlast
    rw [List.head?_eq_some_head hnext] at hfound
    cases hlast
    cases hfound
    simpa only [beq_eq_false_iff_ne] using hbreak

/-- What is asked in a course of findings, with the end of the last stint in addition, are the calls
of its stints. -/
theorem requestsAfter_eq_stints (findings : List (Option TreeId)) :
    requestsAfter none findings ++ closing findings.getLast?.join =
      (stints findings).flatMap Stint.calls := by
  rcases rows_splitBy findings with ⟨hrows, hchange⟩
  have hflatten := requestsAfter_flatten _ none hrows (fun _ _ _ _ h => h.symm) hchange
  rw [List.flatten_splitBy] at hflatten
  have hlast : findings.getLast?.join = findings.getLast?.getD none := by
    cases findings.getLast? <;> rfl
  rw [hlast]
  exact hflatten

/-- When a tree was found last, the last stint is one of this tree. -/
theorem stints_eq_append {findings : List (Option TreeId)} {tree : TreeId}
    (h : findings.getLast? = some (some tree)) :
    ∃ ended running, stints findings = ended ++ [running] ∧ running.tree = tree := by
  have hfindings : findings ≠ [] := by
    rintro rfl
    cases h
  have hlast := List.getLast_getLast_splitBy (· == ·) hfindings
  rw [List.getLast?_eq_some_getLast hfindings, Option.some.injEq, ← hlast] at h
  have hrows : findings.splitBy (· == ·) ≠ [] := List.splitBy_ne_nil.2 hfindings
  rcases (rows_splitBy findings).1 _ (List.getLast_mem hrows) with ⟨found, count, hrow⟩
  have hfound : found = some tree := by
    rw [← h, ← Option.some.injEq, ← List.getLast?_eq_some_getLast, hrow, List.getLast?_replicate]
    rfl
  refine ⟨((findings.splitBy (· == ·)).dropLast).filterMap stint?, ⟨tree, count⟩, ?_, rfl⟩
  conv_lhs => rw [stints, ← List.dropLast_append_getLast hrows, hrow, hfound]
  simp [stint?, List.replicate_succ]

/-- What is asked in a course of findings are the calls of its stints, except that the last stint is
not ended when a tree was found last. -/
theorem requestsAfter_eq (findings : List (Option TreeId)) :
    ∃ ended running, stints findings = ended ++ Option.toList running ∧
      running.map Stint.tree = findings.getLast?.join ∧
      requestsAfter none findings =
        ended.flatMap Stint.calls ++ running.toList.flatMap Stint.opening := by
  have hstints := requestsAfter_eq_stints findings
  rcases hlast : findings.getLast?.join with _ | tree
  · rw [hlast, closing, List.append_nil] at hstints
    exact ⟨stints findings, none, by simp, rfl, by simpa using hstints⟩
  · rcases stints_eq_append (Option.join_eq_some_iff.1 hlast) with ⟨ended, running, heq, rfl⟩
    refine ⟨ended, some running, heq, rfl, ?_⟩
    rw [hlast, heq, List.flatMap_append, List.flatMap_singleton, Stint.calls,
      ← List.append_assoc] at hstints
    simpa using List.append_cancel_right hstints

/-! ## Courses of a reference -/

/-- One operation in the course of a reference: the reference before it, and the world that it
finds. -/
structure Stage where
  part : Reference
  operation : Operation
  world : World

namespace Stage

/-- All that is done in a stage. -/
def deeds (s : Service) (stage : Stage) : List Deed :=
  stage.part.deeds s stage.operation stage.world

/-- The tree that is found in a stage.  Nothing but a tick finds a tree. -/
def found (s : Service) (stage : Stage) : Option TreeId :=
  match stage.operation with
  | .tick => (stage.part.resolve s stage.world).1
  | _ => none

end Stage

namespace Reference

/-- The course of a reference on which operations are carried out.  Each operation finds a world of
its own: what happens to the world in between is up to the host. -/
def course (s : Service) : List (Operation × World) → Reference → List Stage
  | [], _ => []
  | (operation, w) :: rest, r => ⟨r, operation, w⟩ :: course s rest (r.next s operation w)

/-- The reference at the end of its course. -/
def afterCourse (s : Service) : List (Operation × World) → Reference → Reference
  | [], r => r
  | (operation, w) :: rest, r => afterCourse s rest (r.next s operation w)

/-- No operation changes how a reference finds its targets. -/
theorem kind_next (s : Service) (r : Reference) (operation : Operation) (w : World) :
    (r.next s operation w).kind = r.kind ∧ (r.next s operation w).supplier = r.supplier := by
  rcases r with ⟨kind, name, supplier, held⟩
  cases operation <;> cases kind <;> exact ⟨rfl, rfl⟩

section

variable {s : Service} {r : Reference} (hkind : r.kind = .dynamic)
include hkind

/-- A dynamic sub-tree asks for the end of its stint when it is let go. -/
theorem release_of_dynamic : r.release = closing r.held := by
  unfold release
  rw [hkind]
  cases r.held <;> rfl

/-- What a dynamic sub-tree asks in a stage is what its finding calls for. -/
theorem requests_stage {operation : Operation} (h : operation ≠ .start) (w : World) :
    let stage : Stage := ⟨r, operation, w⟩
    Deed.requests (stage.deeds s) = requestsOf r.held (stage.found s) ∧
      (r.next s operation w).held = stage.found s := by
  have hrelease := release_of_dynamic hkind
  cases operation with
  | tick =>
    refine ⟨?_, rfl⟩
    simp only [Stage.deeds, Stage.found, requests_deeds_tick]
    cases (r.resolve s w).1 with
    | none => exact hrelease
    | some tree =>
      simp only [tickRequests, hkind, switches, requestsOf, hrelease]
      by_cases hheld : r.held = some tree
      · simp [hheld]
      · simp [hheld]
  | reset =>
    refine ⟨?_, rfl⟩
    rw [Stage.deeds, requests_deeds_of_ne_tick s r (show Operation.reset ≠ .tick by decide)]
    exact hrelease
  | start => exact absurd rfl h
  | finish =>
    have hafter : (r.after .finish).held = none := by
      simp only [after, hkind, letGo]
    refine ⟨?_, hafter⟩
    rw [Stage.deeds, requests_deeds_of_ne_tick s r (show Operation.finish ≠ .tick by decide),
      requests, hkind]
    exact hrelease

/-- A dynamic sub-tree calls its supplier once on each tick, and otherwise not at all. -/
theorem findings_stage (operation : Operation) (w : World) :
    let stage : Stage := ⟨r, operation, w⟩
    Deed.findings (stage.deeds s) = if operation = .tick then [stage.found s] else [] := by
  have hresolves : r.resolves = true := by
    unfold resolves
    rw [hkind]
  simp only [Stage.deeds, findings_deeds, hresolves, and_true]
  cases operation with
  | tick => rfl
  | reset => rfl
  | start => rfl
  | finish => rfl

/-- What a dynamic sub-tree asks in its course is what its findings call for. -/
theorem requests_course (moves : List (Operation × World))
    (hmoves : ∀ move ∈ moves, move.1 ≠ .start) :
    (r.course s moves).flatMap (fun stage => Deed.requests (stage.deeds s)) =
        requestsAfter r.held ((r.course s moves).map (Stage.found s)) ∧
      (r.afterCourse s moves).held =
        ((r.course s moves).map (Stage.found s)).getLast?.getD r.held := by
  induction moves generalizing r with
  | nil => exact ⟨rfl, rfl⟩
  | cons move rest ih =>
    rcases move with ⟨operation, w⟩
    have hoperation : operation ≠ .start := hmoves (operation, w) List.mem_cons_self
    have hstage := requests_stage (s := s) hkind hoperation w
    rcases hstage with ⟨hrequests, hheld⟩
    have hnext : (r.next s operation w).kind = .dynamic :=
      (r.kind_next s operation w).1.trans hkind
    rcases ih hnext fun move h => hmoves move (List.mem_cons_of_mem _ h) with ⟨hrest, hlast⟩
    rw [hheld] at hrest hlast
    constructor
    · simp only [course, List.flatMap_cons, List.map_cons, requestsAfter, hrequests, hrest]
    · simp only [course, afterCourse, List.map_cons, hlast, List.getLast?_cons, Option.getD_some]

end

/-- In all stages of a course the reference finds its targets in the same way. -/
theorem kind_of_mem_course {s : Service} {r : Reference} {moves : List (Operation × World)}
    {stage : Stage} (h : stage ∈ r.course s moves) :
    stage.part.kind = r.kind ∧ stage.part.supplier = r.supplier := by
  induction moves generalizing r with
  | nil => cases h
  | cons move rest ih =>
    cases h with
    | head => exact ⟨rfl, rfl⟩
    | tail _ h =>
      have hnext := r.kind_next s move.1 move.2
      rcases ih h with ⟨hkind, hsupplier⟩
      exact ⟨hkind.trans hnext.1, hsupplier.trans hnext.2⟩

/-- The operations of a course are those that are carried out. -/
theorem map_operation_course (s : Service) (r : Reference) (moves : List (Operation × World)) :
    (r.course s moves).map Stage.operation = moves.map Prod.fst := by
  induction moves generalizing r with
  | nil => rfl
  | cons move rest ih => simp only [course, List.map_cons, ih]

/-! ## The protocol -/

/-- Requests other than ticks have the status of a failure. -/
theorem status_send_of_ne_tick (plant : PlanId → World → Option TreeId × World) (depth : Nat)
    (requests : List Request) (h : ∀ request ∈ requests, request.1 ≠ .tick) (w : World) :
    ((serve plant depth).send requests .failure w).1 = .failure := by
  induction requests generalizing w with
  | nil => rfl
  | cons request rest ih =>
    rcases request with ⟨operation, tree⟩
    have hoperation : operation ≠ .tick := h (operation, tree) List.mem_cons_self
    have hanswer : ((serve plant depth).ask operation tree w).1.status = .failure := by
      have hcases := serve_ask_cases plant depth operation tree w
      rcases hcases with ⟨further, root, rfl, -, hasked⟩ | hasked | ⟨-, hasked⟩
      · rw [hasked]
        cases operation with
        | tick => exact absurd rfl hoperation
        | reset => rfl
        | start => rfl
        | finish => rfl
      · rw [hasked]
        rfl
      · rw [hasked]
        rfl
    simp only [Service.send, hanswer]
    exact ih (fun request h' => h request (List.mem_cons_of_mem _ h')) _

/-- A dynamic sub-tree that finds nothing fails. -/
theorem tick_of_none (plant : PlanId → World → Option TreeId × World) (depth : Nat)
    {r : Reference} {w : World} (h : (r.resolve (serve plant depth) w).1 = none) :
    (r.tick (serve plant depth) w).status = .failure := by
  simp only [tick, h]
  apply status_send_of_ne_tick
  rcases r with ⟨kind, name, supplier, held⟩
  cases kind <;> cases held <;> simp [tickRequests, release]

/-- The protocol of a dynamic sub-tree.  In its course it is ticked, reset and finished in any order
and in any worlds; each operation is exactly the deeds that are listed for it, and leaves the
reference of the next stage.  Then its requests, in order, are those of its stints, of which the
last is still open when a tree is held.  Each tick calls the supplier once and has the status of the
target's tick; it fails when nothing is found.  Where nothing is held and nothing is found, nothing
is asked. -/
theorem calls_form_stints (plant : PlanId → World → Option TreeId × World) (depth : Nat)
    (name : String) (supplier : Supplier (Option Supply)) (moves : List (Operation × World))
    (hmoves : ∀ move ∈ moves, move.1 ≠ .start) :
    let s := serve plant depth
    let made := Reference.new .dynamic name supplier
    let course := made.course s moves
    let findings := course.map (Stage.found s)
    (∃ ended running, stints findings = ended ++ Option.toList running ∧
      running.map Stint.tree = (made.afterCourse s moves).held ∧
      course.flatMap (fun stage => Deed.requests (stage.deeds s)) =
        ended.flatMap Stint.calls ++ running.toList.flatMap Stint.opening) ∧
    ∀ stage ∈ course,
      let performed := Node.perform s stage.operation (.reference stage.part) stage.world
      performed.2.1 = .reference (stage.part.next s stage.operation stage.world) ∧
      Deed.LeadAll s supplier (stage.deeds s) stage.world performed.2.2 ∧
      Deed.findings (stage.deeds s) =
        (if stage.operation = .tick then [stage.found s] else []) ∧
      (stage.operation = .tick → stage.found s = none → performed.1 = .ticked .failure) ∧
      (∀ tree, stage.found s = some tree → ∃ earlier answer,
        stage.deeds s = earlier ++ [.ask (.tick, tree) answer] ∧
        performed.1 = .ticked answer.status) ∧
      (stage.part.held = none → stage.found s = none → Deed.requests (stage.deeds s) = []) := by
  intro s made course findings
  constructor
  · have hcourse := requests_course (s := s) (r := made) rfl moves hmoves
    rcases hcourse with ⟨hrequests, hheld⟩
    have hlast : (made.afterCourse s moves).held = findings.getLast?.join := by
      rw [hheld]
      cases findings.getLast? <;> rfl
    rw [hlast, hrequests]
    exact requestsAfter_eq findings
  · intro stage hstage
    rcases stage with ⟨part, operation, w⟩
    have hpart := kind_of_mem_course hstage
    rcases hpart with ⟨hkind, hsupplier⟩
    have hmove : operation ∈ course.map Stage.operation :=
      List.mem_map.2 ⟨⟨part, operation, w⟩, hstage, rfl⟩
    rw [map_operation_course] at hmove
    have hoperation : operation ≠ .start := by
      rcases List.mem_map.1 hmove with ⟨move, hmem, rfl⟩
      exact hmoves move hmem
    refine ⟨part.perform_reference s operation w, ?_, findings_stage hkind operation w, ?_, ?_, ?_⟩
    · have hdeeds := part.leadAll_deeds s operation w
      rw [hsupplier] at hdeeds
      exact hdeeds
    · intro htick hfound
      cases htick
      exact congrArg Answer.ticked (tick_of_none plant depth hfound)
    · intro tree hfound
      cases operation with
      | tick =>
        rcases part.tick_of_found s hfound with ⟨earlier, answer, hdeeds, hstatus⟩
        exact ⟨earlier, answer, hdeeds, congrArg Answer.ticked hstatus⟩
      | reset => cases hfound
      | start => cases hfound
      | finish => cases hfound
    · intro hheld hfound
      have hrequests := (requests_stage (s := s) hkind hoperation w).1
      rw [hrequests, hheld, hfound]
      rfl

/-- Two ticks, a reset and a third tick make two stints of one tree, of which the second one is
open. -/
theorem calls_form_stints_twoStints :
    let w := ((World.start (.empty .start) (.empty (.seeded 0))).addTree default).2
    let s := serve (plantFrom #[]) 1
    let made := Reference.new .dynamic "follow" (.constant (some (.existing 0)))
    let course := made.course s [(.tick, w), (.tick, w), (.reset, w), (.tick, w)]
    course.flatMap (fun stage => Deed.requests (stage.deeds s)) =
      (⟨0, 1⟩ : Stint).calls ++ (⟨0, 0⟩ : Stint).opening := by
  intro w s made course
  have hmoves : ∀ move ∈ [(Operation.tick, w), (.tick, w), (.reset, w), (.tick, w)],
      move.1 ≠ .start := by
    simp
  have hprotocol := calls_form_stints (plantFrom #[]) 1 "follow" (.constant (some (.existing 0)))
    [(.tick, w), (.tick, w), (.reset, w), (.tick, w)] hmoves
  rcases hprotocol.1 with ⟨ended, running, hstints, hheld, hrequests⟩
  have hfound : stints (course.map (Stage.found s)) = [⟨0, 1⟩, ⟨0, 0⟩] := rfl
  rcases running with _ | last
  · cases hheld
  · have heq : [(⟨0, 1⟩ : Stint)] ++ [⟨0, 0⟩] = ended ++ [last] := hfound.symm.trans hstints
    rcases List.append_inj' heq rfl with ⟨rfl, hlast⟩
    cases hlast
    exact hrequests

end Reference

end TickTree
