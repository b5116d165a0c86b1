import TickTree.Forest

/-!
# What references do to the world

An operation on a reference is a sequence of deeds: it calls the supplier, writes log records, and
asks its targets.  The deeds are listed here, and doing them one after the other is all that the
operation does to the world.  So whatever is said of the requests in the list is said of what the
reference asks of its targets.

Main results:

- Theorem `Reference.leadAll_deeds`: the deeds of an operation are what it does to the world.
- Theorem `Reference.findings_deeds`: a dynamic sub-tree calls its supplier once on each tick.
- Theorem `Reference.tick_of_found`: a reference has the status that its target answers.
-/

namespace TickTree

/-! ## Deeds -/

/-- Something that a reference does in the course of an operation. -/
inductive Deed where
  /-- Calls the supplier; its answer means a tree or nothing. -/
  | resolve (found : Option TreeId)
  /-- Writes a log record. -/
  | report (message : String)
  /-- Makes a request, and gets an answer. -/
  | ask (request : Request) (answer : Answer)

namespace Deed

variable (s : Service) (supplier : Supplier (Option Supply))

/-- In one world the deed turns out as it says, and it leads to the other world. -/
def Leads : Deed → World → World → Prop
  | resolve found, v, w => s.find (supplier.get s v).1 (supplier.get s v).2 = (found, w)
  | report message, v, w => v.report .debug message = w
  | ask request answer, v, w => s.ask request.1 request.2 v = (answer, w)

/-- Deeds lead from one world to another when they are done one after the other. -/
def LeadAll : List Deed → World → World → Prop
  | [], v, w => v = w
  | deed :: rest, v, w => ∃ u, deed.Leads s supplier v u ∧ LeadAll rest u w

variable {s supplier}

theorem LeadAll.append {first second : List Deed} {u v w : World}
    (h : LeadAll s supplier first u v) (h' : LeadAll s supplier second v w) :
    LeadAll s supplier (first ++ second) u w := by
  induction first generalizing u with
  | nil =>
    cases h
    exact h'
  | cons deed rest ih =>
    rcases h with ⟨after, hdeed, hrest⟩
    exact ⟨after, hdeed, ih hrest⟩

/-- The request that is made in a deed. -/
def request? : Deed → Option Request
  | ask request _ => some request
  | _ => none

/-- The requests that are made in some deeds. -/
def requests (deeds : List Deed) : List Request := deeds.filterMap request?

/-- What the supplier's answer means in a deed in which it is called. -/
def finding? : Deed → Option (Option TreeId)
  | resolve found => some found
  | _ => none

/-- What the supplier's answers mean in some deeds, once for each call. -/
def findings (deeds : List Deed) : List (Option TreeId) := deeds.filterMap finding?

@[simp] theorem requests_append (first second : List Deed) :
    requests (first ++ second) = requests first ++ requests second :=
  List.filterMap_append

@[simp] theorem findings_append (first second : List Deed) :
    findings (first ++ second) = findings first ++ findings second :=
  List.filterMap_append

end Deed

/-- Makes requests one after the other: the requests with their answers. -/
def Service.dialogue (s : Service) : List Request → World → List Deed
  | [], _ => []
  | request :: rest, w =>
    let answer := s.ask request.1 request.2 w
    .ask request answer.1 :: s.dialogue rest answer.2

namespace Service

variable (s : Service)

/-- A dialogue is made of the requests. -/
@[simp] theorem requests_dialogue (requests : List Request) (w : World) :
    Deed.requests (s.dialogue requests w) = requests := by
  induction requests generalizing w with
  | nil => rfl
  | cons request rest ih =>
    simp only [dialogue, Deed.requests, List.filterMap_cons, Deed.request?]
    exact congrArg (request :: ·) (ih _)

/-- No supplier is called in a dialogue. -/
@[simp] theorem findings_dialogue (requests : List Request) (w : World) :
    Deed.findings (s.dialogue requests w) = [] := by
  induction requests generalizing w with
  | nil => rfl
  | cons request rest ih => exact ih _

/-- A dialogue leads to the world in which the requests leave it. -/
theorem leadAll_dialogue (supplier : Supplier (Option Supply)) (requests : List Request)
    (last : Status) (w : World) :
    Deed.LeadAll s supplier (s.dialogue requests w) w (s.send requests last w).2 := by
  induction requests generalizing last w with
  | nil => rfl
  | cons request rest ih => exact ⟨_, rfl, ih _ _⟩

/-- Two parts of a dialogue follow each other. -/
theorem dialogue_append (first second : List Request) (last : Status) (w : World) :
    s.dialogue (first ++ second) w =
      s.dialogue first w ++ s.dialogue second (s.send first last w).2 := by
  induction first generalizing last w with
  | nil => rfl
  | cons request rest ih =>
    simp only [List.cons_append, dialogue, send]
    exact congrArg (_ :: ·) (ih _ _)

end Service

/-! ## Operations -/

namespace Reference

/-- How a tick finds its target: a sub-tree says that it looks for one. -/
def searching (r : Reference) (found : Option TreeId) : List Deed :=
  if r.resolves then
    match r.kind with
    | .sticky => [.report s!"{r.name}::resolve()", .resolve found]
    | .dynamic => [.resolve found]
  else
    []

/-- What a tick reports of its target. -/
def announcing (r : Reference) (found : Option TreeId) : List Deed :=
  match found, r.kind with
  | none, _ => [.report s!"{r.name} resolved to nothing"]
  | some _, .sticky => []
  | some tree, .dynamic =>
    if r.switches tree then [.report s!"{r.name} switched target tree"] else []

/-- All that an operation does to the world. -/
def deeds (s : Service) (r : Reference) (operation : Operation) (w : World) : List Deed :=
  match operation with
  | .tick =>
    let resolved := r.resolve s w
    r.searching resolved.1 ++ r.announcing resolved.1 ++
      s.dialogue (r.tickRequests resolved.1) (r.announce resolved.1 resolved.2)
  | operation => s.dialogue (r.requests operation) w

/-- The reference after any operation. -/
def next (s : Service) (r : Reference) (operation : Operation) (w : World) : Reference :=
  match operation with
  | .tick => r.afterTick (r.resolve s w).1
  | operation => r.after operation

variable (s : Service) (r : Reference)

/-- Looking for the target leads to the world in which it is found. -/
theorem leadAll_searching (w : World) :
    Deed.LeadAll s r.supplier (r.searching (r.resolve s w).1) w (r.resolve s w).2 := by
  unfold searching
  by_cases hresolves : r.resolves
  · rw [if_pos hresolves]
    unfold resolve
    rw [if_pos hresolves]
    cases r.kind with
    | sticky => exact ⟨_, rfl, _, rfl, rfl⟩
    | dynamic => exact ⟨_, rfl, rfl⟩
  · rw [if_neg hresolves]
    unfold resolve
    rw [if_neg hresolves]
    rfl

/-- Reporting on the target leads to the world in which it is reported. -/
theorem leadAll_announcing (found : Option TreeId) (w : World) :
    Deed.LeadAll s r.supplier (r.announcing found) w (r.announce found w) := by
  rcases r with ⟨kind, name, supplier, held⟩
  cases found with
  | none => exact ⟨_, rfl, rfl⟩
  | some tree =>
    cases kind with
    | sticky => rfl
    | dynamic =>
      simp only [announcing, announce]
      split
      · exact ⟨_, rfl, rfl⟩
      · rfl

/-- The deeds of an operation are what it does to the world. -/
theorem leadAll_deeds (operation : Operation) (w : World) :
    Deed.LeadAll s r.supplier (r.deeds s operation w) w
      (Node.perform s operation (.reference r) w).2.2 := by
  cases operation with
  | tick =>
    exact ((r.leadAll_searching s w).append (r.leadAll_announcing s _ _)).append
      (s.leadAll_dialogue r.supplier _ .failure _)
  | reset => exact s.leadAll_dialogue r.supplier (r.requests .reset) .failure w
  | start => exact s.leadAll_dialogue r.supplier (r.requests .start) .failure w
  | finish => exact s.leadAll_dialogue r.supplier (r.requests .finish) .failure w

/-- An operation leaves the next reference. -/
theorem perform_reference (operation : Operation) (w : World) :
    (Node.perform s operation (.reference r) w).2.1 = .reference (r.next s operation w) := by
  cases operation <;> rfl

/-- For a view of deeds that leaves log records out, a search is the call of the supplier, if there
is one. -/
theorem filterMap_searching {α : Type} {view : Deed → Option α}
    (hreport : ∀ message, view (.report message) = none) (found : Option TreeId) :
    (r.searching found).filterMap view =
      if r.resolves = true then (view (.resolve found)).toList else [] := by
  unfold searching
  split
  · cases r.kind <;> cases hview : view (.resolve found) <;> simp [hreport, hview]
  · rfl

/-- For a view of deeds that leaves log records out, a report of the target is nothing. -/
theorem filterMap_announcing {α : Type} {view : Deed → Option α}
    (hreport : ∀ message, view (.report message) = none) (found : Option TreeId) :
    (r.announcing found).filterMap view = [] := by
  unfold announcing
  split
  · simp [hreport]
  · rfl
  · split <;> simp [hreport]

/-- The requests of a tick depend on what was found. -/
theorem requests_deeds_tick (w : World) :
    Deed.requests (r.deeds s .tick w) = r.tickRequests (r.resolve s w).1 := by
  have hsearching : Deed.requests (r.searching (r.resolve s w).1) = [] :=
    (r.filterMap_searching (fun _ => rfl) _).trans (ite_self _)
  have hannouncing : Deed.requests (r.announcing (r.resolve s w).1) = [] :=
    r.filterMap_announcing (fun _ => rfl) _
  simp only [deeds, Deed.requests_append, hsearching, hannouncing, Service.requests_dialogue,
    List.nil_append]

/-- The requests of the other operations are those that the reference has for them. -/
theorem requests_deeds_of_ne_tick {operation : Operation} (h : operation ≠ .tick) (w : World) :
    Deed.requests (r.deeds s operation w) = r.requests operation := by
  cases operation with
  | tick => exact absurd rfl h
  | reset => exact s.requests_dialogue _ w
  | start => exact s.requests_dialogue _ w
  | finish => exact s.requests_dialogue _ w

/-- A reference calls its supplier at most once in an operation, and a dynamic sub-tree calls it
exactly once on each tick. -/
theorem findings_deeds (operation : Operation) (w : World) :
    Deed.findings (r.deeds s operation w) =
      if operation = .tick ∧ r.resolves = true then [(r.resolve s w).1] else [] := by
  cases operation with
  | tick =>
    have hsearching : Deed.findings (r.searching (r.resolve s w).1) =
        if r.resolves = true then [(r.resolve s w).1] else [] :=
      r.filterMap_searching (fun _ => rfl) _
    have hannouncing : Deed.findings (r.announcing (r.resolve s w).1) = [] :=
      r.filterMap_announcing (fun _ => rfl) _
    simp only [deeds, Deed.findings_append, hsearching, hannouncing, Service.findings_dialogue,
      List.append_nil, true_and]
  | reset => exact s.findings_dialogue _ w
  | start => exact s.findings_dialogue _ w
  | finish => exact s.findings_dialogue _ w

/-- What a tick asks before the target is ticked: a dynamic sub-tree that has a new target lets the
old one go and starts the new one. -/
def preparing (r : Reference) (tree : TreeId) : List Request :=
  match r.kind with
  | .sticky => []
  | .dynamic => if r.switches tree then r.release ++ [(.start, tree)] else []

/-- The last request of a tick that finds a tree is a tick of this tree. -/
theorem tickRequests_some (tree : TreeId) :
    r.tickRequests (some tree) = r.preparing tree ++ [(.tick, tree)] := by
  rcases r with ⟨kind, name, supplier, held⟩
  cases kind with
  | sticky => rfl
  | dynamic =>
    simp only [tickRequests, preparing]
    split
    · rw [List.append_assoc]
      rfl
    · rfl

/-- A reference has the status that its target answers to the last request. -/
theorem tick_of_found {tree : TreeId} {w : World} (h : (r.resolve s w).1 = some tree) :
    ∃ earlier answer, r.deeds s .tick w = earlier ++ [.ask (.tick, tree) answer] ∧
      (r.tick s w).status = answer.status := by
  simp only [deeds, tick, h, tickRequests_some, Service.send_append,
    s.dialogue_append (r.preparing tree) [(.tick, tree)] .failure, ← List.append_assoc]
  exact ⟨_, _, rfl, rfl⟩

end Reference

end TickTree
