import TickTree.Proofs.Reset.Target

/-!
# Going on after a reset

What a node does depends on its own state and on what is outside it, and on nothing that happened
before.  So a node that was reset goes on like a node fresh from its constructors.

Main results:

- Theorem `Node.moves_related`: nodes that stay related give the same answers.
- Theorem `Node.answers_eq`: nodes in worlds with the same outside give the same answers.
- Theorem `Node.reset_restores`: a reset returns a tree to its construction state.
-/

namespace TickTree

/-! ## The outside of a node -/

/-- What the work of a node depends on besides its own state. -/
structure World.Outside where
  clocks : Table Clock
  sources : Table Source
  calls : Table Nat
  trees : Table (Option Tree)
  directory : Directory
  issued : Nat

/-- The outside of the nodes at work. -/
def World.outside (w : World) : World.Outside :=
  ⟨w.clocks, w.sources, w.calls, w.trees, w.directory, w.issued⟩

/-- Two worlds have the same outside. -/
def World.SameOutside (v w : World) : Prop := v.outside = w.outside

namespace World

/-- A fault leaves the outside as it is. -/
theorem outside_fail (fault : Fault) (w : World) : (w.fail fault).outside = w.outside := by
  unfold fail
  split <;> rfl

/-- Steps of a clock depend on the outside only. -/
theorem sameOutside_advance {v w : World} (clock : ClockId) (step : Duration)
    (h : v.SameOutside w) : (v.advance clock step).SameOutside (w.advance clock step) := by
  have hclocks : v.clocks = w.clocks := congrArg Outside.clocks h
  unfold advance
  rw [hclocks]
  split
  · simp only [SameOutside, outside, Outside.mk.injEq] at h ⊢
    simp only [h, and_self]
  · exact (outside_fail _ v).trans (h.trans (outside_fail _ w).symm)

/-- All work depends on the outside only. -/
theorem tending_sameOutside : Tending SameOutside where
  emit _ h := h
  fail fault h := (outside_fail fault _).trans (h.trans (outside_fail fault _).symm)
  now clock h := by
    have hclocks := congrArg Outside.clocks h
    exact congrArg (fun clocks : Table Clock => (clocks.get clock).now) hclocks
  advance := sameOutside_advance
  setClock clock reading h := by
    simp only [SameOutside, outside, Outside.mk.injEq] at h
    simp only [SameOutside, outside, setClock, h]
  draw draw take source h := by
    simp only [SameOutside, outside, Outside.mk.injEq] at h
    constructor
    · simp only [drawWith, h]
    · simp only [SameOutside, outside, drawWith, emit, h]
  countCall seat h := by
    simp only [SameOutside, outside, Outside.mk.injEq] at h
    constructor
    · simp only [countCall, h]
    · simp only [SameOutside, outside, countCall, h]
  named name h := congrArg (fun directory => directory.find? name) (congrArg Outside.directory h)
  found tree h := by
    have htrees := congrArg Outside.trees h
    exact congrArg (fun trees : Table (Option Tree) => (trees.get tree).isSome) htrees
  issue count h := by
    simp only [SameOutside, outside, Outside.mk.injEq] at h
    constructor
    · simp only [issue, h]
    · simp only [SameOutside, outside, issue, h]
  letLoose _ h := h
  addTree root h := by
    simp only [SameOutside, outside, Outside.mk.injEq] at h
    constructor
    · simp only [addTree, h]
    · simp only [SameOutside, outside, addTree, putTree, h]
  tree tree h := by
    have htrees := congrArg Outside.trees h
    exact congrArg (fun trees : Table (Option Tree) => trees.get tree) htrees
  holdTree tree root h := by
    simp only [SameOutside, outside, Outside.mk.injEq] at h
    simp only [SameOutside, outside, holdTree, h]
  putTree tree root h := by
    simp only [SameOutside, outside, Outside.mk.injEq] at h
    simp only [SameOutside, outside, putTree, h]

end World

/-! ## Courses of a tree -/

/-- A move in the course of a tree: an operation on its root, or something that the host does. -/
inductive Move where
  | perform (operation : Operation)
  | act (effect : Effect)

namespace Node

/-- The answers of a node in the course of some moves. -/
def answers (s : Service) : List Move → Node → World → List Answer
  | [], _, _ => []
  | .perform operation :: rest, n, w =>
    let performed := n.perform s operation w
    performed.1 :: answers s rest performed.2.1 performed.2.2
  | .act effect :: rest, n, w => answers s rest n (effect.perform s w)

/-- The state of a node after some moves, and the world after them. -/
def left (s : Service) : List Move → Node → World → Node × World
  | [], n, w => (n, w)
  | .perform operation :: rest, n, w =>
    let performed := n.perform s operation w
    left s rest performed.2.1 performed.2.2
  | .act effect :: rest, n, w => left s rest n (effect.perform s w)

/-- Two nodes in two worlds that stay related under all operations, and under what the host does,
give the same answers in a course and are related after it. -/
theorem moves_related {s t : Service} {T : Node × World → Node × World → Prop} {moves : List Move}
    (hperform : ∀ (operation : Operation) (x y : Node × World), T x y →
      (x.1.perform s operation x.2).1 = (y.1.perform t operation y.2).1 ∧
        T (x.1.perform s operation x.2).2 (y.1.perform t operation y.2).2)
    (hact : ∀ effect, .act effect ∈ moves → ∀ x y : Node × World, T x y →
      T (x.1, effect.perform s x.2) (y.1, effect.perform t y.2))
    {x y : Node × World} (h : T x y) :
    x.1.answers s moves x.2 = y.1.answers t moves y.2 ∧
      T (x.1.left s moves x.2) (y.1.left t moves y.2) := by
  induction moves generalizing x y with
  | nil => exact ⟨rfl, h⟩
  | cons move rest ih =>
    have hrest := fun effect heffect => hact effect (List.mem_cons_of_mem _ heffect)
    cases move with
    | perform operation =>
      rcases hperform operation x y h with ⟨hanswer, hafter⟩
      rcases ih hrest hafter with ⟨hanswers, hleft⟩
      simp only [answers, left, hanswer, hanswers]
      exact ⟨trivial, hleft⟩
    | act effect => exact ih hrest (hact effect List.mem_cons_self x y h)

/-- Nodes in worlds with the same outside give the same answers. -/
theorem answers_eq (plans : Array TreePlan) (depth : Nat) (moves : List Move) (n : Node)
    {v w : World} (h : v.SameOutside w) :
    n.answers (serve (plantFrom plans) depth) moves v =
      n.answers (serve (plantFrom plans) depth) moves w := by
  have hcoupling := World.tending_sameOutside.toCoupling
  have hservice := serve_coupled World.tending_sameOutside plans depth
  refine (moves_related (T := fun x y => x.1 = y.1 ∧ x.2.SameOutside y.2) ?_ ?_ (x := (n, v))
    (y := (n, w)) ⟨rfl, h⟩).1
  · rintro operation ⟨n, v⟩ ⟨_, w⟩ ⟨rfl, hw⟩
    exact n.perform_coupled hcoupling hservice operation hw
  · rintro effect - ⟨n, v⟩ ⟨_, w⟩ ⟨rfl, hw⟩
    exact ⟨rfl, Effect.performAll_coupled hcoupling hservice [effect] hw⟩

/-- A reset returns a tree to its construction state.  The tree is made of library nodes, and any
operations were carried out on it in any worlds; then it is reset.  It is left as it was made; the
free targets that it held are in their first states; another run leaves it the same; a second reset
changes nothing; and from there on it answers as a fresh tree would with the same outside. -/
theorem reset_restores (plans : Array TreePlan) (depth : Nat) {made n : Node}
    (hmade : made.IsNew) (hn : Reachable made n) (w : World) :
    let s := serve (plantFrom plans) (depth + 1)
    let left := n.reset s w
    left.1 = made ∧
    (∀ tree ∈ n.targets, ∀ root, w.trees.get tree = some ⟨root, false⟩ →
      left.2.trees.get tree = some ⟨root.cleared, false⟩) ∧
    (∀ (other : Node) (v : World), Reachable made other → (other.reset s v).1 = left.1) ∧
    ((left.1.reset s left.2).1 = left.1 ∧
      (left.1.reset s left.2).2.clearHistory = left.2.clearHistory) ∧
    ∀ (moves : List Move) (v : World), left.2.SameOutside v →
      left.1.answers s moves left.2 = made.answers s moves v := by
  intro s left
  have hleft : left.1 = made := fst_reset_of_reachable hmade hn s w
  have hcleared : made.cleared = made := made.isNew_iff.1 hmade
  refine ⟨hleft, ?_, ?_, ⟨?_, ?_⟩, ?_⟩
  · intro tree htree root hroot
    exact reset_target plans depth n htree hroot
  · intro other v hother
    rw [hleft]
    exact fst_reset_of_reachable hmade hother s v
  · rw [hleft, fst_reset, hcleared]
  · have htargets : left.1.targets = [] := by
      rw [hleft, ← hcleared]
      exact made.targets_cleared
    exact left.1.clearHistory_reset s htargets left.2
  · intro moves v hv
    rw [hleft]
    exact made.answers_eq plans (depth + 1) moves hv

/-- A countdown under a sequence is as it was made when it is reset after a tick. -/
theorem reset_restores_countdown :
    let made := composite (.ofKind .sequence) [.leaf (.countdown "three" 3 3)]
    let w := World.start (.empty .start) (.empty (.seeded 0))
    made.IsNew ∧ (made.tick (serve (plantFrom #[]) 1) w).state ≠ made ∧
      ((made.tick (serve (plantFrom #[]) 1) w).state.reset (serve (plantFrom #[]) 1) w).1 =
        made := by
  intro made w
  have hmade : made.IsNew := by
    apply IsNew.composite (.chain .sequence _)
    intro child hchild
    rw [List.mem_singleton.1 hchild]
    exact .leaf (.countdown "three" 3)
  have hticked : Reachable made (made.tick (serve (plantFrom #[]) 1) w).state :=
    .perform (serve (plantFrom #[]) 1) .tick w .made
  refine ⟨hmade, ?_, (reset_restores #[] 0 hmade hticked w).1⟩
  intro h
  simp [made, tick, offers, Composite.ofKind, Composite.named, Composite.tick, Chain.pass,
    Leaf.tick, Composite.settle, Ticked.map, Chain.passes, Status.isCompleted] at h

end Node

end TickTree
