import TickTree.Proofs.Forest

/-!
# Visits of shared trees

While a host holds a shared tree it may do with the root whatever it likes, call other trees, and
hold further trees meanwhile.  A visit is such a course of action, as data; what it does next may
depend on everything it has seen.

Main results:

- Theorem `Visit.locks_run`: a visit changes no lock.
- Theorem `serve_not_reentrant`: a shared tree is never entered twice, and refused calls change
  nothing.
-/

namespace TickTree

/-! ## Visits -/

/-- What a host does with a tree that it holds. -/
inductive Visit (α : Type) where
  | done (value : α)
  /-- Looks at the root and at the world. -/
  | look (next : Node → World → Visit α)
  /-- Changes the root by hand. -/
  | edit (change : Node → Node) (next : Visit α)
  /-- Carries out an operation on the root. -/
  | perform (operation : Operation) (next : Answer → Visit α)
  /-- Asks an operation of a shared tree, which may be the one that is held. -/
  | ask (operation : Operation) (tree : TreeId) (next : Answer → Visit α)
  /-- Holds a shared tree for a visit inside this one. -/
  | enter (tree : TreeId) (inner : Visit α) (next : Option α → Visit α)
  /-- Makes a shared tree. -/
  | share (root : Node) (next : TreeId → Visit α)
  /-- Moves a clock, writes to the log, or asks a tree by its name. -/
  | act (effect : Effect) (next : Visit α)

/-- Carries out a visit. -/
def Visit.run {α : Type} (s : Service) : Visit α → Node → World → α × Node × World
  | done value, n, w => (value, n, w)
  | look next, n, w => (next n w).run s n w
  | edit change next, n, w => next.run s (change n) w
  | perform operation next, n, w =>
    let performed := n.perform s operation w
    (next performed.1).run s performed.2.1 performed.2.2
  | ask operation tree next, n, w =>
    let asked := s.ask operation tree w
    (next asked.1).run s n asked.2
  | enter tree inner next, n, w =>
    let entered := w.withTree tree (inner.run s)
    (next entered.1).run s n entered.2
  | share root next, n, w =>
    let shared := w.addTree root
    (next shared.1).run s n shared.2
  | act effect next, n, w => next.run s n (effect.perform s w)

/-- A visit changes no lock. -/
theorem Visit.locks_run {α : Type} (plans : Array TreePlan) (depth : Nat) (visit : Visit α)
    (n : Node) (w : World) :
    (visit.run (serve (plantFrom plans) depth) n w).2.2.locks = w.locks := by
  induction visit generalizing n w with
  | done value => rfl
  | look next ih => exact ih n w n w
  | edit change next ih => exact ih (change n) w
  | perform operation next ih =>
    exact (ih _ _ _).trans (n.locks_perform plans depth operation w)
  | ask operation tree next ih =>
    exact (ih _ n _).trans ((serve_locks plans depth w.locks).1 operation tree rfl)
  | enter tree inner next ihinner ih =>
    exact (ih _ n _).trans (World.locks_withTree tree ihinner w)
  | share root next ih => exact (ih _ n _).trans (World.locks_addTree root w)
  | act effect next ih =>
    have heffect : World.Itself (fun v => v.locks = w.locks)
        (Effect.performAll (serve (plantFrom plans) depth) [effect] w)
        (Effect.performAll (serve (plantFrom plans) depth) [effect] w) :=
      Effect.performAll_coupled (World.growth_locks w.locks).toInvariant.coupling
        (serve_locks plans depth w.locks).coupled [effect] ⟨rfl, rfl⟩
    exact (ih n _).trans heffect.2

/-! ## Shared trees are entered once -/

/-- The same trees are in use in both worlds, and those in use have the same roots. -/
def World.SameInUse (v w : World) : Prop :=
  ∀ tree, v.isInUse tree = w.isInUse tree ∧
    (w.isInUse tree = true → v.trees.get tree = w.trees.get tree)

theorem World.sameInUse_of_locks {v w : World} (h : v.locks = w.locks) : v.SameInUse w := by
  intro tree
  constructor
  · rw [isInUse_eq, isInUse_eq, h]
  · intro htree
    rw [isInUse_eq] at htree
    rcases Option.isSome_iff_exists.1 htree with ⟨root, hroot⟩
    rw [locks_eq_some.1 hroot]
    rw [← h] at hroot
    exact locks_eq_some.1 hroot

/-- A shared tree is never entered twice, and refused calls change nothing.  Whatever trees, plans
and callbacks there are: a request and a visit leave the same trees in use, with the same roots; on
a tree in use they only write a warning; and a tick of a free tree is one tick of its root, during
which all requests to the tree are refused. -/
theorem serve_not_reentrant (plans : Array TreePlan) (depth : Nat) (tree : TreeId) (w : World) :
    let s := serve (plantFrom plans) depth
    let refused :=
      { w with history :=
          .logged .warn "[reactive_bt]: shared tree re-entered while in use" :: w.history }
    (∀ operation, (s.ask operation tree w).2.SameInUse w) ∧
    (∀ (α : Type) (visit : Visit α), (w.withTree tree (visit.run s)).2.SameInUse w) ∧
    (w.isInUse tree = true →
      (∀ operation, s.ask operation tree w = (.refused, refused)) ∧
      Answer.refused.status = .failure ∧
      ∀ (α : Type) (visit : Visit α), w.withTree tree (visit.run s) = (none, refused)) ∧
    (∀ root, w.trees.get tree = some ⟨root, false⟩ →
      let t := root.tick s (w.holdTree tree root)
      (serve (plantFrom plans) (depth + 1)).ask .tick tree w =
        (.ticked t.status, t.world.putTree tree t.state) ∧
      root.tick (serveWithout tree (plantFrom plans) depth) (w.holdTree tree root) = t) := by
  intro s refused
  refine ⟨?_, ?_, ?_, ?_⟩
  · intro operation
    have hlocks := (serve_locks plans depth w.locks).1 operation tree rfl
    exact World.sameInUse_of_locks hlocks
  · intro α visit
    have hlocks := World.locks_withTree tree (visit.locks_run plans depth) w
    exact World.sameInUse_of_locks hlocks
  · intro hinUse
    refine ⟨?_, rfl, ?_⟩
    · intro operation
      cases depth with
      | zero => rfl
      | succ depth =>
        show (serve (plantFrom plans) (depth + 1)).ask operation tree w = _
        rw [serve_ask, World.withTree_of_inUse hinUse]
        rfl
    · intro α visit
      exact World.withTree_of_inUse hinUse _
  · intro root hroot
    constructor
    · rw [serve_ask, World.withTree_of_free hroot]
      rfl
    · have hheld : (w.holdTree tree root).locks tree = some root := by
        rw [World.locks_holdTree, Function.update_self]
      have htick := root.tick_coupled (World.growth_locked tree root).toInvariant.coupling
        (serve_eq_serveWithout plans depth tree root) ⟨rfl, hheld⟩
      exact htick.eq.symm

/-- A tree that refers to itself fails when it is ticked, and is refused while it is in use. -/
theorem serve_not_reentrant_selfReference :
    let root := Node.reference (.toTree "again" 0)
    let w := ((World.start (.empty .start) (.empty (.seeded 0))).addTree root).2
    ((serve (plantFrom #[]) 2).ask .tick 0 w).1 = .ticked .failure ∧
      ((serve (plantFrom #[]) 1).ask .tick 0 (w.holdTree 0 root)).1 = .refused := by
  intro root w
  constructor
  · have htick := ((serve_not_reentrant #[] 1 0 w).2.2.2 root rfl).1
    rw [htick]
    rfl
  · have hrefused := ((serve_not_reentrant #[] 1 0 (w.holdTree 0 root)).2.2.1 rfl).1 .tick
    rw [hrefused]

end TickTree
