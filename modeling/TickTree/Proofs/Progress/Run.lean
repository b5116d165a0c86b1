import TickTree.Forest
import TickTree.Plan
import TickTree.Proofs.Progress
import TickTree.Proofs.Reset

/-!
# Runs that come to an end

A run ticks a root until it gives a status other than running.  In a tree of sequences, selectors,
random selectors and bounded decorators, around leaves that never run, it comes to an end after a
number of ticks that can be read off the tree as it was made, whatever the callbacks, clocks and
random sources do.

Main results:

- Definitions `Node.allowance` and `Node.pending`: how often a node may run, and may still run.
- Theorem `Node.IsBounded.tick`: a bounded tree stays bounded, and a tick on which it runs leaves
  less.
- Theorem `Node.run_ends`: a run of a bounded tree comes to an end.
-/

namespace TickTree

/-! ## Leaves -/

/-- A leaf of the library that never runs: the status of an action is up to the host. -/
def Leaf.IsPrompt : Leaf → Prop
  | action _ body => ¬ body.Gives (.ok .running)
  | probe _ _ _ => False
  | countdown _ _ _ => False
  | _ => True

/-- Whether a leaf may run is not a matter of its state. -/
theorem Leaf.isPrompt_reset (part : Leaf) : part.reset.IsPrompt ↔ part.IsPrompt := by
  cases part <;> rfl

/-- A prompt leaf does not run. -/
theorem Leaf.IsPrompt.status_tick {part : Leaf} (h : part.IsPrompt) (s : Service) (w : World) :
    (part.tick s w).status ≠ .running := by
  cases part with
  | action name body =>
    have hgives := body.gives_get s w
    simp only [tick]
    split
    next status after hgot =>
      rw [hgot] at hgives
      rintro rfl
      exact h hgives
    next => exact Status.noConfusion
  | condition name test =>
    simp only [tick]
    split <;> exact Status.noConfusion
  | sleep timer =>
    simp only [tick]
    split <;> exact Status.noConfusion
  | sleepUntil timer test =>
    simp only [tick]
    split
    · exact Status.noConfusion
    · split <;> exact Status.noConfusion
  | sleepUntilIdle watch test bypass =>
    simp only [tick, Ticked.map, IdleWatch.tick]
    split
    · exact Status.noConfusion
    · split
      · exact Status.noConfusion
      · split
        · split <;> exact Status.noConfusion
        · exact Status.noConfusion
  | probe name script hooks => exact h.elim
  | countdown name count remaining => exact h.elim

/-- A prompt leaf stays prompt. -/
theorem Leaf.IsPrompt.tick {part : Leaf} (h : part.IsPrompt) (s : Service) (w : World) :
    (part.tick s w).state.IsPrompt := by
  rw [← Leaf.isPrompt_reset, Leaf.reset_tick, Leaf.isPrompt_reset]
  exact h

namespace Node

/-! ## Allowances -/

mutual

/-- How often a node may run in an activation. -/
def allowance : Node → Nat
  | leaf _ => 0
  | composite part children => part.allowance (allowances children)
  | decorator part child => part.allowance (allowanceOfChild child)
  | reference _ => 0
  | embedded _ root => allowance root

/-- How often each child of a composite may run. -/
def allowances : List Node → List Nat
  | [] => []
  | child :: rest => allowance child :: allowances rest

/-- How often the child of a decorator may run. -/
def allowanceOfChild : Option Node → Nat
  | none => 0
  | some child => allowance child

end

mutual

/-- How often a node may still run in the present activation. -/
def pending : Node → Nat
  | leaf _ => 0
  | composite part children => part.pending (pendings children)
  | decorator part child => part.pending (pendingOfChild child) (allowanceOfChild child)
  | reference _ => 0
  | embedded _ root => pending root

/-- How often each child of a composite may still run. -/
def pendings : List Node → List Nat
  | [] => []
  | child :: rest => pending child :: pendings rest

/-- How often the child of a decorator may still run. -/
def pendingOfChild : Option Node → Nat
  | none => 0
  | some child => pending child

end

/-- The allowances of children are taken one by one. -/
theorem allowances_eq (children : List Node) : allowances children = children.map allowance := by
  induction children with
  | nil => rfl
  | cons child rest ih => simp only [allowances, List.map_cons, ih]

/-- What is left to children is taken one by one. -/
theorem pendings_eq (children : List Node) : pendings children = children.map pending := by
  induction children with
  | nil => rfl
  | cons child rest ih => simp only [pendings, List.map_cons, ih]

/-- The allowance of a node is not a matter of its state. -/
theorem allowance_cleared (n : Node) : n.cleared.allowance = n.allowance := by
  induction n with
  | leaf part => rfl
  | composite part children ih =>
    simp only [cleared, allowance, Composite.allowance_reset, allowances_eq, clearedChildren_eq,
      List.map_map]
    exact congrArg part.allowance (List.map_congr_left ih)
  | decorator part child ih =>
    cases child with
    | none => simp only [cleared, clearedChild, allowance, Decorator.allowance_reset]
    | some inner =>
      simp only [cleared, clearedChild, allowance, allowanceOfChild, Decorator.allowance_reset,
        ih inner rfl]
  | reference part => rfl
  | embedded tag root ih => exact ih

/-- Nodes with one first state have one allowance. -/
theorem allowance_congr {n m : Node} (h : n.cleared = m.cleared) : n.allowance = m.allowance := by
  rw [← allowance_cleared n, h, allowance_cleared]

/-! ## Bounded trees -/

/-- A tree in which every node comes to an end: no parallel nodes and no sub-trees, no leaf that
runs, and decorators with finitely many rounds. -/
inductive IsBounded : Node → Prop
  | leaf {part : Leaf} (h : part.IsPrompt) : IsBounded (.leaf part)
  | composite {part : Composite} {children : List Node} (h : part.IsSerial)
    (hchildren : ∀ child ∈ children, IsBounded child) : IsBounded (.composite part children)
  | bare {part : Decorator} (h : part.IsBounded) : IsBounded (.decorator part none)
  | decorator {part : Decorator} {child : Node} (h : part.IsBounded) (hchild : IsBounded child) :
    IsBounded (.decorator part (some child))
  | embedded {tag : Option Tag} {root : Node} (h : IsBounded root) : IsBounded (.embedded tag root)

/-- What is left to a bounded tree is within its allowance. -/
theorem IsBounded.pending_le_allowance {n : Node} (h : n.IsBounded) :
    n.pending ≤ n.allowance := by
  induction h with
  | leaf h => exact Nat.le_refl _
  | @composite part children h _ ih =>
    simp only [pending, allowance, pendings_eq, allowances_eq]
    apply part.pending_le_allowance
    rw [List.forall₂_map_left_iff, List.forall₂_map_right_iff]
    exact List.forall₂_same.2 ih
  | bare h => exact h.pending_le_allowance (Nat.le_refl _)
  | decorator h _ ih => exact h.pending_le_allowance ih
  | embedded h ih => exact ih

/-- The first state of a bounded tree is bounded. -/
theorem IsBounded.cleared {n : Node} (h : n.IsBounded) : n.cleared.IsBounded := by
  induction h with
  | leaf h => exact .leaf ((Leaf.isPrompt_reset _).2 h)
  | @composite part children h _ ih =>
    refine .composite ((Composite.isSerial_reset part).2 h) ?_
    rw [clearedChildren_eq]
    intro child hchild
    rcases List.mem_map.1 hchild with ⟨child, hmem, rfl⟩
    exact ih child hmem
  | bare h => exact .bare h.reset
  | decorator h _ ih => exact .decorator h.reset ih
  | embedded h ih => exact .embedded ih

/-- A bounded tree stays bounded, and a tick on which it runs leaves less. -/
theorem IsBounded.tick {n : Node} (h : n.IsBounded) (s : Service) (w : World) :
    (n.tick s w).state.IsBounded ∧
      ((n.tick s w).status = .running → (n.tick s w).state.pending < n.pending) := by
  have hreset : ∀ (k : Node) (u : World), k.IsBounded → (k.reset s u).1.IsBounded := by
    intro k u hk
    rw [fst_reset]
    exact hk.cleared
  induction h generalizing w with
  | leaf h => exact ⟨.leaf (h.tick s w), fun hrun => absurd hrun (h.status_tick s w)⟩
  | @composite part children h hchildren ih =>
    have hall := handled_children s part children w
    have hserial : (part.tick (reset s) (offers s children) w).state.1.IsSerial := by
      rw [← Composite.isSerial_reset, Composite.reset_tick, Composite.isSerial_reset]
      exact h
    have hstates := hall.keep (P := fun _ k => k.IsBounded)
      (by
        intro o ho _ _
        rcases exists_of_mem_offers ho with ⟨child, hmem, rfl⟩
        exact hchildren child hmem)
      (by
        intro o ho u _ _ _
        rcases exists_of_mem_offers ho with ⟨child, hmem, rfl⟩
        exact (ih child hmem u).1)
      fun k u _ _ hk _ => hreset k u hk
    refine ⟨.composite hserial hstates, fun hrun => ?_⟩
    have hless : ∀ o ∈ offers s children, ∀ u, (o.tick u).status = .running →
        (o.tick u).state.pending < o.state.pending := by
      intro o ho u
      rcases exists_of_mem_offers ho with ⟨child, hmem, rfl⟩
      exact (ih child hmem u).2
    have hbefore : (offers s children).map (fun o => o.state.pending) = children.map pending := by
      rw [offers_eq, List.map_map]
      rfl
    have hpending := Composite.pending_tick hless h w hrun
    rw [hbefore] at hpending
    simp only [Node.tick, Ticked.map, pending, pendings_eq]
    exact hpending
  | bare h => exact ⟨.bare h, fun hrun => Status.noConfusion hrun⟩
  | @decorator part child h hchild ih =>
    have hhandles := handled_child s part child w
    rcases hhandles.child with ⟨left, hleft, hhandled⟩
    have hbounded : left.IsBounded :=
      hhandled.keep (P := fun _ k => k.IsBounded) (fun _ _ => hchild) (fun u _ _ _ => (ih u).1)
        fun k u _ _ hk _ => hreset k u hk
    have hallowance : left.allowance = child.allowance := by
      apply allowance_congr
      refine hhandled.view_eq Node.cleared (child.cleared_tick s) fun k u => ?_
      rw [fst_reset, cleared_cleared]
    have hrestarted : ∀ u v, (reset s (child.tick s u).state v).1.pending ≤ child.allowance := by
      intro u v
      have hafter := (ih u).1.cleared.pending_le_allowance
      rw [allowance_cleared, allowance_congr (child.cleared_tick s u)] at hafter
      rw [fst_reset]
      exact hafter
    have hadvances := Decorator.advances_tick (o := ⟨child, fun w => child.tick s w⟩)
      (fun u => (ih u).2) hrestarted s name h w
    simp only [Node.tick, offer, Ticked.map]
    rw [hleft]
    refine ⟨.decorator hadvances.bounded hbounded, fun hrun => ?_⟩
    rcases hadvances.less hrun with ⟨k, hk, hless⟩
    rw [hleft] at hk
    cases hk
    simp only [pending, pendingOfChild, allowanceOfChild, hallowance]
    exact hless
  | embedded h ih => exact ⟨.embedded (ih w).1, (ih w).2⟩

/-- A bounded tree stays bounded whatever is done to it. -/
theorem IsBounded.perform {n : Node} (h : n.IsBounded) (s : Service) (operation : Operation)
    (w : World) : (n.perform s operation w).2.1.IsBounded := by
  cases operation with
  | tick => exact (h.tick s w).1
  | reset =>
    simp only [Node.perform, fst_reset]
    exact h.cleared
  | start =>
    simp only [Node.perform, fst_start]
    exact h
  | finish =>
    induction h with
    | leaf h => exact .leaf h
    | composite h hchildren => exact .composite h hchildren
    | bare h => exact .bare h
    | decorator h hchild => exact .decorator h hchild
    | embedded h ih => exact .embedded ih

/-- All states that a bounded tree can reach are bounded, with the same allowance. -/
theorem IsBounded.of_reachable {made n : Node} (hmade : made.IsBounded) (h : Reachable made n) :
    n.IsBounded ∧ n.allowance = made.allowance := by
  refine ⟨?_, allowance_congr (cleared_of_reachable h)⟩
  induction h with
  | made => exact hmade
  | perform s operation w _ ih => exact ih.perform s operation w

/-! ## Runs -/

/-- The tick of a node after so many others. -/
def tickAfter (s : Service) : (count : Nat) → Node → World → Ticked Node
  | 0, n, w => n.tick s w
  | count + 1, n, w => tickAfter s count (n.tick s w).state (n.tick s w).world

/-- A bounded tree runs on as many ticks as are left to it, at most. -/
theorem IsBounded.exists_tickAfter {n : Node} (h : n.IsBounded) (s : Service) (w : World) :
    ∃ count ≤ n.pending, (∀ earlier < count, (n.tickAfter s earlier w).status = .running) ∧
      (n.tickAfter s count w).status ≠ .running := by
  induction hleft : n.pending using Nat.strongRecOn generalizing n w with
  | ind left ih =>
    subst hleft
    rcases h.tick s w with ⟨hafter, hless⟩
    by_cases hrun : (n.tick s w).status = .running
    · rcases ih _ (hless hrun) hafter (n.tick s w).world rfl with ⟨count, hcount, hruns, hends⟩
      refine ⟨count + 1, Nat.lt_of_le_of_lt hcount (hless hrun), ?_, hends⟩
      intro earlier hearlier
      cases earlier with
      | zero => exact hrun
      | succ earlier => exact hruns earlier (Nat.lt_of_succ_lt_succ hearlier)
    · exact ⟨0, Nat.zero_le _, fun _ h => absurd h (Nat.not_lt_zero _), hrun⟩

/-- A run ends with the first tick on which the root does not run, unless a fault comes before. -/
theorem run_eq_tickAfter (s : Service) (n : Node) (w : World) {count limit : Nat}
    (hcount : count < limit)
    (hruns : ∀ earlier < count, (n.tickAfter s earlier w).status = .running)
    (hends : (n.tickAfter s count w).status ≠ .running)
    (hfault : ∀ earlier ≤ count, (n.tickAfter s earlier w).world.fault = none) :
    let last := n.tickAfter s count w
    let name := last.state.name
    let status := last.status.text
    n.run s limit w =
      (some last.status, last.state, last.world.report .debug s!"{name}::run() -> {status}") := by
  induction count generalizing n w limit with
  | zero =>
    cases limit with
    | zero => exact absurd hcount (Nat.not_lt_zero _)
    | succ limit =>
      have hnone : (n.tick s w).world.fault = none := hfault 0 (Nat.le_refl 0)
      have hends : (n.tick s w).status ≠ .running := hends
      simp only [run, hnone, Option.isSome_none, Bool.false_eq_true, if_false, if_neg hends,
        tickAfter]
  | succ count ih =>
    cases limit with
    | zero => exact absurd hcount (Nat.not_lt_zero _)
    | succ limit =>
      have hnone : (n.tick s w).world.fault = none := hfault 0 (Nat.zero_le _)
      have hrun : (n.tick s w).status = .running := hruns 0 (Nat.zero_lt_succ _)
      simp only [run, hnone, Option.isSome_none, Bool.false_eq_true, if_false, hrun, if_true]
      exact ih _ _ (Nat.lt_of_succ_lt_succ hcount)
        (fun earlier h => hruns (earlier + 1) (Nat.succ_lt_succ h)) hends
        (fun earlier h => hfault (earlier + 1) (Nat.succ_le_succ h))

/-- A run of a bounded tree comes to an end.  From every state that the tree can reach, in every
world and with every service, there is a number of ticks within the tree's allowance on which the
root runs, and it does not run on the next one.  A run that may take more ticks than the allowance
ends there, with this status and with the state and the world that these ticks leave, unless a fault
breaks it off before. -/
theorem run_ends {made n : Node} (hmade : made.IsBounded) (h : Reachable made n) (s : Service)
    (w : World) :
    ∃ count ≤ made.allowance,
      (∀ earlier < count, (n.tickAfter s earlier w).status = .running) ∧
      (n.tickAfter s count w).status ≠ .running ∧
      ∀ limit, made.allowance < limit →
        (∀ earlier ≤ count, (n.tickAfter s earlier w).world.fault = none) →
          let last := n.tickAfter s count w
          let name := last.state.name
          let status := last.status.text
          n.run s limit w = (some last.status, last.state,
            last.world.report .debug s!"{name}::run() -> {status}") := by
  rcases hmade.of_reachable h with ⟨hbounded, hallowance⟩
  rcases hbounded.exists_tickAfter s w with ⟨count, hcount, hruns, hends⟩
  have hwithin : count ≤ made.allowance := by
    rw [← hallowance]
    exact Nat.le_trans hcount hbounded.pending_le_allowance
  refine ⟨count, hwithin, hruns, hends, fun limit hlimit hfault => ?_⟩
  exact n.run_eq_tickAfter s w (Nat.lt_of_le_of_lt hwithin hlimit) hruns hends hfault

/-- A retry of two attempts at a leaf that always fails runs once, and then the run ends. -/
theorem run_ends_retried :
    let made := Node.decorator (.retried 2) (some (.leaf (.fixed "no" .failure)))
    let s := serve (plantFrom #[]) 0
    let w := World.start (.empty .start) (.empty (.seeded 0))
    (made.run s 2 w).1 = some .failure := by
  intro made s w
  have hmade : made.IsBounded := by
    refine .decorator ((Decorator.isBounded_retried 2).2 (by decide)) (.leaf ?_)
    intro hgives
    cases hgives
  rcases run_ends hmade .made s w with ⟨count, hcount, -, hends, hrun⟩
  have hfirst : (made.tickAfter s 0 w).status = .running := rfl
  have hone : count = 1 := by
    have hpositive : count ≠ 0 := by
      rintro rfl
      exact hends hfirst
    have hallowance : made.allowance = 1 := rfl
    omega
  subst hone
  have hfault : ∀ earlier ≤ 1, (made.tickAfter s earlier w).world.fault = none := by
    intro earlier hearlier
    match earlier with
    | 0 => rfl
    | 1 => rfl
  exact congrArg Prod.fst (hrun 2 (by decide) hfault)

end Node

end TickTree
