import Mathlib.Data.List.Induction
import TickTree.Proofs.Dealing

/-!
# Runs of a parent

Operations are carried out on a parent one after the other, each in a world of its own: between two
operations the host, and other trees, may do anything.  An episode is what one operation comes to.
An activation begins when the parent is made, when it is reset, and after each tick that ends one;
the ticks of children since then are what its counters and cursors have to account for.

Main results:

- Theorem `Conduct.run_induction`: what one operation keeps, a run keeps.
- Theorems `Composite.leadAll_conduct` and `Decorator.leadAll_conduct`: the dealings of an episode
  are what the operation does.
- Theorems `Node.perform_composite` and `Node.perform_decorator`: nodes of a tree are conducted so.
-/

namespace TickTree

/-- What one operation on a parent comes to. -/
structure Episode where
  operation : Operation
  answer : Answer
  dealings : List Dealing

namespace Episode

/-- The episode ends the activation: a reset, or a tick with a status that is not pending. -/
def ends (e : Episode) : Bool :=
  match e.operation, e.answer with
  | .reset, _ => true
  | .tick, .ticked status => status.isCompleted
  | _, _ => false

/-- The children that are ticked in an episode, with the statuses that they give. -/
def ticks (e : Episode) : List (Nat × Status) := e.dealings.filterMap Dealing.tick?

/-- The ticks of children in the current activation, after some episodes. -/
def current (episodes : List Episode) : List (Nat × Status) :=
  episodes.foldl (fun earlier e => if e.ends then [] else earlier ++ e.ticks) []

@[simp] theorem current_concat (episodes : List Episode) (e : Episode) :
    current (episodes ++ [e]) = if e.ends then [] else current episodes ++ e.ticks := by
  unfold current
  rw [List.foldl_append]
  rfl

/-- A reset begins a new activation. -/
theorem current_reset (episodes : List Episode) (answer : Answer) (dealings : List Dealing) :
    current (episodes ++ [⟨.reset, answer, dealings⟩]) = [] :=
  current_concat episodes _

/-- Starting and finishing are no part of an activation. -/
theorem current_idle (episodes : List Episode) {operation : Operation} (h : operation ≠ .reset) :
    current (episodes ++ [⟨operation, .done, []⟩]) = current episodes := by
  have hends : ends ⟨operation, .done, []⟩ = false := by
    cases operation with
    | reset => exact absurd rfl h
    | tick => rfl
    | start => rfl
    | finish => rfl
  rw [current_concat, hends]
  exact List.append_nil _

end Episode

/-! ## Conducts -/

/-- How operations on a parent are carried out. -/
abbrev Conduct (σ : Type) := Operation → σ → World → Episode × σ × World

namespace Conduct

variable {σ : Type} (c : Conduct σ)

/-- Carries out operations one after the other, each in its world. -/
def run : σ → List (Operation × World) → List Episode × σ
  | x, [] => ([], x)
  | x, (operation, w) :: rest =>
    let step := c operation x w
    let others := run step.2.1 rest
    (step.1 :: others.1, others.2)

/-- The last operation of a run comes after all others. -/
theorem run_concat (x : σ) (steps : List (Operation × World)) (operation : Operation) (w : World) :
    c.run x (steps ++ [(operation, w)]) =
      ((c.run x steps).1 ++ [(c operation (c.run x steps).2 w).1],
        (c operation (c.run x steps).2 w).2.1) := by
  induction steps generalizing x with
  | nil => rfl
  | cons step rest ih =>
    rcases step with ⟨first, v⟩
    simp only [List.cons_append, run, ih]

/-- What holds at the beginning and is kept by each operation holds after every run. -/
theorem run_induction {P : List Episode → σ → Prop} {x : σ} (begins : P [] x)
    (keeps : ∀ (episodes : List Episode) (y : σ) (operation : Operation) (w : World),
      P episodes y → P (episodes ++ [(c operation y w).1]) (c operation y w).2.1)
    (steps : List (Operation × World)) : P (c.run x steps).1 (c.run x steps).2 := by
  induction steps using List.reverseRecOn with
  | nil => exact begins
  | append_singleton steps step ih =>
    rcases step with ⟨operation, w⟩
    rw [run_concat]
    exact keeps _ _ operation w ih

end Conduct

/-! ## Composites and decorators -/

open Dealing (LeadAll)

section

variable {κ : Type}

/-- Carries out an operation on a composite with its children.  Starting and finishing do not reach
them. -/
def Composite.conduct (u : Units κ) : Conduct (Composite × List κ)
  | .tick, (part, children), w =>
    let t := part.tick u.reset (children.map u.offer) w
    (⟨.tick, .ticked t.status, part.dealings u children w⟩, t.state, t.world)
  | .reset, (part, children), w =>
    let rest := resetAll u.reset children w
    (⟨.reset, .done, Dealing.resets children.length⟩, (part.reset, rest.1), rest.2)
  | operation, x, w => (⟨operation, .done, []⟩, x, w)

/-- Carries out an operation on a decorator with its child.  Starting and finishing do not reach
it. -/
def Decorator.conduct (s : Service) (u : Units κ) (name : κ → String) :
    Conduct (Decorator × Option κ)
  | .tick, (part, child), w =>
    let t := part.tick s u.reset name (child.map u.offer) w
    (⟨.tick, .ticked t.status, part.dealings s u name child w⟩, t.state, t.world)
  | .reset, (part, child), w =>
    let rest := resetAll u.reset child.toList w
    (⟨.reset, .done, Dealing.resets child.toList.length⟩, (part.reset, rest.1.head?), rest.2)
  | operation, x, w => (⟨operation, .done, []⟩, x, w)

variable {s : Service} {u : Units κ}

/-- The dealings of an episode of a composite are what the operation does. -/
theorem Composite.leadAll_conduct (operation : Operation) (x : Composite × List κ) (w : World) :
    let step := conduct u operation x w
    LeadAll s u step.1.dealings (x.2, w) (step.2.1.2, step.2.2) := by
  cases operation with
  | tick => exact x.1.leadAll_dealings x.2 w
  | reset => exact Dealing.leadAll_resets x.2 w
  | start => rfl
  | finish => rfl

/-- The dealings of an episode of a decorator are what the operation does. -/
theorem Decorator.leadAll_conduct (name : κ → String) (operation : Operation)
    (x : Decorator × Option κ) (w : World) :
    let step := conduct s u name operation x w
    LeadAll s u step.1.dealings (x.2.toList, w) (step.2.1.2.toList, step.2.2) := by
  cases operation with
  | tick => exact leadAll_dealings name x.1 x.2 w
  | reset =>
    rcases x with ⟨part, child⟩
    cases child with
    | none => rfl
    | some k => exact Dealing.leadAll_resets [k] w
  | start => rfl
  | finish => rfl

/-- When the decorator has a child, they begin at it. -/
theorem Decorator.leadAll_conduct_child (name : κ → String) (operation : Operation)
    {x : Decorator × Option κ} {part : Decorator} {child : κ} (hx : x = (part, some child))
    (w : World) :
    let step := conduct s u name operation x w
    LeadAll s u step.1.dealings ([child], w) (step.2.1.2.toList, step.2.2) := by
  subst hx
  exact leadAll_conduct name operation (part, some child) w

end

/-! ## Nodes -/

/-- Nodes as the children of a parent. -/
def Units.nodes (s : Service) : Units Node := ⟨Node.tick s, Node.reset s⟩

namespace Node

variable (s : Service) (operation : Operation)

/-- A composite of a tree is conducted over nodes. -/
theorem perform_composite (part : Composite) (children : List Node) (w : World) :
    let step := Composite.conduct (Units.nodes s) operation (part, children) w
    (composite part children).perform s operation w =
      (step.1.answer, composite step.2.1.1 step.2.1.2, step.2.2) := by
  cases operation with
  | tick =>
    simp only [perform, tick, offers_eq]
    rfl
  | reset =>
    simp only [perform, reset, resetChildren_eq]
    rfl
  | start => rfl
  | finish => rfl

/-- A decorator of a tree is conducted over a node. -/
theorem perform_decorator (part : Decorator) (child : Option Node) (w : World) :
    let step := Decorator.conduct s (Units.nodes s) name operation (part, child) w
    (decorator part child).perform s operation w =
      (step.1.answer, decorator step.2.1.1 step.2.1.2, step.2.2) := by
  cases operation with
  | tick =>
    simp only [perform, tick, offer_eq]
    rfl
  | reset =>
    simp only [perform, reset]
    cases child <;> rfl
  | start => rfl
  | finish => rfl

end Node

end TickTree
