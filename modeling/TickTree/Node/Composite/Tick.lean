import TickTree.Node.Composite
import TickTree.Node.Offer

/-!
# Ticks of composites

How sequences, selectors, random selectors and parallel nodes tick, for children of any kind.

Main results:

- Theorem `Chain.length_states_pass`: a pass keeps the number of children.
- Theorems `Chain.le_position_pass` and `Chain.position_pass_le`: a pass never goes back, and
  stops just behind the last child at the latest.
- Theorem `tally_of_nil`: without children a parallel node follows its success policy.
-/

namespace TickTree

variable {κ : Type}

/-! ## Sequences and selectors -/

/-- What a pass through children leaves behind: the status that ended it, the child that gave that
status, and the states of the children passed. -/
structure Pass (κ : Type) where
  status : Status
  position : Nat
  states : List κ
  world : World

/-- Ticks children one after the other until one does not give the status that passes. -/
def Chain.pass (kind : Chain) (name : String) : (position : Nat) → List (Offer κ) → World → Pass κ
  | position, [], w => ⟨kind.passes, position, [], w⟩
  | position, child :: rest, w =>
    let t := child.tick w
    if t.status = kind.passes then
      let next := position + 1
      let w := t.world.report .trace s!"{name} {kind.progress} {next}"
      let others := kind.pass name next rest w
      { others with states := t.state :: others.states }
    else
      ⟨t.status, position, t.state :: rest.map Offer.state, t.world⟩

/-- A pass keeps the number of children. -/
theorem Chain.length_states_pass (kind : Chain) (name : String) (position : Nat)
    (children : List (Offer κ)) (w : World) :
    (kind.pass name position children w).states.length = children.length := by
  induction children generalizing position w with
  | nil => rfl
  | cons child rest ih =>
    unfold pass
    simp only []
    split
    · simp [ih]
    · simp

/-- A pass never goes back. -/
theorem Chain.le_position_pass (kind : Chain) (name : String) (position : Nat)
    (children : List (Offer κ)) (w : World) :
    position ≤ (kind.pass name position children w).position := by
  induction children generalizing position w with
  | nil => exact Nat.le_refl _
  | cons child rest ih =>
    unfold pass
    simp only []
    split
    · exact Nat.le_of_succ_le (ih (position + 1) _)
    · exact Nat.le_refl _

/-- A pass never stops further than just behind the last child. -/
theorem Chain.position_pass_le (kind : Chain) (name : String) (position : Nat)
    (children : List (Offer κ)) (w : World) :
    (kind.pass name position children w).position ≤ position + children.length := by
  induction children generalizing position w with
  | nil => exact Nat.le_refl _
  | cons child rest ih =>
    have hrest := ih (position + 1)
    unfold pass
    simp only [List.length_cons]
    split
    · refine Nat.le_trans (hrest _) ?_
      omega
    · exact Nat.le_add_right _ _

/-! ## Parallel nodes -/

/-- Ticks all children in order. -/
def tickAll : List (Offer κ) → World → List (Status × κ) × World
  | [], w => ([], w)
  | child :: rest, w =>
    let t := child.tick w
    let others := tickAll rest t.world
    ((t.status, t.state) :: others.1, others.2)

/-- The result of a parallel node for the statuses of its children: the failure policy first, then
the success policy; else the node sleeps when a child sleeps and none runs. -/
def tally (success failure : Policy) (statuses : List Status) : Status :=
  if statuses.isEmpty then
    if success.isMet 0 0 then .success else .failure
  else if failure.isMet (statuses.count .failure) statuses.length then .failure
  else if success.isMet (statuses.count .success) statuses.length then .success
  else if statuses.count .running = 0 ∧ 0 < statuses.count .sleeping then .sleeping
  else .running

/-- Without children a parallel node follows its success policy. -/
theorem tally_of_nil (failure : Policy) :
    tally .requireAll failure [] = .success ∧ tally .requireOne failure [] = .failure := by
  constructor <;> rfl

/-! ## Random selectors -/

/-- Ticks the child at a position and leaves the others as they are.  Beyond the last child there
is nothing to tick. -/
def tickAt : (position : Nat) → List (Offer κ) → World → Ticked (List κ)
  | _, [], w => ⟨.failure, [], w⟩
  | 0, child :: rest, w => (child.tick w).map (· :: rest.map Offer.state)
  | position + 1, child :: rest, w => (tickAt position rest w).map (child.state :: ·)

/-- The selection of an activation: the one that was made, or a new draw. -/
def choose (source : SourceId) (selected : Option Nat) (bound : Nat) (w : World) : Nat × World :=
  match selected with
  | some position => (position, w)
  | none => w.index bound source

/-! ## Composites -/

/-- Resets all children when a status ends the activation, and the composite with them. -/
def Composite.settle (reset : κ → World → κ × World) (part : Composite) (t : Ticked (List κ)) :
    Ticked (Composite × List κ) :=
  if t.status.isCompleted then
    let rest := resetAll reset t.state t.world
    ⟨t.status, (part.reset, rest.1), rest.2⟩
  else
    ⟨t.status, (part, t.state), t.world⟩

/-- One tick of a composite. -/
def Composite.tick (reset : κ → World → κ × World) (part : Composite) (children : List (Offer κ))
    (w : World) : Ticked (Composite × List κ) :=
  match part with
  | .chain kind name cursor =>
    let pass := kind.pass name cursor (children.drop cursor) w
    let before := (children.take cursor).map Offer.state
    settle reset (.chain kind name pass.position) ⟨pass.status, before ++ pass.states, pass.world⟩
  | .randomSelector source selected =>
    if children.isEmpty then
      ⟨.failure, (part, []), w⟩
    else
      let chosen := choose source selected children.length w
      settle reset (.randomSelector source (some chosen.1)) (tickAt chosen.1 children chosen.2)
  | .parallel success failure =>
    let all := tickAll children w
    let status := tally success failure (all.1.map Prod.fst)
    settle reset part ⟨status, all.1.map Prod.snd, all.2⟩

end TickTree
