import TickTree.Proofs.Coupling.Node
import TickTree.Proofs.Duality

/-!
# Crowns

The upper part of a tree: sequences, selectors, inverters, and repetitions and retries with positive
limits.  What is below is left open.  The units of a crown may be of any type, and how they are
ticked and reset is a parameter; so the units can be nodes, or nodes with a record of their own.

Main results:

- Theorem `Crown.tick_mirrored`: the dual of a crown mirrors the crown, whatever its units do.
- Theorem `Crown.tick_node`: a crown of nodes does what the tree of these nodes does.
-/

namespace TickTree

/-- How units are ticked and reset. -/
structure Units (κ : Type) where
  tick : κ → World → Ticked κ
  reset : κ → World → κ × World

/-- In related worlds units give the same status and are left the same. -/
structure Units.Steady {κ : Type} (R : World → World → Prop) (u : Units κ) : Prop where
  tick : ∀ (k : κ) {v w : World}, R v w → Ticked.Coupled Eq R (u.tick k v) (u.tick k w)
  reset : ∀ (k : κ) {v w : World}, R v w → Coupled R (u.reset k v) (u.reset k w)

/-- Units behave in related worlds as the nodes do for which they stand. -/
structure Units.StandFor {κ : Type} (view : κ → Node) (R : World → World → Prop) (s : Service)
    (u : Units κ) : Prop where
  tick : ∀ (k : κ) {v w : World}, R v w →
    Ticked.Coupled (fun k n => view k = n) R (u.tick k v) ((view k).tick s w)
  reset : ∀ (k : κ) {v w : World}, R v w →
    view (u.reset k v).1 = ((view k).reset s w).1 ∧ R (u.reset k v).2 ((view k).reset s w).2

/-- The upper part of a tree, over units of any type. -/
inductive Crown (κ : Type) where
  | unit (unit : κ)
  | chain (kind : Chain) (name : String) (cursor : Nat) (children : List (Crown κ))
  | inverter (child : Crown κ)
  | rounds (kind : Chain) (limit count : Int32) (hlimit : 0 < limit) (child : Crown κ)

/-- The child whose turn it is. -/
def Composite.cursor : Composite → Nat
  | chain _ _ cursor => cursor
  | _ => 0

/-- The rounds that are over. -/
def Decorator.count : Decorator → Int32
  | repetition _ count => count
  | retry _ count => count
  | _ => 0

namespace Chain

variable {κ : Type}

/-- A tick of a chain moves its cursor and changes nothing else of it. -/
theorem state_tick (reset : κ → World → κ × World) (kind : Chain) (name : String) (cursor : Nat)
    (children : List (Offer κ)) (w : World) : ∃ position,
    ((Composite.chain kind name cursor).tick reset children w).state.1 =
      .chain kind name position := by
  simp only [Composite.tick, Composite.settle]
  split
  · exact ⟨0, rfl⟩
  · exact ⟨_, rfl⟩

@[simp] theorem count_rounds (kind : Chain) (limit count : Int32) :
    (kind.rounds limit count).count = count := by
  cases kind <;> rfl

@[simp] theorem reset_rounds (kind : Chain) (limit count : Int32) :
    (kind.rounds limit count).reset = kind.rounds limit 0 := by
  cases kind <;> rfl

/-- A repetition or a retry is ticked by its kind. -/
theorem tick_rounds (kind : Chain) (s : Service) (reset : κ → World → κ × World)
    (name : κ → String) (limit count : Int32) (child : Offer κ) (w : World) :
    (kind.rounds limit count).tick s reset name (some child) w =
      kind.tickRounds reset limit count child w := by
  cases kind <;> rfl

/-- A tick of a repetition or a retry changes the count and the child and nothing else. -/
theorem state_tickRounds (reset : κ → World → κ × World) (kind : Chain) (limit count : Int32)
    (child : Offer κ) (w : World) : ∃ next k,
    (kind.tickRounds reset limit count child w).state = (kind.rounds limit next, some k) := by
  cases kind with
  | sequence =>
    simp only [tickRounds, Decorator.tickRepetition]
    split
    · exact ⟨_, _, rfl⟩
    · split
      · split <;> exact ⟨_, _, rfl⟩
      · exact ⟨_, _, rfl⟩
      · exact ⟨_, _, rfl⟩
  | selector =>
    simp only [tickRounds, Decorator.tickRetry]
    split
    · exact ⟨_, _, rfl⟩
    · split <;> exact ⟨_, _, rfl⟩
    · exact ⟨_, _, rfl⟩

end Chain

namespace Crown

variable {κ : Type}

/-- What holds of a crown when it holds of its children holds of all crowns. -/
@[elab_as_elim, induction_eliminator]
theorem induction {motive : Crown κ → Prop} (unit : ∀ k, motive (.unit k))
    (chain : ∀ kind name cursor children, (∀ child ∈ children, motive child) →
      motive (.chain kind name cursor children))
    (inverter : ∀ child, motive child → motive (.inverter child))
    (rounds : ∀ kind limit count hlimit child, motive child →
      motive (.rounds kind limit count hlimit child)) (c : Crown κ) : motive c := by
  refine @Crown.rec κ motive (fun children => ∀ child ∈ children, motive child) unit chain inverter
    rounds ?_ ?_ c
  · intro child h
    exact absurd h List.not_mem_nil
  · intro first rest hfirst hrest child h
    cases h with
    | head => exact hfirst
    | tail _ h => exact hrest child h

/-! ## Ticks and resets -/

mutual

/-- Resets a crown and its units. -/
def reset (u : Units κ) : Crown κ → World → Crown κ × World
  | unit k, w =>
    let rest := u.reset k w
    (unit rest.1, rest.2)
  | chain kind name _ children, w =>
    let rest := resetChildren u children w
    (chain kind name 0 rest.1, rest.2)
  | inverter child, w =>
    let rest := reset u child w
    (inverter rest.1, rest.2)
  | rounds kind limit _ hlimit child, w =>
    let rest := reset u child w
    (rounds kind limit 0 hlimit rest.1, rest.2)

/-- Resets the children of a chain in order. -/
def resetChildren (u : Units κ) : List (Crown κ) → World → List (Crown κ) × World
  | [], w => ([], w)
  | child :: rest, w =>
    let first := reset u child w
    let others := resetChildren u rest first.2
    (first.1 :: others.1, others.2)

end

/-- The children of a chain are reset in order. -/
theorem resetChildren_eq (u : Units κ) (children : List (Crown κ)) (w : World) :
    resetChildren u children w = resetAll (reset u) children w := by
  induction children generalizing w with
  | nil => simp [resetChildren, resetAll]
  | cons child rest ih => simp [resetChildren, resetAll, ih]

mutual

/-- One tick of a crown. -/
def tick (u : Units κ) : Crown κ → World → Ticked (Crown κ)
  | unit k, w => (u.tick k w).map unit
  | chain kind name cursor children, w =>
    ((Composite.chain kind name cursor).tick (reset u) (offers u children) w).map fun state =>
      chain kind name state.1.cursor state.2
  | inverter child, w =>
    let t := tick u child w
    ⟨t.status.invert, inverter t.state, t.world⟩
  | rounds kind limit count hlimit child, w =>
    (kind.tickRounds (reset u) limit count ⟨child, fun w => tick u child w⟩ w).map fun state =>
      rounds kind limit state.1.count hlimit (state.2.getD child)

/-- The children of a chain as the chain sees them. -/
def offers (u : Units κ) : List (Crown κ) → List (Offer (Crown κ))
  | [] => []
  | child :: rest => ⟨child, fun w => tick u child w⟩ :: offers u rest

end

/-- A chain sees of its children their states and their ticks. -/
theorem offers_eq (u : Units κ) (children : List (Crown κ)) :
    offers u children = children.map fun child => ⟨child, tick u child⟩ := by
  induction children with
  | nil => simp [offers]
  | cons child rest ih => simp [offers, ih]

/-! ## Duals -/

mutual

/-- The dual of a crown.  Sequences and selectors are exchanged, and so are repetitions and retries;
inverters stay, and units are inverted.  The exchanged sequences and selectors may get other
names. -/
def dual (rename : String → String) : Crown κ → Crown κ
  | unit k => inverter (unit k)
  | chain kind name cursor children =>
    chain kind.dual (rename name) cursor (dualAll rename children)
  | inverter child => inverter (dual rename child)
  | rounds kind limit count hlimit child =>
    rounds kind.dual limit count hlimit (dual rename child)

/-- The duals of the children of a chain. -/
def dualAll (rename : String → String) : List (Crown κ) → List (Crown κ)
  | [] => []
  | child :: rest => dual rename child :: dualAll rename rest

end

theorem dualAll_eq (rename : String → String) (children : List (Crown κ)) :
    dualAll rename children = children.map (dual rename) := by
  induction children with
  | nil => rfl
  | cons child rest ih => simp [dualAll, ih]

/-- The first crown is the dual of the second. -/
def DualOf (rename : String → String) (d c : Crown κ) : Prop := d = c.dual rename

/-- Duals one by one are the duals of the list. -/
theorem forall₂_dualOf {rename : String → String} {ds cs : List (Crown κ)} :
    List.Forall₂ (DualOf rename) ds cs ↔ ds = dualAll rename cs := by
  rw [dualAll_eq, ← List.forall₂_eq_eq_eq, List.forall₂_map_right_iff]
  rfl

/-! ## A crown and its dual -/

section

variable {R : World → World → Prop} {u : Units κ} (hu : u.Steady R) (rename : String → String)
include hu

/-- Resetting the dual leaves the dual. -/
theorem reset_mirrored (c : Crown κ) {v w : World} (hw : R v w) :
    ((c.dual rename).reset u v).1 = (c.reset u w).1.dual rename ∧
      R ((c.dual rename).reset u v).2 (c.reset u w).2 := by
  induction c generalizing v w with
  | unit k =>
    have hreset := hu.reset k hw
    simp only [dual, reset]
    rw [hreset.1]
    exact ⟨rfl, hreset.2⟩
  | chain kind name cursor children ih =>
    have heach : List.Forall₂ (fun d c => ∀ {v w : World}, R v w →
        DualOf rename (reset u d v).1 (reset u c w).1 ∧ R (reset u d v).2 (reset u c w).2)
        (dualAll rename children) children := by
      rw [dualAll_eq, List.forall₂_map_left_iff]
      exact List.forall₂_same.2 fun child h => fun hw => ih child h hw
    rcases resetAll_forall₂ heach hw with ⟨hstates, hafter⟩
    simp only [dual, reset, resetChildren_eq, forall₂_dualOf.1 hstates]
    exact ⟨trivial, hafter⟩
  | inverter child ih =>
    rcases ih hw with ⟨hstate, hafter⟩
    simp only [dual, reset, hstate]
    exact ⟨trivial, hafter⟩
  | rounds kind limit count hlimit child ih =>
    rcases ih hw with ⟨hstate, hafter⟩
    simp only [dual, reset, hstate]
    exact ⟨trivial, hafter⟩

/-- Resets of duals are duals of resets. -/
theorem resetsAlike_dual : ResetsAlike (DualOf rename) R (reset u) (reset u) := by
  intro d c v w hg hw
  rw [hg]
  exact reset_mirrored hu rename c hw

/-- The dual of a crown mirrors the crown: every tick gives the exchanged status and leaves the
dual, and units are ticked and reset at the same time. -/
theorem tick_mirrored (hR : World.Deaf R) (c : Crown κ) {v w : World} (hw : R v w) :
    Ticked.Mirrored (DualOf rename) R ((c.dual rename).tick u v) (c.tick u w) := by
  induction c generalizing v w with
  | unit k =>
    have htick := hu.tick k hw
    simp only [dual, tick, Ticked.map, htick.status, htick.state]
    exact ⟨rfl, rfl, htick.world⟩
  | chain kind name cursor children ih =>
    have hoffers : List.Forall₂ (Offer.Mirrored (DualOf rename) R)
        (offers u (dualAll rename children)) (offers u children) := by
      rw [dualAll_eq, offers_eq, offers_eq, List.map_map, List.forall₂_map_left_iff,
        List.forall₂_map_right_iff]
      exact List.forall₂_same.2 fun child hchild => ⟨rfl, fun hw => ih child hchild hw⟩
    have htick := kind.tick_mirrored hR (resetsAlike_dual hu rename) (rename name) name cursor
      hoffers hw
    rcases htick.state with ⟨position, hleft, hright, hstates⟩
    simp only [dual, tick, Ticked.map]
    refine ⟨htick.status, ?_, htick.world⟩
    rw [hleft, hright, forall₂_dualOf.1 hstates]
    rfl
  | inverter child ih =>
    have htick := ih hw
    simp only [dual, tick, htick.status, Status.invert_invert]
    refine ⟨(Status.invert_invert _).symm, ?_, htick.world⟩
    exact congrArg inverter htick.state
  | rounds kind limit count hlimit child ih =>
    have hoffer : Offer.Mirrored (DualOf rename) R ⟨child.dual rename, tick u (child.dual rename)⟩
        ⟨child, tick u child⟩ := ⟨rfl, fun hw => ih hw⟩
    have htick := kind.tickRounds_mirrored hR (resetsAlike_dual hu rename) hlimit count hoffer hw
    rcases htick.state with ⟨next, d, c, hleft, hright, hstate⟩
    simp only [dual, tick, Ticked.map]
    refine ⟨htick.status, ?_, htick.world⟩
    rw [hleft, hright]
    simp only [Chain.count_rounds, Option.getD_some]
    rw [show d = c.dual rename from hstate]
    rfl

end

/-! ## Crowns of nodes -/

section

variable (view : κ → Node)

mutual

/-- The tree that a crown is, when its units are nodes or stand for nodes. -/
def node : Crown κ → Node
  | unit k => view k
  | chain kind name cursor children => .composite (.chain kind name cursor) (nodes children)
  | inverter child => .decorator .inverter (some (node child))
  | rounds kind limit count _ child => .decorator (kind.rounds limit count) (some (node child))

/-- The trees that the children of a chain are. -/
def nodes : List (Crown κ) → List Node
  | [] => []
  | child :: rest => node child :: nodes rest

end

theorem nodes_eq (children : List (Crown κ)) : nodes view children = children.map (node view) := by
  induction children with
  | nil => rfl
  | cons child rest ih => simp [nodes, ih]

/-- The second is the tree that the first is. -/
def IsNode (c : Crown κ) (n : Node) : Prop := c.node view = n

theorem forall₂_isNode {cs : List (Crown κ)} {ns : List Node} :
    List.Forall₂ (IsNode view) cs ns ↔ nodes view cs = ns := by
  rw [nodes_eq, ← List.forall₂_eq_eq_eq, List.forall₂_map_left_iff]
  rfl

variable {view} {R : World → World → Prop} {s : Service} {u : Units κ}
  (hu : u.StandFor view R s)
include hu

/-- A crown is reset as its tree is. -/
theorem reset_node (c : Crown κ) {v w : World} (hw : R v w) :
    (c.reset u v).1.node view = ((c.node view).reset s w).1 ∧
      R (c.reset u v).2 ((c.node view).reset s w).2 := by
  induction c generalizing v w with
  | unit k => exact hu.reset k hw
  | chain kind name cursor children ih =>
    have heach : List.Forall₂ (fun c n => ∀ {v w : World}, R v w →
        IsNode view (reset u c v).1 (Node.reset s n w).1 ∧
          R (reset u c v).2 (Node.reset s n w).2) children (nodes view children) := by
      rw [nodes_eq, List.forall₂_map_right_iff]
      exact List.forall₂_same.2 fun child h => fun hw => ih child h hw
    rcases resetAll_forall₂ heach hw with ⟨hstates, hafter⟩
    have hnodes := (forall₂_isNode view).1 hstates
    simp only [node, reset, Node.reset, resetChildren_eq, Node.resetChildren_eq, hnodes]
    exact ⟨rfl, hafter⟩
  | inverter child ih =>
    rcases ih hw with ⟨hstate, hafter⟩
    simp only [node, reset, Node.reset, Node.resetChild, hstate]
    exact ⟨rfl, hafter⟩
  | rounds kind limit count hlimit child ih =>
    rcases ih hw with ⟨hstate, hafter⟩
    simp only [node, reset, Node.reset, Node.resetChild, hstate, kind.reset_rounds]
    exact ⟨trivial, hafter⟩

theorem resetsAlike_node : ResetsAlike (IsNode view) R (reset u) (Node.reset s) := by
  intro c n v w hn hw
  rw [← hn]
  exact reset_node hu c hw

/-- A crown is ticked as its tree is. -/
theorem tick_node (hR : World.Coupling R) (c : Crown κ) {v w : World} (hw : R v w) :
    Ticked.Coupled (IsNode view) R (c.tick u v) ((c.node view).tick s w) := by
  induction c generalizing v w with
  | unit k =>
    have htick := hu.tick k hw
    exact ⟨htick.status, htick.state, htick.world⟩
  | chain kind name cursor children ih =>
    have hoffers : List.Forall₂ (Offer.Coupled (IsNode view) R) (offers u children)
        (Node.offers s (nodes view children)) := by
      rw [nodes_eq, offers_eq, Node.offers_eq, List.map_map, List.forall₂_map_left_iff,
        List.forall₂_map_right_iff]
      exact List.forall₂_same.2 fun child hchild => ⟨rfl, fun hw => ih child hchild hw⟩
    have htick := (Composite.chain kind name cursor).tick_coupled hR.toSharing
      (resetsAlike_node hu) hoffers hw
    rcases htick.state with ⟨hpart, hstates⟩
    rcases kind.state_tick (Node.reset s) name cursor (Node.offers s (nodes view children)) w with
      ⟨position, hposition⟩
    simp only [tick, node, Node.tick, Ticked.map]
    refine ⟨htick.status, ?_, htick.world⟩
    rw [hpart, hposition]
    exact congrArg (Node.composite _) ((forall₂_isNode view).1 hstates)
  | inverter child ih =>
    have htick := ih hw
    simp only [tick, node, Node.tick, Node.offer, Ticked.map, htick.status]
    exact ⟨rfl, congrArg (fun n => Node.decorator .inverter (some n)) htick.state, htick.world⟩
  | rounds kind limit count hlimit child ih =>
    have hoffer : Offer.Coupled (IsNode view) R ⟨child, tick u child⟩
        ⟨child.node view, Node.tick s (child.node view)⟩ := ⟨rfl, fun hw => ih hw⟩
    have htick := kind.tickRounds_coupled hR (resetsAlike_node hu) limit count hoffer hw
    rcases htick.state with ⟨hpart, hstate⟩
    rcases kind.state_tickRounds (Node.reset s) limit count
      ⟨child.node view, Node.tick s (child.node view)⟩ w with ⟨next, n, hafter⟩
    simp only [tick, node, Node.tick, Node.offer, Ticked.map, kind.tick_rounds]
    refine ⟨htick.status, ?_, htick.world⟩
    rw [hafter] at hpart hstate ⊢
    rw [hpart, kind.count_rounds]
    generalize (kind.tickRounds (reset u) limit count ⟨child, tick u child⟩ v).state.2 = left
      at hstate ⊢
    cases hstate with
    | some h => exact congrArg (fun n => Node.decorator _ (some n)) h

end

end Crown

end TickTree
