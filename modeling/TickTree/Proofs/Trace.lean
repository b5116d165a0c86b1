import TickTree.Forest
import TickTree.Proofs.Coupling.Record
import TickTree.Proofs.Reset

/-!
# Traces

The trace of a tick tells what happens in it, in order: which nodes have their turn, which callbacks
are called, which shared trees are entered, and what callbacks ask for.  Parents work on children
that keep a record of their own ticks; so the trace follows from the definition of the tick, and
says nothing of draws or statuses by itself.

A cooldown and a success rate ask their supplier before they have their turn.

Main results:

- Definition `Node.trace`: what happens in a tick of a node.
- Definition `serveTrace`: what happens in a request to a forest.
- Theorem `Node.tick_traced` and `Node.tick_traced_child`: parents do the same over children that
  keep a record.
- Theorems `Node.forall_mem_traced` and `Node.forall_mem_traced_child`: every record is empty, or
  the trace of a tick.
-/

namespace TickTree

/-- Something that happens in a tick. -/
inductive Moment where
  /-- A node has its turn. -/
  | turn (node : Node) (world : World)
  /-- A callback is called. -/
  | call (seat : Nat) (label : String)
  /-- A shared tree is entered at its root, to be ticked. -/
  | entered (tree : TreeId) (root : Node)
  /-- Something happens because a callback asks for it. -/
  | aside (moment : Moment)

/-- What happens in requests to shared trees. -/
abbrev Asked := Operation → TreeId → World → List Moment

section

variable (s : Service) (asked : Asked)

/-! ## Callbacks -/

/-- What happens in an effect. -/
def Effect.trace : Effect → World → List Moment
  | .ask operation name, w =>
    match w.named? name with
    | none => []
    | some tree => (asked operation tree w).map .aside
  | _, _ => []

/-- What happens in effects, in order. -/
def Effect.traceAll : List Effect → World → List Moment
  | [], _ => []
  | effect :: rest, w => effect.trace asked w ++ traceAll rest (effect.perform s w)

/-- What happens while a callback answers. -/
def Callback.asides {α : Type} (c : Callback α) (w : World) : List Moment :=
  let counted := w.countCall c.seat
  Effect.traceAll s asked (c.reply counted.1).effects counted.2

/-- What happens in a call of a callback. -/
def Callback.trace {α : Type} (c : Callback α) (w : World) : List Moment :=
  .call c.seat c.label :: c.asides s asked (w.emit (.called c.seat c.label))

/-- What happens when a supplier is asked. -/
def Supplier.trace {α : Type} : Supplier α → World → List Moment
  | .constant _, _ => []
  | .scripted callback, w => callback.trace s asked w

/-! ## Leaves and references -/

/-- What happens when a bypass is asked. -/
def IdleWatch.traceBypass (bypass : Option (Supplier Bool)) (w : World) : List Moment :=
  match bypass with
  | none => []
  | some bypass => bypass.trace s asked w

/-- What happens in a tick of a wait for an idle streak. -/
def IdleWatch.trace (watch : IdleWatch) (test : Supplier Bool) (bypass : Option (Supplier Bool))
    (w : World) : List Moment :=
  let asking := traceBypass s asked bypass w
  let bypassed := askBypass s bypass w
  let now := bypassed.2.now watch.clock
  if bypassed.1 = true ∨ watch.timeout < now - watch.started.getD now then asking
  else asking ++ test.trace s asked bypassed.2

/-- What happens in the turn of a leaf. -/
def Leaf.trace : Leaf → World → List Moment
  | .action _ body, w => body.trace s asked w
  | .condition _ test, w => test.trace s asked w
  | .sleep _, _ => []
  | .sleepUntil timer test, w => test.trace s asked (w.poll timer).2.2
  | .sleepUntilIdle watch test bypass, w => watch.trace s asked test bypass w
  | .probe name script _, w => script.asides s asked (w.emit (.observed script.seat name .tick))
  | .countdown _ _ _, _ => []

/-- What happens in requests, in order. -/
def Service.traceSend : List Request → World → List Moment
  | [], _ => []
  | (operation, tree) :: rest, w =>
    asked operation tree w ++ traceSend rest (s.ask operation tree w).2

/-- The world in which a reference asks its supplier. -/
def Reference.asking (r : Reference) (w : World) : World :=
  match r.kind with
  | .sticky => w.report .debug s!"{r.name}::resolve()"
  | .dynamic => w

/-- What happens in the turn of a reference. -/
def Reference.trace (r : Reference) (w : World) : List Moment :=
  let resolving := if r.resolves then r.supplier.trace s asked (r.asking w) else []
  let resolved := r.resolve s w
  resolving ++
    s.traceSend asked (r.tickRequests resolved.1) (r.announce resolved.1 resolved.2)

/-! ## Nodes -/

/-- What happens before the turn of a decorator. -/
def Decorator.preamble : Decorator → World → List Moment
  | .cooldown _ period _, w => period.trace s asked w
  | .successRate _ percentage, w => percentage.trace s asked w
  | _, _ => []

namespace Node

/-- A node with the record of its ticks. -/
abbrev Traced := Node × List Moment

/-- A reset keeps the record. -/
def tracedReset (k : Traced) (w : World) : Traced × World :=
  let rest := k.1.reset s w
  ((rest.1, k.2), rest.2)

/-- A child that records what happens in its tick. -/
def tracedOffer (child : Node) (trace : World → List Moment) : Offer Traced :=
  ⟨(child, []), fun w => (child.tick s w).map fun left => (left, trace w)⟩

mutual

/-- What happens in a tick of a node. -/
def trace : Node → World → List Moment
  | leaf part, w => .turn (leaf part) w :: part.trace s asked w
  | composite part children, w =>
    let t := part.tick (tracedReset s) (tracedOffers children) w
    .turn (composite part children) w :: t.state.2.flatMap Prod.snd
  | decorator part none, w => [.turn (decorator part none) w]
  | decorator part (some child), w =>
    let t := part.tick s (tracedReset s) (fun k => k.1.name)
      (some (tracedOffer s child fun w => trace child w)) w
    part.preamble s asked w ++
      .turn (decorator part (some child)) w :: t.state.2.toList.flatMap Prod.snd
  | reference part, w => .turn (reference part) w :: part.trace s asked w
  | embedded _ root, w => trace root w

/-- The children of a composite, which record what happens in their ticks. -/
def tracedOffers : List Node → List (Offer Traced)
  | [] => []
  | child :: rest => tracedOffer s child (fun w => trace child w) :: tracedOffers rest

end

/-! ## Records change nothing -/

variable {s asked}

theorem recordsTicks_traced (child : Node) :
    RecordsTicks s (tracedOffer s child (child.trace s asked)) child :=
  ⟨rfl, fun _ => rfl⟩

/-- The children of a composite record what happens in their ticks. -/
theorem tracedOffers_eq (children : List Node) :
    tracedOffers s asked children =
      children.map fun child => tracedOffer s child (child.trace s asked) := by
  induction children with
  | nil => simp only [tracedOffers, List.map_nil]
  | cons child rest ih => simp only [tracedOffers, List.map_cons, ih]

variable (asked) in
/-- A composite does the same over children that record what happens in their ticks. -/
theorem tick_traced (part : Composite) (children : List Node) (w : World) :
    ((part.tick (tracedReset s) (tracedOffers s asked children) w).map fun state =>
        composite state.1 (state.2.map Prod.fst)) =
      (composite part children).tick s w := by
  have hoffers : List.Forall₂ (RecordsTicks s) (tracedOffers s asked children) children := by
    rw [tracedOffers_eq, List.forall₂_map_left_iff]
    exact List.forall₂_same.2 fun child _ => recordsTicks_traced child
  exact tick_recorded (fun _ _ => rfl) part hoffers w

variable (asked) in
/-- A decorator does the same around a child that records what happens in its tick. -/
theorem tick_traced_child (part : Decorator) (child : Node) (w : World) :
    ((part.tick s (tracedReset s) (fun k => k.1.name)
        (some (tracedOffer s child (child.trace s asked))) w).map fun state =>
        decorator state.1 (state.2.map Prod.fst)) =
      (decorator part (some child)).tick s w :=
  tick_recorded_child (fun _ _ => rfl) part (.some (recordsTicks_traced child)) w

/-- What holds of the empty record and of the traces of all children holds of the records of the
children of a composite after a tick. -/
theorem forall_mem_traced {Q : List Moment → Prop} (hnil : Q []) (part : Composite)
    {children : List Node} (h : ∀ child ∈ children, ∀ w, Q (child.trace s asked w)) (w : World) :
    ∀ k ∈ (part.tick (tracedReset s) (tracedOffers s asked children) w).state.2, Q k.2 := by
  have hall : AllHandled (fun _ _ => True) (tracedReset s) (tracedOffers s asked children) w _ _ :=
    part.handled_tick World.passage_true (fun _ _ => trivial) (fun _ _ _ => trivial) w
  rw [tracedOffers_eq] at hall ⊢
  refine hall.keep (P := fun _ k => Q k.2) (fun o ho _ _ => ?_) (fun o ho u _ _ _ => ?_) ?_
  · rcases List.mem_map.1 ho with ⟨child, _, rfl⟩
    exact hnil
  · rcases List.mem_map.1 ho with ⟨child, hchild, rfl⟩
    exact h child hchild u
  · exact fun _ _ _ _ hk _ => hk

/-- What holds of the empty record and of the traces of a child holds of the record of the child of
a decorator after a tick. -/
theorem forall_mem_traced_child {Q : List Moment → Prop} (hnil : Q []) (part : Decorator)
    {child : Node} (h : ∀ w, Q (child.trace s asked w)) (w : World) :
    ∀ k, (part.tick s (tracedReset s) (fun k => k.1.name)
      (some (tracedOffer s child (child.trace s asked))) w).state.2 = some k → Q k.2 := by
  have hhandles : Decorator.Handles (fun _ _ => True) (tracedReset s) part
      (tracedOffer s child (child.trace s asked)) w
      (part.tick s (tracedReset s) (fun k => k.1.name) (some _) w) :=
    part.handles_tick World.passage_true (fun _ _ => trivial) (fun _ => trivial)
      (fun _ _ => trivial) _ w
  rcases hhandles.child with ⟨left, hleft, hhandled⟩
  intro k hk
  cases hleft.symm.trans hk
  refine hhandled.keep (P := fun _ k => Q k.2) (fun _ _ => hnil) (fun u _ _ _ => h u) ?_
  exact fun _ _ _ _ hk _ => hk

end Node

end

/-! ## Requests -/

/-- What happens in a request to a forest: a tree that is free is entered when it is to be
ticked. -/
def serveTrace (plant : PlanId → World → Option TreeId × World) : (depth : Nat) → Asked
  | 0 => fun _ _ _ => []
  | depth + 1 => fun operation tree w =>
    match operation, w.trees.get tree with
    | .tick, some ⟨root, false⟩ =>
      .entered tree root ::
        root.trace (serve plant depth) (serveTrace plant depth) (w.holdTree tree root)
    | _, _ => []

end TickTree
