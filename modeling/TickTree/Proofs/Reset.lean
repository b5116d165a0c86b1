import TickTree.Node.Tick
import TickTree.Proofs.Handling
import TickTree.Proofs.Parts

/-!
# First states and constructed nodes

No operation changes the first state of a node, and the first state of a node fresh from its
constructors is the node itself.  So a reset brings every node back to how it was made, whatever
was done to it before.

Main results:

- Theorem `Node.cleared_perform`: no operation changes the first state of a node.
- Theorem `Node.isNew_iff`: a node is as it was made exactly when it is its own first state.
- Theorem `Node.fst_reset_of_reachable`: a reset brings back the node that was made.
-/

namespace TickTree

/-! ## First states of leaves and references -/

/-- A wait for an idle streak keeps everything that a reset keeps. -/
theorem IdleWatch.reset_tick (s : Service) (watch : IdleWatch) (test : Supplier Bool)
    (bypass : Option (Supplier Bool)) (name : String) (w : World) :
    (watch.tick s test bypass name w).state.reset = watch.reset := by
  unfold IdleWatch.tick
  simp only []
  split
  · rfl
  · split
    · rfl
    · split
      · split <;> rfl
      · rfl

/-- A tick keeps the first state of a leaf. -/
theorem Leaf.reset_tick (s : Service) (part : Leaf) (w : World) :
    (part.tick s w).state.reset = part.reset := by
  cases part with
  | action name body =>
    simp only [Leaf.tick]
    split <;> rfl
  | condition name test =>
    simp only [Leaf.tick]
    split <;> rfl
  | sleep timer =>
    have htimer : (w.poll timer).2.1.disarm = timer.disarm := timer.disarm_poll _ _ _
    rcases hpolled : w.poll timer with ⟨expired, polled, after⟩
    rw [hpolled] at htimer
    cases expired with
    | true => simp only [Leaf.tick, hpolled, Leaf.reset, Timer.disarm_disarm, htimer]
    | false => simp only [Leaf.tick, hpolled, Leaf.reset, htimer]
  | sleepUntil timer test =>
    have htimer : (w.poll timer).2.1.disarm = timer.disarm := timer.disarm_poll _ _ _
    simp only [Leaf.tick]
    split
    · simp only [Leaf.reset, Timer.disarm_disarm, htimer]
    · split
      · simp only [Leaf.reset, Timer.disarm_disarm, htimer]
      · simp only [Leaf.reset, htimer]
  | sleepUntilIdle watch test bypass =>
    simp only [Leaf.tick, Ticked.map, Leaf.reset, IdleWatch.reset_tick]
  | probe name script hooks => rfl
  | countdown name count remaining => cases remaining <;> rfl

/-- No operation other than a tick changes a reference more than letting its target go does. -/
theorem Reference.letGo_after (r : Reference) (operation : Operation) :
    (r.after operation).letGo = r.letGo := by
  rcases r with ⟨kind, name, supplier, held⟩
  cases operation <;> cases kind <;> rfl

namespace Node

/-! ## Children of nodes -/

/-- In a tick of a composite its children are ticked and reset, and nothing else is done to them. -/
theorem handled_children (s : Service) (part : Composite) (children : List Node) (w : World) :
    AllHandled (fun _ _ => True) (reset s) (offers s children) w
      (part.tick (reset s) (offers s children) w).world
      (part.tick (reset s) (offers s children) w).state.2 :=
  part.handled_tick World.passage_true (fun _ _ => trivial) (fun _ _ _ => trivial) w

/-- In a tick of a decorator its child is ticked and reset, and nothing else is done to it. -/
theorem handled_child (s : Service) (part : Decorator) (child : Node) (w : World) :
    Decorator.Handles (fun _ _ => True) (reset s) part ⟨child, fun w => child.tick s w⟩ w
      (part.tick s (reset s) name (some ⟨child, fun w => child.tick s w⟩) w) :=
  part.handles_tick World.passage_true (fun _ _ => trivial) (fun _ => trivial)
    (fun _ _ => trivial) name w

/-! ## First states under all operations -/

/-- A tick keeps the first state of a node. -/
theorem cleared_tick (s : Service) (n : Node) (w : World) :
    (n.tick s w).state.cleared = n.cleared := by
  have hreset : ∀ (k : Node) (v : World), (k.reset s v).1.cleared = k.cleared := by
    intro k v
    rw [fst_reset, cleared_cleared]
  induction n generalizing w with
  | leaf part =>
    simp only [tick, Ticked.map, cleared, Leaf.reset_tick]
  | composite part children ih =>
    have hoffers : ∀ offer ∈ offers s children, ∀ v, (offer.tick v).state.cleared =
        offer.state.cleared := by
      intro offer hoffer v
      rcases exists_of_mem_offers hoffer with ⟨child, hchild, rfl⟩
      exact ih child hchild v
    have hall := handled_children s part children w
    have hstates := hall.views_eq cleared hoffers hreset
    simp only [tick, Ticked.map, cleared, Composite.reset_tick, clearedChildren_eq]
    rw [hstates, offers_eq, List.map_map]
    rfl
  | decorator part child ih =>
    cases child with
    | none => simp only [tick, offer, Decorator.tick_none, Ticked.map, cleared]
    | some inner =>
      have hhandles := handled_child s part inner w
      rcases hhandles.child with ⟨left, hleft, hhandled⟩
      have hstate : left.cleared = inner.cleared := hhandled.view_eq cleared (ih inner rfl) hreset
      simp only [tick, offer, Ticked.map, cleared, hhandles.part, hleft, clearedChild, hstate]
  | reference part =>
    simp only [tick, Ticked.map, cleared]
    rfl
  | embedded tag root ih => simp only [tick, Ticked.map, cleared, ih]

/-- A start changes no node. -/
theorem fst_start (s : Service) (n : Node) (w : World) : (n.start s w).1 = n := by
  induction n with
  | leaf part => rfl
  | composite part children => rfl
  | decorator part child => rfl
  | reference part => rfl
  | embedded tag root ih => simp only [start, ih]

/-- A finish keeps the first state of a node. -/
theorem cleared_finish (s : Service) (n : Node) (w : World) :
    (n.finish s w).1.cleared = n.cleared := by
  induction n with
  | leaf part => rfl
  | composite part children => rfl
  | decorator part child => rfl
  | reference part => simp only [finish, cleared, Reference.perform, Reference.letGo_after]
  | embedded tag root ih => simp only [finish, cleared, ih]

/-- No operation changes the first state of a node. -/
theorem cleared_perform (s : Service) (operation : Operation) (n : Node) (w : World) :
    (n.perform s operation w).2.1.cleared = n.cleared := by
  cases operation with
  | tick => exact n.cleared_tick s w
  | reset =>
    simp only [perform, fst_reset]
    exact n.cleared_cleared
  | start =>
    simp only [perform, fst_start]
  | finish => exact n.cleared_finish s w

/-- Every operation leaves a tree made of the same parts. -/
theorem MadeOf.perform {p : Trait} {n : Node} (h : n.MadeOf p) (s : Service)
    (operation : Operation) (w : World) : (n.perform s operation w).2.1.MadeOf p :=
  h.of_cleared_eq (n.cleared_perform s operation w)

end Node

/-! ## Constructed nodes -/

/-- A leaf as its constructor makes it. -/
inductive Leaf.IsNew : Leaf → Prop
  | action (name : String) (body : Supplier (Except Failure Status)) : IsNew (.action name body)
  | condition (name : String) (test : Supplier (Except Failure Bool)) :
    IsNew (.condition name test)
  | sleep (wait : Duration) (config : Config) : IsNew (.sleep (.new wait config))
  | sleepUntil (wait : Duration) (config : Config) (test : Supplier Bool) :
    IsNew (.sleepUntil (.new wait config) test)
  | sleepUntilIdle (idleFor timeout : Duration) (config : Config) (test : Supplier Bool)
    (bypass : Option (Supplier Bool)) :
    IsNew (.sleepUntilIdle (.new idleFor timeout config) test bypass)
  | probe (name : String) (script : Callback Status) (hooks : Bool) :
    IsNew (.probe name script hooks)
  | countdown (name : String) (count : Nat) : IsNew (.countdown name count count)

/-- A composite as its constructor makes it. -/
inductive Composite.IsNew : Composite → Prop
  | chain (kind : Chain) (name : String) : IsNew (.named kind name)
  | randomSelector (source : SourceId) : IsNew (.randomSelector source none)
  | parallel (success failure : Policy) : IsNew (.parallel success failure)

/-- A decorator as its constructor makes it. -/
inductive Decorator.IsNew : Decorator → Prop
  | inverter : IsNew .inverter
  | repeated (times : Int32) : IsNew (.repeated times)
  | retried (attempts : Int32) : IsNew (.retried attempts)
  | cooled (period : Supplier Duration) (config : Config) : IsNew (.cooled period config)
  | rated (percentage : Supplier Float32) (config : Config) : IsNew (.rated percentage config)
  | awaited (wait : Duration) (config : Config) : IsNew (.awaited wait config)

/-- A node of library nodes, each as its constructor makes it. -/
inductive Node.IsNew : Node → Prop
  | leaf {part : Leaf} (h : part.IsNew) : IsNew (.leaf part)
  | composite {part : Composite} {children : List Node} (h : part.IsNew)
    (hchildren : ∀ child ∈ children, IsNew child) : IsNew (.composite part children)
  | bare {part : Decorator} (h : part.IsNew) : IsNew (.decorator part none)
  | decorator {part : Decorator} {child : Node} (h : part.IsNew) (hchild : IsNew child) :
    IsNew (.decorator part (some child))
  | reference (kind : Reference.Kind) (name : String) (supplier : Supplier (Option Supply)) :
    IsNew (.reference (.new kind name supplier))
  | embedded {tag : Option Tag} {root : Node} (h : IsNew root) : IsNew (.embedded tag root)

/-- A leaf is as it was made exactly when it is its own first state. -/
theorem Leaf.isNew_iff (part : Leaf) : part.IsNew ↔ part.reset = part := by
  constructor
  · intro h
    cases h <;> rfl
  · intro h
    cases part with
    | action name body => exact .action name body
    | condition name test => exact .condition name test
    | sleep timer =>
      rcases timer with ⟨⟨wait, spread⟩, clock, source, armed⟩
      cases h
      exact .sleep wait ⟨clock, source, spread⟩
    | sleepUntil timer test =>
      rcases timer with ⟨⟨wait, spread⟩, clock, source, armed⟩
      cases h
      exact .sleepUntil wait ⟨clock, source, spread⟩ test
    | sleepUntilIdle watch test bypass =>
      rcases watch with ⟨idleFor, timeout, clock, started, idleSince⟩
      cases h
      exact .sleepUntilIdle idleFor timeout ⟨clock, 0, defaultSpread⟩ test bypass
    | probe name script hooks => exact .probe name script hooks
    | countdown name count remaining =>
      cases h
      exact .countdown name count

/-- A composite is as it was made exactly when it is its own first state. -/
theorem Composite.isNew_iff (part : Composite) : part.IsNew ↔ part.reset = part := by
  constructor
  · intro h
    cases h <;> rfl
  · intro h
    cases part with
    | chain kind name cursor =>
      cases h
      exact .chain kind name
    | randomSelector source selected =>
      cases h
      exact .randomSelector source
    | parallel success failure => exact .parallel success failure

/-- A decorator is as it was made exactly when it is its own first state. -/
theorem Decorator.isNew_iff (part : Decorator) : part.IsNew ↔ part.reset = part := by
  constructor
  · intro h
    cases h <;> rfl
  · intro h
    cases part with
    | inverter => exact .inverter
    | repetition limit count =>
      cases h
      exact .repeated limit
    | retry limit count =>
      cases h
      exact .retried limit
    | cooldown clock period last =>
      cases h
      exact .cooled period ⟨clock, 0, defaultSpread⟩
    | successRate source percentage => exact .rated percentage ⟨0, source, defaultSpread⟩
    | sleepUntilSuccess timer =>
      rcases timer with ⟨⟨wait, spread⟩, clock, source, armed⟩
      cases h
      exact .awaited wait ⟨clock, source, spread⟩

namespace Node

/-- A node is as it was made exactly when it is its own first state. -/
theorem isNew_iff (n : Node) : n.IsNew ↔ n.cleared = n := by
  induction n with
  | leaf part =>
    rw [cleared, leaf.injEq, ← part.isNew_iff]
    exact ⟨fun h => by cases h; assumption, .leaf⟩
  | composite part children ih =>
    have hmap : children.map cleared = children ↔ ∀ child ∈ children, child.cleared = child := by
      have hid := List.map_inj_left (l := children) (f := cleared) (g := id)
      rwa [List.map_id] at hid
    rw [cleared, composite.injEq, ← part.isNew_iff, clearedChildren_eq, hmap]
    constructor
    · intro h
      cases h with
      | composite hpart hchildren =>
        exact ⟨hpart, fun child h => (ih child h).1 (hchildren child h)⟩
    · intro h
      rcases h with ⟨hpart, hchildren⟩
      exact .composite hpart fun child h => (ih child h).2 (hchildren child h)
  | decorator part child ih =>
    rw [cleared, decorator.injEq, ← part.isNew_iff, clearedChild_eq]
    cases child with
    | none =>
      constructor
      · intro h
        cases h with
        | bare hpart => exact ⟨hpart, rfl⟩
      · intro h
        exact .bare h.1
    | some inner =>
      rw [Option.map_some, Option.some.injEq]
      constructor
      · intro h
        cases h with
        | decorator hpart hchild => exact ⟨hpart, (ih inner rfl).1 hchild⟩
      · intro h
        rcases h with ⟨hpart, hchild⟩
        exact .decorator hpart ((ih inner rfl).2 hchild)
  | reference part =>
    rcases part with ⟨kind, name, supplier, held⟩
    constructor
    · intro h
      cases h
      rfl
    · intro h
      cases h
      exact .reference kind name supplier
  | embedded tag root ih =>
    rw [cleared, embedded.injEq, ← ih]
    constructor
    · intro h
      cases h with
      | embedded hroot => exact ⟨rfl, hroot⟩
    · intro h
      exact .embedded h.2

/-! ## Reachable states -/

/-- The states that a node can reach by any operations.  Each may find the world changed at will,
and requests may be answered in any way. -/
inductive Reachable (made : Node) : Node → Prop
  | made : Reachable made made
  | perform {n : Node} (s : Service) (operation : Operation) (w : World)
    (h : Reachable made n) : Reachable made (n.perform s operation w).2.1

/-- All states that a node can reach have its first state. -/
theorem cleared_of_reachable {made n : Node} (h : Reachable made n) :
    n.cleared = made.cleared := by
  induction h with
  | made => rfl
  | perform s operation w _ ih => rw [cleared_perform, ih]

/-- All states that a tree can reach are made of the same parts. -/
theorem MadeOf.of_reachable {p : Trait} {made n : Node} (h : made.MadeOf p)
    (hn : Reachable made n) : n.MadeOf p :=
  h.of_cleared_eq (cleared_of_reachable hn)

/-- A reset brings back the node that was made. -/
theorem fst_reset_of_reachable {made n : Node} (hmade : made.IsNew) (h : Reachable made n)
    (s : Service) (w : World) : (n.reset s w).1 = made := by
  rw [fst_reset, cleared_of_reachable h]
  exact made.isNew_iff.1 hmade

end Node

end TickTree
