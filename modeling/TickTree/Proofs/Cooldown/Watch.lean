import TickTree.Proofs.Cooldown.Clock
import TickTree.Proofs.Coupling.Record
import TickTree.Proofs.Reset

/-!
# Watching a node inside a tree

A tick of a tree is carried out with a record of what happens to one of its nodes: whether it is
ticked, in which worlds and with which status, and in which worlds it is reset afterwards.  The
parents above the node work on children that carry such records; so the record follows from the
definition of the tick alone.  A parent that resets its child resets all that stands below it: the
record tells where on the way the watched node has its turn.

Main results:

- Theorem `Node.map_fst_watch`: watching a node does not change what the tick does.
- Theorem `Node.wasReset_watch`: below decorators that spare their children no reset reaches a node.
- Theorem `Node.carriedOut_resetAt`: a reset of a tree is carried out on the node at each place.
- Theorem `Node.recorded_watch`: in a tick the node is ticked and then reset, as recorded.
-/

namespace TickTree

/-! ## Places in a tree -/

namespace Node

/-- The node at a place: a path of positions of children, from the root downwards.  Below a
decorator and below the root of an embedded tree all positions mean the one child. -/
def at? : (path : List Nat) → Node → Option Node
  | [], n => some n
  | i :: rest, composite _ children => children[i]?.bind (at? rest)
  | _ :: rest, decorator _ child => child.bind (at? rest)
  | _ :: rest, embedded _ root => at? rest root
  | _ :: _, leaf _ => none
  | _ :: _, reference _ => none

/-- All nodes on the way to a place are embedded trees or decorators that spare their children. -/
def sparedAlong : (path : List Nat) → Node → Bool
  | [], _ => true
  | _ :: rest, decorator part (some child) => part.spares && sparedAlong rest child
  | _ :: rest, embedded _ root => sparedAlong rest root
  | _ :: _, _ => false

/-- A path on from a place. -/
theorem at?_append (path last : List Nat) (n : Node) :
    n.at? (path ++ last) = (n.at? path).bind (at? last) := by
  induction path generalizing n with
  | nil => rfl
  | cons i rest ih =>
    have hon : at? (rest ++ last) = fun m => (at? rest m).bind (at? last) := funext ih
    cases n with
    | leaf part => rfl
    | composite part children => simp only [List.cons_append, at?, hon, Option.bind_assoc]
    | decorator part child => simp only [List.cons_append, at?, hon, Option.bind_assoc]
    | reference part => rfl
    | embedded tag root => exact ih root

/-- A first state has the first states of a node's parts in their places. -/
theorem at?_cleared (path : List Nat) (n : Node) :
    n.cleared.at? path = (n.at? path).map cleared := by
  induction path generalizing n with
  | nil => rfl
  | cons i rest ih =>
    cases n with
    | leaf part => rfl
    | composite part children =>
      simp only [cleared, at?, clearedChildren_eq, List.getElem?_map]
      cases children[i]? with
      | none => rfl
      | some child => exact ih child
    | decorator part child =>
      cases child with
      | none => rfl
      | some inner => exact ih inner
    | reference part => rfl
    | embedded tag root => exact ih root

/-- Whether the nodes on the way spare their children does not change. -/
theorem sparedAlong_cleared (path : List Nat) (n : Node) :
    n.cleared.sparedAlong path = n.sparedAlong path := by
  induction path generalizing n with
  | nil => rfl
  | cons i rest ih =>
    cases n with
    | leaf part => rfl
    | composite part children => rfl
    | decorator part child =>
      cases child with
      | none => rfl
      | some inner =>
        simp only [cleared, clearedChild, sparedAlong, Decorator.spares_reset, ih]
    | reference part => rfl
    | embedded tag root =>
      simp only [cleared, sparedAlong]
      exact ih root

end Node

/-! ## Records -/

/-- One tick of a watched node: the world before it, its status, and the world after it. -/
structure Turn where
  before : World
  status : Status
  after : World

/-- One reset of a watched node: the node as it is reset, and the worlds before and after. -/
structure Reset where
  node : Node
  before : World
  after : World

/-- What happens to a watched node in one operation on its tree: its own tick, if it has its turn,
and its resets after that. -/
structure Activity where
  turn : Option Turn
  resets : List Reset

/-- Nothing happens. -/
def Activity.quiet : Activity := ⟨none, []⟩

/-- A reset reaches the watched node. -/
def Activity.wasReset (a : Activity) : Bool := !a.resets.isEmpty

/-- The node is reset when a reset of it is recorded. -/
theorem Activity.wasReset_iff {a : Activity} : a.wasReset = true ↔ ∃ reset, reset ∈ a.resets := by
  rw [wasReset, Bool.not_eq_true', List.isEmpty_eq_false_iff_exists_mem]

namespace Node

/-- The reset of the node at a place, when the tree is reset: all that stands before the node is
reset first. -/
def resetAt (s : Service) : (path : List Nat) → Node → World → Option Reset
  | [], n, w => some ⟨n, w, (n.reset s w).2⟩
  | i :: rest, composite _ children, w =>
    children[i]?.bind fun child => resetAt s rest child (resetAll (reset s) (children.take i) w).2
  | _ :: rest, decorator _ child, w => child.bind fun inner => resetAt s rest inner w
  | _ :: rest, embedded _ root, w => resetAt s rest root w
  | _ :: _, leaf _, _ => none
  | _ :: _, reference _, _ => none

/-- Resets a tree in which the node at a place is watched; the reset is recorded if it reaches that
node. -/
def watchedReset (s : Service) (path : List Nat) (k : Node × Activity) (w : World) :
    (Node × Activity) × World :=
  let rest := k.1.reset s w
  ((rest.1, { k.2 with resets := k.2.resets ++ (k.1.resetAt s path w).toList }), rest.2)

/-- One tick of a tree in which the node at a place is watched.  All children of a composite are
watched along the rest of the path, and only the record of the one on the path is kept. -/
def watch (s : Service) : (path : List Nat) → Node → World → Ticked (Node × Activity)
  | [], n, w =>
    let t := n.tick s w
    ⟨t.status, (t.state, ⟨some ⟨w, t.status, t.world⟩, []⟩), t.world⟩
  | i :: rest, composite part children, w =>
    let t := part.tick (watchedReset s rest)
      (children.map fun child => ⟨(child, .quiet), watch s rest child⟩) w
    t.map fun state => (composite state.1 (state.2.map Prod.fst),
      (state.2[i]?.map Prod.snd).getD .quiet)
  | _ :: rest, decorator part child, w =>
    let t := part.tick s (watchedReset s rest) (fun k => k.1.name)
      (child.map fun inner => ⟨(inner, .quiet), watch s rest inner⟩) w
    t.map fun state => (decorator state.1 (state.2.map Prod.fst),
      (state.2.map Prod.snd).getD .quiet)
  | _ :: rest, embedded tag root, w =>
    (watch s rest root w).map fun state => (embedded tag state.1, state.2)
  | _ :: _, leaf part, w => ((leaf part).tick s w).map fun state => (state, .quiet)
  | _ :: _, reference part, w => ((reference part).tick s w).map fun state => (state, .quiet)

/-- A child that is watched along a path, as its parent sees it. -/
def watched (s : Service) (path : List Nat) (child : Node) : Offer (Node × Activity) :=
  ⟨(child, .quiet), child.watch s path⟩

/-- A composite is ticked over its watched children. -/
theorem watch_composite (s : Service) (i : Nat) (rest : List Nat) (part : Composite)
    (children : List Node) (w : World) :
    (composite part children).watch s (i :: rest) w =
      (part.tick (watchedReset s rest) (children.map (watched s rest)) w).map fun state =>
        (composite state.1 (state.2.map Prod.fst), (state.2[i]?.map Prod.snd).getD .quiet) := rfl

/-- A decorator is ticked around its watched child. -/
theorem watch_decorator (s : Service) (i : Nat) (rest : List Nat) (part : Decorator)
    (inner : Node) (w : World) :
    (decorator part (some inner)).watch s (i :: rest) w =
      (part.tick s (watchedReset s rest) (fun k => k.1.name) (some (watched s rest inner)) w).map
        fun state => (decorator state.1 (state.2.map Prod.fst),
          (state.2.map Prod.snd).getD .quiet) := rfl

/-! ## Watching changes nothing -/

/-- Watching a node does not change what the tick does. -/
theorem map_fst_watch (s : Service) (path : List Nat) (n : Node) (w : World) :
    (n.watch s path w).map Prod.fst = n.tick s w := by
  have hreset : ∀ rest, RecordsResets s (watchedReset s rest) := fun _ _ _ => rfl
  induction path generalizing n w with
  | nil => rfl
  | cons i rest ih =>
    have hoffer : ∀ child : Node, RecordsTicks s (child.watched s rest) child :=
      fun child => ⟨rfl, ih child⟩
    cases n with
    | leaf part => rfl
    | composite part children =>
      have hoffers : List.Forall₂ (RecordsTicks s) (children.map (watched s rest)) children :=
        List.forall₂_map_left_iff.2 (List.forall₂_same.2 fun child _ => hoffer child)
      exact tick_recorded (hreset rest) part hoffers w
    | decorator part child =>
      have hoffers : Option.Rel (RecordsTicks s) (child.map (watched s rest)) child := by
        cases child with
        | none => exact .none
        | some inner => exact .some (hoffer inner)
      exact tick_recorded_child (hreset rest) part hoffers w
    | reference part => rfl
    | embedded tag root =>
      have hroot := ih root w
      simp only [watch, tick, ← hroot]
      rfl

/-- The world after a watched tick. -/
theorem world_watch (s : Service) (path : List Nat) (n : Node) (w : World) :
    (n.watch s path w).world = (n.tick s w).world :=
  congrArg Ticked.world (n.map_fst_watch s path w)

/-- The tree after a watched tick. -/
theorem fst_state_watch (s : Service) (path : List Nat) (n : Node) (w : World) :
    (n.watch s path w).state.1 = (n.tick s w).state :=
  congrArg Ticked.state (n.map_fst_watch s path w)

/-- A watched tick keeps the first state of a tree. -/
theorem cleared_watch (s : Service) (path : List Nat) (n : Node) (w : World) :
    (n.watch s path w).state.1.cleared = n.cleared := by
  rw [fst_state_watch, cleared_tick]

/-! ## Spared nodes -/

/-- Below decorators that spare their children no reset reaches a node. -/
theorem wasReset_watch (s : Service) (path last : List Nat) (n : Node)
    (hspared : n.sparedAlong path = true)
    (hlast : ∀ (m : Node) (u : World), n.at? path = some m →
      (m.watch s last u).state.2.wasReset = false) (w : World) :
    (n.watch s (path ++ last) w).state.2.wasReset = false := by
  induction path generalizing n w with
  | nil => exact hlast n w rfl
  | cons i rest ih =>
    cases n with
    | leaf part => cases hspared
    | composite part children => cases hspared
    | decorator part child =>
      cases child with
      | none => cases hspared
      | some inner =>
        simp only [sparedAlong, Bool.and_eq_true] at hspared
        rcases hspared with ⟨hpart, hinner⟩
        -- Resets that do nothing take the place of the resets that never come.
        have hstill : Decorator.Handles (fun _ _ => True) (fun k u => (k, u)) part
            (inner.watched s (rest ++ last)) w
            (part.tick s (fun k u => (k, u)) (fun k => k.1.name) _ w) :=
          part.handles_tick World.passage_true (fun _ _ => trivial) (fun _ => trivial)
            (fun _ _ => trivial) _ w
        rcases hstill.child with ⟨k, hk, hhandled⟩
        have hview : k.2.wasReset = false :=
          hhandled.view_eq (fun k => k.2.wasReset) (ih inner hinner hlast) fun _ _ => rfl
        simp only [List.cons_append, watch_decorator, Ticked.map]
        rw [part.tick_of_spares hpart s (watchedReset s (rest ++ last)) fun k u => (k, u), hk]
        exact hview
    | reference part => cases hspared
    | embedded tag root =>
      simp only [List.cons_append, watch, Ticked.map]
      exact ih root hspared hlast w

end Node

/-! ## Resets and places -/

/-- A reset is carried out between two worlds on the node at a place, where that node has a certain
first state. -/
structure Reset.CarriedOut (le : World → World → Prop) (s : Service) (place : Option Node)
    (v w : World) (reset : Reset) : Prop where
  node : place = some reset.node.cleared
  carried : reset.after = (reset.node.reset s reset.before).2
  begins : le v reset.before
  ends : le reset.after w

/-- What happens between two worlds happens between worlds further apart. -/
theorem Reset.CarriedOut.widen {le : World → World → Prop} (hle : World.Passage le) {s : Service}
    {place : Option Node} {v w v' w' : World} {reset : Reset}
    (h : reset.CarriedOut le s place v w) (hv : le v' v) (hw : le w w') :
    reset.CarriedOut le s place v' w' :=
  ⟨h.node, h.carried, hle.trans hv h.begins, hle.trans h.ends hw⟩

/-- Whatever a node does leads to a later world. -/
structure Service.Passes (le : World → World → Prop) (s : Service) : Prop
    extends World.Passage le where
  get : ∀ {α : Type} (supplier : Supplier α) (w : World), le w (supplier.get s w).2
  perform : ∀ (operation : Operation) (n : Node) (w : World), le w (n.perform s operation w).2.2

/-- A tick leads to a later world. -/
theorem Service.Passes.tick {le : World → World → Prop} {s : Service} (hs : s.Passes le) (n : Node)
    (w : World) : le w (n.tick s w).world :=
  hs.perform .tick n w

/-- A reset leads to a later world. -/
theorem Service.Passes.reset {le : World → World → Prop} {s : Service} (hs : s.Passes le) (n : Node)
    (w : World) : le w (n.reset s w).2 :=
  hs.perform .reset n w

/-- Every world may follow every other. -/
theorem Service.passes_true (s : Service) : s.Passes fun _ _ => True where
  toPassage := World.passage_true
  get _ _ := trivial
  perform _ _ _ := trivial

/-- A service that sets no clock back leads to later readings. -/
theorem Service.Forward.passes {clock : ClockId} {s : Service} (hs : s.Forward clock) :
    s.Passes (World.Before clock) where
  toPassage := World.passage_before clock
  get := Supplier.before_get hs
  perform := Node.before_perform hs

namespace Node

/-- The node at a place is the one that is reset there. -/
theorem map_node_resetAt (s : Service) (path : List Nat) (n : Node) (w : World) :
    (n.resetAt s path w).map Reset.node = n.at? path := by
  induction path generalizing n w with
  | nil => rfl
  | cons i rest ih =>
    cases n with
    | leaf part => rfl
    | composite part children =>
      simp only [resetAt, at?]
      cases children[i]? with
      | none => rfl
      | some child => exact ih child _
    | decorator part child =>
      cases child with
      | none => rfl
      | some inner => exact ih inner w
    | reference part => rfl
    | embedded tag root => exact ih root w

/-- A watched node that is there is reset with its tree. -/
theorem wasReset_watchedReset (s : Service) {path : List Nat} {k : Node × Activity} {m : Node}
    (h : k.1.at? path = some m) (w : World) :
    (watchedReset s path k w).1.2.wasReset = true := by
  rw [← map_node_resetAt s path k.1 w] at h
  rcases Option.map_eq_some_iff.1 h with ⟨reset, hreset, -⟩
  exact Activity.wasReset_iff.2 ⟨reset, List.mem_append_right _ (Option.mem_toList.2 hreset)⟩

variable {le : World → World → Prop} {s : Service} (hs : s.Passes le)

include hs in
/-- A reset of a tree is carried out on the node at each place. -/
theorem carriedOut_resetAt {path : List Nat} {n : Node} {w : World} {reset : Reset}
    (h : n.resetAt s path w = some reset) :
    reset.CarriedOut le s (n.cleared.at? path) w (n.reset s w).2 := by
  induction path generalizing n w with
  | nil =>
    cases h
    exact ⟨rfl, rfl, hs.refl w, hs.refl _⟩
  | cons i rest ih =>
    cases n with
    | leaf part => cases h
    | composite part children =>
      rcases Option.bind_eq_some_iff.1 h with ⟨child, hchild, h⟩
      have hplace : (composite part children).cleared.at? (i :: rest) = child.cleared.at? rest := by
        simp only [cleared, at?, clearedChildren_eq, List.getElem?_map, hchild]
        rfl
      rcases reaches_resetAll hs.toPassage hs.reset hchild w with ⟨hbefore, hafter, -⟩
      have hreached := (ih h).widen hs.toPassage hbefore hafter
      rw [hplace]
      simpa only [Node.reset, resetChildren_eq] using hreached
    | decorator part child =>
      rcases Option.bind_eq_some_iff.1 h with ⟨inner, rfl, h⟩
      exact ih h
    | reference part => cases h
    | embedded tag root => exact ih (n := root) h

end Node

/-! ## What records say -/

/-- A tick lies between two worlds. -/
structure Turn.Within (le : World → World → Prop) (v w : World) (turn : Turn) : Prop where
  begins : le v turn.before
  lasts : le turn.before turn.after
  ends : le turn.after w

/-- What is recorded of the node at a place while a tree is at work between two worlds, and what is
left of the tree: the node is ticked and reset in between, the resets come after the tick, and they
leave the node in its first state. -/
structure Recorded (le : World → World → Prop) (s : Service) (path : List Nat) (n : Node)
    (v w : World) (k : Node × Activity) : Prop where
  kept : k.1.cleared = n.cleared
  pass : le v w
  turn : ∀ turn, k.2.turn = some turn → turn.Within le v w
  resets : ∀ reset ∈ k.2.resets, reset.CarriedOut le s (n.cleared.at? path) v w
  order : ∀ turn, k.2.turn = some turn → ∀ reset ∈ k.2.resets, le turn.after reset.before
  renewed : k.2.wasReset = true → k.1.at? path = n.cleared.at? path

namespace Recorded

variable {le : World → World → Prop} {s : Service} {path : List Nat} {n : Node} {v w : World}

/-- Nothing is recorded of a node to which nothing happens. -/
theorem quiet {m : Node} (hkept : m.cleared = n.cleared) (hpass : le v w) :
    Recorded le s path n v w (m, .quiet) where
  kept := hkept
  pass := hpass
  turn _ hturn := nomatch hturn
  resets _ hreset := absurd hreset List.not_mem_nil
  order _ hturn := nomatch hturn
  renewed hreset := nomatch hreset

theorem widen (hle : World.Passage le) {v' w' : World} {k : Node × Activity}
    (h : Recorded le s path n v w k) (hv : le v' v) (hw : le w w') :
    Recorded le s path n v' w' k where
  kept := h.kept
  pass := hle.trans hv (hle.trans h.pass hw)
  turn turn hturn :=
    have hwithin := h.turn turn hturn
    ⟨hle.trans hv hwithin.begins, hwithin.lasts, hle.trans hwithin.ends hw⟩
  resets reset hreset := (h.resets reset hreset).widen hle hv hw
  order := h.order
  renewed := h.renewed

/-- Only the first state of the tree matters for a record. -/
theorem of_cleared {m : Node} {k : Node × Activity} (h : Recorded le s path m v w k)
    (hm : m.cleared = n.cleared) : Recorded le s path n v w k := by
  constructor
  case kept => rw [h.kept, hm]
  case pass => exact h.pass
  case turn => exact h.turn
  case resets =>
    rw [← hm]
    exact h.resets
  case order => exact h.order
  case renewed =>
    rw [← hm]
    exact h.renewed

variable (hs : s.Passes le)

include hs in
/-- A reset of the tree is recorded. -/
theorem reset {u : World} {k : Node × Activity} (h : Recorded le s path n v u k) (hstart : le v u)
    (hstop : le (k.1.reset s u).2 w) :
    Recorded le s path n v w (Node.watchedReset s path k u).1 := by
  have hpass : le u w := hs.trans (hs.reset k.1 u) hstop
  have hreached : ∀ reset ∈ (k.1.resetAt s path u).toList,
      reset.CarriedOut le s (n.cleared.at? path) u w := by
    intro reset hreset
    have hcarried := Node.carriedOut_resetAt hs (Option.mem_toList.1 hreset)
    rw [h.kept] at hcarried
    exact hcarried.widen hs.toPassage (hs.refl u) hstop
  have hrecord := h.widen hs.toPassage (hs.refl v) hpass
  constructor
  case kept => simp only [Node.watchedReset, Node.fst_reset, Node.cleared_cleared, h.kept]
  case pass => exact hrecord.pass
  case turn => exact hrecord.turn
  case resets =>
    intro reset hreset
    rcases List.mem_append.1 hreset with hearlier | hnow
    · exact hrecord.resets reset hearlier
    · exact (hreached reset hnow).widen hs.toPassage hstart (hs.refl w)
  case order =>
    intro turn hturn reset hreset
    rcases List.mem_append.1 hreset with hearlier | hnow
    · exact h.order turn hturn reset hearlier
    · exact hs.trans (h.turn turn hturn).ends (hreached reset hnow).begins
  case renewed =>
    intro _
    simp only [Node.watchedReset, Node.fst_reset, h.kept]

include hs in
/-- A child that its parent handles is recorded. -/
theorem of_handled {k : Node × Activity}
    (hwatch : ∀ u, Recorded le s path n u (n.watch s path u).world (n.watch s path u).state)
    (h : Handled le (Node.watchedReset s path) (n.watched s path) v w k) :
    Recorded le s path n v w k :=
  h.keep (P := fun w k => Recorded le s path n v w k) (fun _ hpass => .quiet rfl hpass)
    (fun u _ hstart hstop => (hwatch u).widen hs.toPassage hstart hstop)
    fun _ _ _ hstart hk hstop => hk.reset hs hstart hstop

/-- What is recorded of a node below a child is recorded of it below the parent. -/
theorem lift {child m : Node} {rest : List Nat} {i : Nat} {k : Node × Activity}
    (h : Recorded le s rest child v w k) (hkept : m.cleared = n.cleared)
    (hplace : n.cleared.at? (i :: rest) = child.cleared.at? rest)
    (hleft : m.at? (i :: rest) = k.1.at? rest) : Recorded le s (i :: rest) n v w (m, k.2) where
  kept := hkept
  pass := h.pass
  turn := h.turn
  resets := by
    rw [hplace]
    exact h.resets
  order := h.order
  renewed hreset := by rw [hplace, hleft, h.renewed hreset]

end Recorded

namespace Node

variable {le : World → World → Prop} {s : Service} (hs : s.Passes le)

include hs in
/-- A composite handles its watched children. -/
theorem handled_watched (part : Composite) (children : List Node) (rest : List Nat) (w : World) :
    let t := part.tick (watchedReset s rest) (children.map (watched s rest)) w
    AllHandled le (watchedReset s rest) (children.map (watched s rest)) w t.world t.state.2 := by
  refine part.handled_tick hs.toPassage (fun (k : Node × Activity) u => hs.reset k.1 u)
    (fun o ho u => ?_) w
  rcases List.mem_map.1 ho with ⟨child, -, rfl⟩
  simp only [watched, world_watch]
  exact hs.tick child u

/-- The watched child at a position. -/
theorem getElem?_watched {children : List Node} {i : Nat} {child : Node}
    (h : children[i]? = some child) (rest : List Nat) :
    (children.map (watched s rest))[i]? = some (watched s rest child) := by
  rw [List.getElem?_map, h, Option.map_some]

/-- There is no watched child where there is none. -/
theorem getElem?_watched_of_none {children : List Node} {i : Nat}
    (h : children[i]? = none) (rest : List Nat) : (children.map (watched s rest))[i]? = none := by
  rw [List.getElem?_map, h, Option.map_none]

include hs in
/-- A decorator handles its watched child. -/
theorem handles_watched (part : Decorator) (inner : Node) (rest : List Nat) (w : World) :
    part.Handles le (watchedReset s rest) (watched s rest inner) w
      (part.tick s (watchedReset s rest) (fun k => k.1.name) (some (watched s rest inner)) w) := by
  refine part.handles_tick hs.toPassage (fun (k : Node × Activity) u => hs.reset k.1 u)
    (fun u => ?_) hs.get _ w
  simp only [watched, world_watch]
  exact hs.tick inner u

include hs in
/-- In a tick of a tree the node at a place is ticked and then reset, as recorded. -/
theorem recorded_watch (path : List Nat) (n : Node) (w : World) :
    Recorded le s path n w (n.watch s path w).world (n.watch s path w).state := by
  induction path generalizing n w with
  | nil =>
    have hpass : le w (n.tick s w).world := hs.tick n w
    constructor
    case kept => exact n.cleared_watch s [] w
    case pass => exact hpass
    case turn =>
      intro turn hturn
      cases hturn
      exact ⟨hs.refl w, hpass, hs.refl _⟩
    case resets => exact fun _ hreset => absurd hreset List.not_mem_nil
    case order => exact fun _ _ _ hreset => absurd hreset List.not_mem_nil
    case renewed => exact nofun
  | cons i rest ih =>
    have hparent := n.cleared_watch s (i :: rest) w
    have hpass : le w (n.watch s (i :: rest) w).world := by
      rw [world_watch]
      exact hs.tick n w
    cases n with
    | leaf part => exact .quiet hparent hpass
    | composite part children =>
      have hall := handled_watched hs part children rest w
      cases hchild : children[i]? with
      | none =>
        have hnone := hall.no_child (getElem?_watched_of_none hchild rest)
        simp only [watch_composite, Ticked.map, hnone, Option.map_none, Option.getD_none]
          at hparent ⊢
        exact .quiet hparent hpass
      | some child =>
        rcases hall.child (getElem?_watched hchild rest) with ⟨k, hk, hhandled⟩
        have hrecord := Recorded.of_handled hs (ih child) hhandled
        simp only [watch_composite, Ticked.map, hk, Option.map_some, Option.getD_some] at hparent ⊢
        refine hrecord.lift hparent ?_ ?_
        · simp only [cleared, at?, clearedChildren_eq, List.getElem?_map, hchild]
          rfl
        · simp only [at?, List.getElem?_map, hk]
          rfl
    | decorator part child =>
      cases child with
      | none => exact .quiet hparent hpass
      | some inner =>
        rcases (handles_watched hs part inner rest w).child with ⟨k, hk, hhandled⟩
        have hrecord := Recorded.of_handled hs (ih inner) hhandled
        simp only [watch_decorator, Ticked.map, hk, Option.map_some, Option.getD_some] at hparent ⊢
        exact hrecord.lift hparent rfl rfl
    | reference part => exact .quiet hparent hpass
    | embedded tag root => exact (ih root w).lift hparent rfl rfl

end Node

end TickTree
