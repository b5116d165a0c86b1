import TickTree.Proofs.Coupling.Agreement
import TickTree.Proofs.Standalone

/-!
# Three ways of embedding a tree

A tree can be put into a node by value, or it can be shared and be reached by a reference: by a
sub-tree, which keeps it until it is reset, or by a dynamic sub-tree whose supplier always finds it.
Ticks and resets of the three nodes do the same to the tree.  A reference resets its target only
when it holds it; but as long as it holds none, the tree is in its first state anyway.

The tree works by itself in one world, and behind the reference in another one beside it.  What the
reference does on the way to the tree is not seen from the first world: records in the log, calls of
its supplier, and hooks.

Main results:

- Theorem `World.sharing_beside`: worlds stay beside each other under events and draws.
- Theorem `Callback.alike_beside`: the callbacks of the tree answer alike in such worlds.
- Theorem `Reference.tick_houses` and `Reference.reset_houses`: what a reference does to its target.
- Theorem `Node.embeddings_agree`: the three ways of embedding a tree agree.
-/

namespace TickTree

/-! ## Worlds beside each other -/

/-- What a tree does, and not what is done on the way to it: the event is neither a log record, nor
an operation on a probe other than a tick, nor a call at one of the given seats. -/
def Event.isWork (apart : List Nat) : Event → Bool
  | logged _ _ => false
  | called seat _ => seat ∉ apart
  | observed _ _ operation => operation = .tick
  | _ => true

/-- Two worlds are the same for a tree that has none of its callbacks at certain seats: clocks,
random sources, numbers of calls, the first fault and all work.  Shared trees have their names in
the second one. -/
structure World.Beside (names : Directory) (apart : List Nat) (v w : World) : Prop where
  clocks : v.clocks = w.clocks
  sources : v.sources = w.sources
  calls : ∀ seat, seat ∉ apart → v.calls.get seat = w.calls.get seat
  fault : v.fault = w.fault
  events : v.history.filter (Event.isWork apart) = w.history.filter (Event.isWork apart)
  names : w.directory = names

namespace World

variable {names : Directory} {apart : List Nat} {v w : World}

theorem Beside.refl (apart : List Nat) (w : World) : w.Beside w.directory apart w :=
  ⟨rfl, rfl, fun _ _ => rfl, rfl, rfl, rfl⟩

/-- An event on both sides. -/
theorem Beside.emit (h : v.Beside names apart w) (event : Event) :
    (v.emit event).Beside names apart (w.emit event) :=
  { h with events := by simp only [history_emit, List.filter_cons, h.events] }

/-- An event on the first side that is no work. -/
theorem Beside.emit_left (h : v.Beside names apart w) {event : Event}
    (hevent : event.isWork apart = false) : (v.emit event).Beside names apart w :=
  { h with events := (filter_history_emit hevent v).trans h.events }

/-- An event on the second side that is no work. -/
theorem Beside.emit_right (h : v.Beside names apart w) {event : Event}
    (hevent : event.isWork apart = false) : v.Beside names apart (w.emit event) :=
  { h with events := h.events.trans (filter_history_emit hevent w).symm }

theorem Beside.fail (h : v.Beside names apart w) (fault : Fault) :
    (v.fail fault).Beside names apart (w.fail fault) := by
  unfold World.fail
  rw [h.fault]
  split
  · exact h
  · have hkept : Beside names apart { v with fault := some fault }
        { w with fault := some fault } := { h with fault := rfl }
    exact hkept.emit _

/-- A call on both sides has the same number. -/
theorem Beside.countCall (h : v.Beside names apart w) {seat : Nat} (hseat : seat ∉ apart) :
    Coupled (Beside names apart) (v.countCall seat) (w.countCall seat) := by
  refine ⟨h.calls seat hseat, { h with calls := fun other hother => ?_ }⟩
  simp only [World.countCall, Table.get_set, h.calls seat hseat, h.calls other hother]

/-- A call on the second side. -/
theorem Beside.countCall_right (h : v.Beside names apart w) {seat : Nat} (hseat : seat ∈ apart) :
    v.Beside names apart (w.countCall seat).2 := by
  refine { h with calls := fun other hother => ?_ }
  have hne : other ≠ seat := fun heq => hother (heq ▸ hseat)
  simp only [World.countCall, Table.get_set_ne _ _ hne, h.calls other hother]

/-- Worlds stay beside each other under events and draws. -/
theorem sharing_beside : Sharing (Beside names apart) where
  emit event h := h.emit event
  now clock h := by simp only [now, h.clocks]
  draw {v w} _ draw take source h := by
    unfold drawWith
    rw [h.sources]
    have hdrawn : ∀ sources, Beside names apart { v with sources := sources }
        { w with sources := sources } := fun _ => { h with sources := rfl }
    exact ⟨rfl, (hdrawn _).emit _⟩

end World

/-! ## Callbacks -/

/-- A callback that asks nothing of shared trees and has none of the given seats. -/
def Callback.IsOwn (apart : List Nat) (α : Type) (c : Callback α) : Prop :=
  c.IsQuiet ∧ c.seat ∉ apart

/-- The effect is a log record. -/
def Effect.IsLog : Effect → Prop
  | .log _ _ => True
  | _ => False

theorem Effect.IsLog.isQuiet {effect : Effect} (h : effect.IsLog) : effect.IsQuiet := by
  cases effect with
  | log level message => trivial
  | _ => exact h.elim

section

variable {names : Directory} {apart : List Nat} {s t : Service} {v w : World}

/-- Quiet effects leave worlds beside each other. -/
theorem Effect.beside_performAll (effects : List Effect)
    (h : ∀ effect ∈ effects, effect.IsQuiet) (hw : v.Beside names apart w) :
    (performAll s effects v).Beside names apart (performAll t effects w) := by
  induction effects generalizing v w with
  | nil => exact hw
  | cons effect rest ih =>
    have hquiet : effect.IsQuiet := h effect List.mem_cons_self
    have hfirst : (effect.perform s v).Beside names apart (effect.perform t w) := by
      cases effect with
      | advance clock step =>
        simp only [perform, World.advance, hw.clocks]
        split
        · exact { hw with clocks := rfl }
        · exact hw.fail _
      | set clock reading =>
        exact { hw with clocks := by simp only [perform, World.setClock, hw.clocks] }
      | ask operation tree => exact hquiet.elim
      | log level message => exact hw.emit _
      | fail fault => exact hw.fail fault
    exact ih (fun effect heffect => h effect (List.mem_cons_of_mem _ heffect)) hfirst

/-- Log records on the second side leave worlds beside each other. -/
theorem Effect.beside_performAll_right (effects : List Effect)
    (h : ∀ effect ∈ effects, effect.IsLog) (hw : v.Beside names apart w) :
    v.Beside names apart (performAll s effects w) := by
  induction effects generalizing w with
  | nil => exact hw
  | cons effect rest ih =>
    have hlog : effect.IsLog := h effect List.mem_cons_self
    apply ih fun effect heffect => h effect (List.mem_cons_of_mem _ heffect)
    cases effect with
    | log level message => exact hw.emit_right rfl
    | _ => exact hlog.elim

/-- A supplier that is called at one of the given seats, and that writes log records at most, leaves
worlds beside each other on the second side. -/
theorem Supplier.beside_get_right {α : Type} {supplier : Supplier α}
    (hlogs : supplier.Every fun _ c => c.Does Effect.IsLog ∧ c.seat ∈ apart)
    (hw : v.Beside names apart w) : v.Beside names apart (supplier.get s w).2 := by
  cases supplier with
  | constant value => exact hw
  | scripted c =>
    rcases hlogs with ⟨hlogs, hseat⟩
    have hcalled : v.Beside names apart (w.emit (.called c.seat c.label)) :=
      hw.emit_right (by simp [Event.isWork, hseat])
    exact Effect.beside_performAll_right _ (hlogs _) (hcalled.countCall_right hseat)

/-- The callbacks of the tree answer alike in worlds beside each other. -/
theorem Callback.alike_beside (α : Type) (c : Callback α) (h : c.IsOwn apart) :
    c.Alike (World.Beside names apart) s t := by
  intro v w hw
  rcases hw.countCall h.2 with ⟨hcount, hafter⟩
  unfold consult
  simp only [hcount]
  exact ⟨rfl, Effect.beside_performAll _ (h.1 _) hafter⟩

end

/-! ## Suppliers of one tree -/

/-- A supplier that always finds one tree by certain names.  It is called at one of the given seats,
and writes log records at most. -/
structure Supplier.Finds (names : Directory) (apart : List Nat) (tree : TreeId)
    (supplier : Supplier (Option Supply)) : Prop where
  found : ∀ answer, supplier.Gives answer →
    ∃ supply, answer = some supply ∧ supply.tree? names = some tree
  logs : supplier.Every fun _ c => c.Does Effect.IsLog ∧ c.seat ∈ apart

section

variable {names : Directory} {apart : List Nat} {tree : TreeId} {root : Node} {v w : World}
  {s : Service} {r : Reference}

/-- The tree works by itself in the first world; in the second one it is shared and free. -/
structure World.Houses (names : Directory) (apart : List Nat) (tree : TreeId) (root : Node)
    (v w : World) : Prop where
  beside : v.Beside names apart w
  shared : w.trees.get tree = some ⟨root, false⟩

/-- An event on the second side that is no work. -/
theorem World.Houses.emit_right (h : World.Houses names apart tree root v w) {event : Event}
    (hevent : event.isWork apart = false) : World.Houses names apart tree root v (w.emit event) :=
  ⟨h.beside.emit_right hevent, h.shared⟩

/-- A supplier that always finds the tree means it, and leaves it as it is. -/
theorem Supplier.Finds.get {supplier : Supplier (Option Supply)}
    (hfinds : supplier.Finds names apart tree) (s : Service)
    (h : World.Houses names apart tree root v w) :
    (s.find (supplier.get s w).1 (supplier.get s w).2).1 = some tree ∧
      World.Houses names apart tree root v
        (s.find (supplier.get s w).1 (supplier.get s w).2).2 := by
  have hgot : World.Houses names apart tree root v (supplier.get s w).2 := by
    cases supplier with
    | constant answer => exact h
    | scripted c =>
      have hquiet : c.IsQuiet := fun n effect heffect => (hfinds.logs.1 n effect heffect).isQuiet
      refine ⟨Supplier.beside_get_right hfinds.logs h.beside, ?_⟩
      have haside := Callback.aside_consult 0 s (w.emit (.called c.seat c.label)) hquiet
      exact (congrArg (Table.get · tree) haside.trees).trans h.shared
  rcases hfinds.found _ (supplier.gives_get s w) with ⟨supply, hsupply, htree⟩
  rw [hsupply]
  cases supply with
  | existing other =>
    cases htree
    refine ⟨?_, hgot⟩
    simp only [Service.find, hgot.shared, Option.map_some]
  | named name => exact ⟨(congrArg (Directory.find? name) hgot.beside.names).trans htree, hgot⟩
  | fresh plan => cases htree

/-! ## References to one tree -/

/-- A reference that finds or holds the tree leaves it as it is while it looks for its target. -/
theorem Reference.resolve_houses (hfinds : r.supplier.Finds names apart tree)
    (hheld : r.held = none ∨ r.held = some tree) (s : Service)
    (h : World.Houses names apart tree root v w) :
    (r.resolve s w).1 = some tree ∧ World.Houses names apart tree root v (r.resolve s w).2 := by
  unfold resolve
  split
  next hresolves =>
    cases r.kind with
    | sticky => exact hfinds.get s (h.emit_right rfl)
    | dynamic => exact hfinds.get s h
  next hresolves =>
    rcases hheld with hnone | hsome
    · exact absurd (by cases hkind : r.kind <;> simp [resolves, hkind, hnone]) hresolves
    · exact ⟨hsome, h⟩

/-- Reporting on the target leaves it as it is. -/
theorem Reference.announce_houses (found : Option TreeId)
    (h : World.Houses names apart tree root v w) :
    World.Houses names apart tree root v (r.announce found w) := by
  unfold announce
  split
  · exact h.emit_right rfl
  · exact h
  · split
    · exact h.emit_right rfl
    · exact h

/-- A reference that holds no target or the tree asks it for a tick, and at most for a start
before. -/
theorem Reference.tickRequests_found (hheld : r.held = none ∨ r.held = some tree) :
    r.tickRequests (some tree) = [(.tick, tree)] ∨
      r.tickRequests (some tree) = [(.start, tree), (.tick, tree)] := by
  cases hkind : r.kind with
  | sticky => exact .inl (by simp only [tickRequests, hkind])
  | dynamic =>
    rcases hheld with hnone | hsome
    · exact .inr (by simp [tickRequests, release, switches, hkind, hnone])
    · exact .inl (by simp [tickRequests, switches, hkind, hsome])

section

variable (plant : PlanId → World → Option TreeId × World) (depth : Nat)
  (hroot : root.Standalone (Callback.IsOwn apart))
include hroot

/-- Operations other than ticks are carried out on the shared tree and are no work. -/
theorem World.Houses.ask (h : World.Houses names apart tree root v w) (operation : Operation)
    (hne : operation ≠ .tick) :
    World.Houses names apart tree
      (root.perform (serve plant depth) operation (w.holdTree tree root)).2.1 v
      ((serve plant (depth + 1)).ask operation tree w).2 := by
  have hheld : World.Beside names apart v (w.holdTree tree root) := { h.beside with }
  have hunseen : ∀ (seat : Nat) (name : String) {u : World}, World.Beside names apart v u →
      World.Beside names apart v (u.emit (.observed seat name operation)) :=
    fun _ _ _ hu => hu.emit_right (by simp [Event.isWork, hne])
  have hperformed := hroot.perform_observes hne hunseen (serve plant depth) hheld
  rw [serve_ask, World.withTree_of_free h.shared]
  exact ⟨{ hperformed with }, World.get_putTree_self _ _ _⟩

/-- The shared tree ticks as the tree by itself does. -/
theorem World.Houses.ask_tick (h : World.Houses names apart tree root v w) (s : Service) :
    ((serve plant (depth + 1)).ask .tick tree w).1 = .ticked (root.tick s v).status ∧
      World.Houses names apart tree (root.tick s v).state (root.tick s v).world
        ((serve plant (depth + 1)).ask .tick tree w).2 := by
  have hheld : World.Beside names apart v (w.holdTree tree root) := { h.beside with }
  have htick := hroot.tick_alike (t := serve plant depth) World.sharing_beside
    Callback.alike_beside (s := s) hheld
  rw [serve_ask, World.withTree_of_free h.shared]
  refine ⟨congrArg Answer.ticked htick.status.symm, { htick.world with }, ?_⟩
  rw [htick.state]
  exact World.get_putTree_self _ _ _

/-- A tick of a reference to the tree is a tick of the tree. -/
theorem Reference.tick_houses (hfinds : r.supplier.Finds names apart tree)
    (hheld : r.held = none ∨ r.held = some tree) (h : World.Houses names apart tree root v w)
    (s : Service) :
    let ticked := r.tick (serve plant (depth + 1)) w
    ticked.status = (root.tick s v).status ∧ ticked.state = r.afterTick (some tree) ∧
      World.Houses names apart tree (root.tick s v).state (root.tick s v).world ticked.world := by
  rcases resolve_houses hfinds hheld (serve plant (depth + 1)) h with ⟨hfound, hresolved⟩
  have hannounced := announce_houses (r := r) (some tree) hresolved
  unfold Reference.tick
  simp only [hfound]
  rcases tickRequests_found hheld with hrequests | hrequests
  · rcases hannounced.ask_tick plant depth hroot s with ⟨hstatus, hticked⟩
    simp only [hrequests, Service.send, hstatus]
    exact ⟨rfl, trivial, hticked⟩
  · have hstarted := hannounced.ask plant depth hroot .start (by decide)
    rw [show (root.perform _ .start _).2.1 = root from root.fst_start _ _] at hstarted
    rcases hstarted.ask_tick plant depth hroot s with ⟨hstatus, hticked⟩
    simp only [hrequests, Service.send, hstatus]
    exact ⟨rfl, trivial, hticked⟩

/-- A reset of a reference that holds the tree is a reset of the tree. -/
theorem Reference.reset_houses (hheld : r.held = some tree)
    (h : World.Houses names apart tree root v w) :
    World.Houses names apart tree root.cleared v
      (r.perform (serve plant (depth + 1)) .reset w).2 := by
  have hreset : ∀ {u : World}, World.Houses names apart tree root v u →
      World.Houses names apart tree root.cleared v
        ((serve plant (depth + 1)).ask .reset tree u).2 := by
    intro u hu
    have hdone := hu.ask plant depth hroot .reset (by decide)
    rwa [show (root.perform _ .reset _).2.1 = root.cleared from root.fst_reset _ _] at hdone
  cases hkind : r.kind with
  | sticky =>
    simp only [perform, requests, release, hheld, hkind, Service.send]
    exact hreset h
  | dynamic =>
    have hfinished := h.ask plant depth hroot .finish (by decide)
    rw [show (root.perform _ .finish _).2.1 = root from hroot.fst_finish _ _] at hfinished
    simp only [perform, requests, release, hheld, hkind, Service.send]
    exact hreset hfinished

end

end

/-! ## Courses -/

/-- The move is a tick, a reset, or an act of the host that asks nothing of shared trees. -/
def Move.IsPlain : Move → Prop
  | perform operation => operation = .tick ∨ operation = .reset
  | act effect => effect.IsQuiet

namespace Node

/-- A tree by value and a reference to the same tree give the same answers in a course of plain
moves, and the tree is left in the same state.  It is in its first state whenever the reference
holds no target. -/
theorem left_reference {names : Directory} {apart : List Nat} {tree : TreeId}
    (plant : PlanId → World → Option TreeId × World) (depth : Nat) (s : Service)
    (tag : Option Tag) {moves : List Move} (hmoves : ∀ move ∈ moves, move.IsPlain) {root : Node}
    (hroot : root.Standalone (Callback.IsOwn apart)) {r : Reference}
    (hfinds : r.supplier.Finds names apart tree)
    (hheld : r.held = none ∧ root.cleared = root ∨ r.held = some tree) {v w : World}
    (h : World.Houses names apart tree root v w) :
    let t := serve plant (depth + 1)
    let after := (embedded tag root).left s moves v
    (reference r).answers t moves w = (embedded tag root).answers s moves v ∧
      ∃ left, after.1 = embedded tag left ∧
        World.Houses names apart tree left after.2 ((reference r).left t moves w).2 := by
  intro t after
  induction moves generalizing root r v w with
  | nil => exact ⟨rfl, root, rfl, h⟩
  | cons move rest ih =>
    have hrest : ∀ move ∈ rest, move.IsPlain := fun move hmove =>
      hmoves move (List.mem_cons_of_mem _ hmove)
    have hmove : move.IsPlain := hmoves move List.mem_cons_self
    cases move with
    | act effect =>
      have hquiet : ∀ act ∈ [effect], act.IsQuiet := fun act hact =>
        List.mem_singleton.1 hact ▸ hmove
      refine ih hrest hroot hfinds hheld ⟨Effect.beside_performAll [effect] hquiet h.beside, ?_⟩
      have haside : World.Aside 0 w (effect.perform t w) :=
        Effect.aside_performAll t w [effect] hquiet
      exact (congrArg (Table.get · tree) haside.trees).trans h.shared
    | perform operation =>
      rcases hmove with rfl | rfl
      · have hmaybe : r.held = none ∨ r.held = some tree := hheld.imp And.left id
        rcases Reference.tick_houses plant depth hroot hfinds hmaybe h s with
          ⟨hstatus, hstate, hticked⟩
        have hothers := ih hrest (hroot.perform s .tick v) (r := r.afterTick (some tree)) hfinds
          (.inr rfl) hticked
        rw [← hstate] at hothers
        simp only [answers, left, perform, tick, Ticked.map, hstatus, after, t]
        exact ⟨congrArg _ hothers.1, hothers.2⟩
      · -- By value the tree is reset in any case.  A reference without a target leaves it alone,
        -- and the tree is in its first state already.
        have htarget : World.Houses names apart tree root.cleared v (r.perform t .reset w).2 := by
          rcases hheld with ⟨hnone, hfirst⟩ | hsome
          · rw [Reference.perform, Reference.requests_reset_of_held_eq_none hnone, hfirst]
            exact h
          · exact Reference.reset_houses plant depth hroot hsome h
        have hreset : World.Houses names apart tree root.cleared (root.reset s v).2
            (r.perform t .reset w).2 := by
          have hobserved := hroot.perform_observes
            (P := fun u => u.Beside names apart (r.perform t .reset w).2)
            (show Operation.reset ≠ .tick by decide) (fun _ _ _ hu => hu.emit_left rfl) s
            htarget.beside
          exact ⟨hobserved, htarget.shared⟩
        have hothers := ih hrest ((madeOf_cleared root).2 hroot) (r := r.letGo) hfinds
          (.inl ⟨rfl, root.cleared_cleared⟩) hreset
        simp only [answers, left, perform, reset, fst_reset, after, t]
        exact ⟨congrArg _ hothers.1, hothers.2⟩

/-- The three ways of embedding a tree agree.  A new tree of library nodes refers to no shared
trees, and its callbacks ask nothing of them.  It is put into a node by value; or it is shared, and
reached through a sub-tree, or through a dynamic sub-tree with a supplier that always finds it.  In
every course of ticks, resets and quiet acts of the host, the three nodes give the same answers.
The tree is left in the same state, in worlds beside each other: the same callbacks of the tree are
called and the same numbers are drawn, in the same order. -/
theorem embeddings_agree (plans : Array TreePlan) (depth : Nat) (tag : Option Tag)
    (stickyName dynamicName : String) {supplier : Supplier (Option Supply)} {root : Node}
    (w : World) (hnew : root.IsNew) (hroot : root.Standalone (Callback.IsOwn supplier.seats))
    (hfinds : supplier.Finds w.directory supplier.seats w.trees.size) {moves : List Move}
    (hmoves : ∀ move ∈ moves, move.IsPlain) :
    let s := serve (plantFrom plans) (depth + 1)
    let shared := w.addTree root
    let value := embedded tag root
    let sticky := reference (.toTree stickyName shared.1)
    let dynamic := reference (.new .dynamic dynamicName supplier)
    sticky.answers s moves shared.2 = value.answers s moves w ∧
      dynamic.answers s moves shared.2 = value.answers s moves w ∧
      ∃ left, (value.left s moves w).1 = embedded tag left ∧
        World.Houses w.directory supplier.seats shared.1 left (value.left s moves w).2
          (sticky.left s moves shared.2).2 ∧
        World.Houses w.directory supplier.seats shared.1 left (value.left s moves w).2
          (dynamic.left s moves shared.2).2 := by
  intro s shared value sticky dynamic
  have hfirst : root.cleared = root := root.isNew_iff.1 hnew
  have hhouses : World.Houses w.directory supplier.seats shared.1 root w shared.2 :=
    ⟨⟨rfl, rfl, fun _ _ => rfl, rfl, rfl, rfl⟩, World.get_putTree_self _ _ _⟩
  have hconstant : Supplier.Finds w.directory supplier.seats shared.1
      (.constant (some (.existing shared.1))) := by
    refine ⟨fun answer hanswer => ?_, trivial⟩
    cases hanswer
    exact ⟨_, rfl, rfl⟩
  have hagree := fun (r : Reference) hsupplier (hheld : r.held = none) =>
    left_reference (plantFrom plans) depth s tag hmoves hroot (r := r) hsupplier
      (.inl ⟨hheld, hfirst⟩) hhouses
  rcases hagree (.toTree stickyName shared.1) hconstant rfl with ⟨hsticky, after, hafter, hstays⟩
  rcases hagree (.new .dynamic dynamicName supplier) hfinds rfl with
    ⟨hdynamic, other, hother, hfollows⟩
  have hsame : other = after := by
    rw [hafter] at hother
    cases hother
    rfl
  rw [hsame] at hfollows
  exact ⟨hsticky, hdynamic, after, hafter, hstays, hfollows⟩

/-- A sequence of an action that needs two calls and a wait of two ticks. -/
def workThenWait : Node :=
  composite (.ofKind .sequence)
    [.leaf (.infallible "work" ⟨0, "work", fun n => ⟨[], if n = 0 then .running else .success⟩⟩),
    .leaf (.countdown "wait" 2 2)]

/-- The sequence goes on after a reset in the same way, however it is embedded. -/
theorem embeddings_agree_workThenWait :
    let s := serve (plantFrom #[]) 1
    let w := World.start (.empty .start) (.empty (.seeded 0))
    let lookup : Callback (Option Supply) :=
      ⟨1, "find", fun _ => ⟨[.log .info "found"], some (.existing 0)⟩⟩
    let supplier := Supplier.scripted lookup
    let shared := w.addTree workThenWait
    let sticky := reference (.toTree "kept" shared.1)
    let dynamic := reference (.new .dynamic "found" supplier)
    let moves := [.perform .tick, .perform .reset, .act (.advance 0 .zero), .perform .tick]
    workThenWait.IsNew ∧ workThenWait.Standalone (Callback.IsOwn supplier.seats) ∧
      supplier.Finds w.directory supplier.seats shared.1 ∧ (∀ move ∈ moves, move.IsPlain) ∧
      sticky.answers s moves shared.2 = [.ticked .running, .done, .ticked .running] ∧
      dynamic.answers s moves shared.2 = [.ticked .running, .done, .ticked .running] := by
  intro s w lookup supplier shared sticky dynamic moves
  have hnew : workThenWait.IsNew := by
    refine .composite (.chain .sequence _) fun child hchild => ?_
    rcases List.mem_cons.1 hchild with rfl | hchild
    · exact .leaf (.action "work" _)
    · rw [List.mem_singleton.1 hchild]
      exact .leaf (.countdown "wait" 2)
  have hown : workThenWait.Standalone (Callback.IsOwn supplier.seats) := by
    refine .composite trivial fun child hchild => ?_
    rcases List.mem_cons.1 hchild with rfl | hchild
    · exact .leaf ⟨fun _ _ heffect => absurd heffect List.not_mem_nil, by decide⟩
    · rw [List.mem_singleton.1 hchild]
      exact .leaf trivial
  have hfinds : supplier.Finds w.directory supplier.seats shared.1 := by
    refine ⟨fun answer hanswer => ?_, fun _ effect heffect => ?_, List.mem_singleton_self 1⟩
    · rcases hanswer with ⟨_, rfl⟩
      exact ⟨.existing 0, rfl, rfl⟩
    · rw [List.mem_singleton.1 heffect]
      trivial
  have hmoves : ∀ move ∈ moves, move.IsPlain := by simp [moves, Move.IsPlain, Effect.IsQuiet]
  rcases embeddings_agree #[] 0 none "kept" "found" w hnew hown hfinds hmoves with
    ⟨hsticky, hdynamic, -⟩
  have hvalue : (embedded none workThenWait).answers s moves w =
      [.ticked .running, .done, .ticked .running] := by decide +kernel
  exact ⟨hnew, hown, hfinds, hmoves, hsticky.trans hvalue, hdynamic.trans hvalue⟩

end Node

end TickTree
