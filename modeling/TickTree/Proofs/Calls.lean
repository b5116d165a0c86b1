import TickTree.Proofs.Standalone

/-!
# Calls in one tick

During one tick every callback of a tree is called at most once, and the callbacks that are called
come in the order in which they stand in the tree, from the root downwards and from left to right.
A list of seats bounds what happens between two worlds when the calls recorded in between are some
of its members, in its order; bounds are put together like the parts of a tree.

The calls are those at the seats of the tree at work.  A callback may ask other trees, whose calls
are recorded at their own seats.

Main results:

- Theorem `Leaf.calls_tick`: a leaf bounds the calls of its tick.
- Theorem `Composite.calls_tick`: the calls of a composite are bounded by its children in order.
- Theorem `Decorator.calls_tick`: a decorator's supplier comes before its child.
- Theorem `Node.tick_calls_in_order`: a tick calls each callback at most once, left to right.
-/

namespace TickTree

/-! ## Recorded calls -/

/-- The seat of the callback that is called when an event is recorded.  A probe calls its script
when its tick is recorded. -/
def Event.callee? : Event → Option Nat
  | called seat _ => some seat
  | observed seat _ .tick => some seat
  | _ => none

namespace World

/-- The calls at certain seats, the earliest first. -/
def callsAt (own : List Nat) (w : World) : List Nat :=
  (w.history.reverse.filterMap Event.callee?).filter fun seat => seat ∈ own

variable {own first second : List Nat} {u v w : World}

theorem callsAt_emit (event : Event) (w : World) :
    (w.emit event).callsAt own =
      w.callsAt own ++ event.callee?.toList.filter fun seat => seat ∈ own := by
  rw [callsAt, history_emit, List.reverse_cons, List.filterMap_append, List.filter_append]
  rcases hcallee : event.callee? with _ | seat
  · rw [List.filterMap_cons_none hcallee]
    rfl
  · rw [List.filterMap_cons_some hcallee]
    rfl

/-- The calls between two worlds are some of the given ones, in their order. -/
def CallsAmong (own seats : List Nat) (v w : World) : Prop :=
  ∃ calls, calls.Sublist seats ∧ w.callsAt own = v.callsAt own ++ calls

/-- No call is recorded between worlds that have recorded the same ones. -/
theorem CallsAmong.of_eq (h : w.callsAt own = v.callsAt own) : CallsAmong own [] v w :=
  ⟨[], List.Sublist.slnil, by rw [h, List.append_nil]⟩

theorem CallsAmong.refl (w : World) : CallsAmong own [] w w := .of_eq rfl

/-- Calls that follow each other are bounded by their bounds one after the other. -/
theorem CallsAmong.trans (h : CallsAmong own first u v) (h' : CallsAmong own second v w) :
    CallsAmong own (first ++ second) u w := by
  rcases h with ⟨calls, hfirst, hcalls⟩
  rcases h' with ⟨calls', hsecond, hcalls'⟩
  exact ⟨calls ++ calls', hfirst.append hsecond, by rw [hcalls', hcalls, List.append_assoc]⟩

/-- A longer list is a bound, too. -/
theorem CallsAmong.widen (h : CallsAmong own first v w) (hseats : first.Sublist second) :
    CallsAmong own second v w := by
  rcases h with ⟨calls, hfirst, hcalls⟩
  exact ⟨calls, hfirst.trans hseats, hcalls⟩

/-- What makes no call after the calls does not count. -/
theorem CallsAmong.silently (h : CallsAmong own first u v) (h' : CallsAmong own [] v w) :
    CallsAmong own first u w := by
  have hboth := h.trans h'
  rwa [List.append_nil] at hboth

/-- Nor does what makes no call before them. -/
theorem CallsAmong.after (h : CallsAmong own [] u v) (h' : CallsAmong own first v w) :
    CallsAmong own first u w :=
  h.trans h'

/-- An event that calls nothing makes no call. -/
theorem callsAmong_emit {event : Event} (h : event.callee? = none) (w : World) :
    CallsAmong own [] w (w.emit event) :=
  .of_eq (by rw [callsAt_emit, h, Option.toList_none, List.filter_nil, List.append_nil])

/-- An event that calls a callback makes one call. -/
theorem callsAmong_emit_callee {event : Event} {seat : Nat} (h : event.callee? = some seat)
    (w : World) : CallsAmong own [seat] w (w.emit event) :=
  ⟨_, List.filter_sublist, by rw [callsAt_emit, h, Option.toList_some]⟩

theorem callsAmong_report (level : Level) (message : String) (w : World) :
    CallsAmong own [] w (w.report level message) :=
  callsAmong_emit rfl w

theorem callsAmong_drawWith {α : Type} (draw : Draw) (take : Source → α × Source)
    (source : SourceId) (w : World) : CallsAmong own [] w (w.drawWith draw take source).2 :=
  callsAmong_emit rfl { w with sources := w.sources.set source (take (w.sources.get source)).2 }

theorem callsAmong_poll (timer : Timer) (w : World) : CallsAmong own [] w (w.poll timer).2.2 := by
  unfold World.poll Timer.poll
  cases timer.armed with
  | some armed => exact .refl w
  | none =>
    simp only [World.sample, Jitter.sample]
    split
    · exact .refl w
    · exact callsAmong_drawWith .gaussian Source.gaussian timer.source w

end World

/-! ## Callbacks -/

/-- An effect makes no call at certain seats. -/
def Effect.Spares (s : Service) (own : List Nat) (effect : Effect) : Prop :=
  ∀ w : World, (effect.perform s w).callsAt own = w.callsAt own

section

variable {s : Service} {own : List Nat}

/-- A quiet effect makes no call at all. -/
theorem Effect.IsQuiet.spares {effect : Effect} (h : effect.IsQuiet) : effect.Spares s own := by
  have hfail : ∀ (fault : Fault) (w : World), (w.fail fault).callsAt own = w.callsAt own := by
    intro fault w
    unfold World.fail
    split
    · rfl
    · exact (World.callsAt_emit _ _).trans (List.append_nil _)
  intro w
  cases effect with
  | advance clock step =>
    simp only [perform, World.advance]
    split
    · rfl
    · exact hfail _ w
  | set clock reading => rfl
  | ask operation tree => exact h.elim
  | log level message => exact (World.callsAt_emit _ w).trans (List.append_nil _)
  | fail fault => exact hfail fault w

/-- Effects that make no call make none together. -/
theorem Effect.callsAt_performAll {effects : List Effect}
    (h : ∀ effect ∈ effects, effect.Spares s own) (w : World) :
    (performAll s effects w).callsAt own = w.callsAt own := by
  induction effects generalizing w with
  | nil => rfl
  | cons effect rest ih =>
    have hfirst := h effect List.mem_cons_self w
    have hothers := ih (fun other hother => h other (List.mem_cons_of_mem _ hother))
      (effect.perform s w)
    exact hothers.trans hfirst

/-- Consulting a callback makes no call besides. -/
theorem Callback.calls_consult {α : Type} {c : Callback α} (h : c.Does (Effect.Spares s own))
    (w : World) : World.CallsAmong own [] w (c.consult s w).2 :=
  .of_eq (Effect.callsAt_performAll (h _) (w.countCall c.seat).2)

/-- A supplier calls its callback once. -/
theorem Supplier.calls_get {α : Type} {supplier : Supplier α}
    (h : supplier.Every (Callback.Does (Effect.Spares s own))) (w : World) :
    World.CallsAmong own supplier.seats w (supplier.get s w).2 := by
  cases supplier with
  | constant value => exact .refl w
  | scripted callback =>
    exact (World.callsAmong_emit_callee rfl w).silently (Callback.calls_consult h _)

/-- A wait for an idle streak asks its bypass first. -/
theorem IdleWatch.calls_tick {test : Supplier Bool} {bypass : Option (Supplier Bool)}
    (hbypass : ∀ supplier, bypass = some supplier →
      supplier.Every (Callback.Does (Effect.Spares s own)))
    (htest : test.Every (Callback.Does (Effect.Spares s own))) (watch : IdleWatch) (name : String)
    (w : World) :
    World.CallsAmong own ((bypass.map Supplier.seats).getD [] ++ test.seats) w
      (watch.tick s test bypass name w).world := by
  have hfirst : World.CallsAmong own ((bypass.map Supplier.seats).getD []) w
      (askBypass s bypass w).2 := by
    cases bypass with
    | none => exact .refl w
    | some supplier => exact Supplier.calls_get (hbypass supplier rfl) w
  have hsecond := Supplier.calls_get htest (askBypass s bypass w).2
  unfold IdleWatch.tick
  simp only []
  split
  · exact hfirst.widen (List.sublist_append_left _ _)
  · split
    · exact (hfirst.silently (World.callsAmong_report _ _ _)).widen (List.sublist_append_left _ _)
    · split
      · split
        · exact hfirst.trans hsecond
        · exact hfirst.trans hsecond
      · exact hfirst.trans hsecond

/-- A leaf bounds the calls of its tick. -/
theorem Leaf.calls_tick {part : Leaf} (h : part.Every (Callback.Does (Effect.Spares s own)))
    (w : World) :
    World.CallsAmong own part.seats w (part.tick s w).world := by
  cases part with
  | action name body =>
    have hasked := Supplier.calls_get h w
    rcases hbody : body.get s w with ⟨answer, after⟩
    rw [hbody] at hasked
    simp only [Leaf.tick, hbody]
    cases answer with
    | ok status => exact hasked.silently (World.callsAmong_emit rfl after)
    | error failure => exact hasked.silently (World.callsAmong_report _ _ after)
  | condition name test =>
    have hasked := Supplier.calls_get h w
    rcases htest : test.get s w with ⟨answer, after⟩
    rw [htest] at hasked
    simp only [Leaf.tick, htest]
    cases answer with
    | ok holds => cases holds <;> exact hasked
    | error failure => exact hasked.silently (World.callsAmong_report _ _ after)
  | sleep timer =>
    have hpolled : World.CallsAmong own [] w (w.poll timer).2.2 := World.callsAmong_poll timer w
    rcases hpoll : w.poll timer with ⟨expired, left, after⟩
    rw [hpoll] at hpolled
    simp only [Leaf.tick, hpoll]
    cases expired <;> exact hpolled
  | sleepUntil timer test =>
    have hasked := (World.callsAmong_poll timer w).after (Supplier.calls_get h (w.poll timer).2.2)
    unfold Leaf.tick
    simp only []
    split
    · exact hasked
    · split
      · exact hasked.silently (World.callsAmong_report _ _ _)
      · exact hasked
  | sleepUntilIdle watch test bypass => exact IdleWatch.calls_tick h.1 h.2 watch _ w
  | probe name script hooks =>
    have hcalled : World.CallsAmong own [script.seat] w
        (w.emit (.observed script.seat name .tick)) := World.callsAmong_emit_callee rfl w
    exact (hcalled.silently (Callback.calls_consult h _)).silently (World.callsAmong_emit rfl _)
  | countdown name count remaining => cases remaining <;> exact .refl w

end

/-! ## Parents -/

/-- A child as its parent sees it has a property before and after its tick, and some seats bound the
calls of the tick. -/
structure Offer.CallsAmong {κ : Type} (own : List Nat) (P : κ → Prop) (o : Offer κ)
    (seats : List Nat) :
    Prop where
  state : P o.state
  left : ∀ u, P (o.tick u).state
  calls : ∀ u, World.CallsAmong own seats u (o.tick u).world

section

variable {κ : Type} {own : List Nat} {P : κ → Prop} {reset : κ → World → κ × World}
  {children : List (Offer κ)} {seats : List (List Nat)}

/-- Children that are left alone have the property. -/
theorem Offer.forall_mem_states (h : List.Forall₂ (Offer.CallsAmong own P) children seats) :
    ∀ k ∈ children.map Offer.state, P k := by
  induction h with
  | nil => exact fun k hk => absurd hk List.not_mem_nil
  | cons hchild _ ih => exact List.forall_mem_cons.2 ⟨hchild.state, ih⟩

/-! ### Composites -/

/-- A pass calls the callbacks of its children in order. -/
theorem Chain.calls_pass (kind : Chain) (name : String) (position : Nat)
    (h : List.Forall₂ (Offer.CallsAmong own P) children seats) (w : World) :
    World.CallsAmong own seats.flatten w (kind.pass name position children w).world ∧
      ∀ k ∈ (kind.pass name position children w).states, P k := by
  induction h generalizing position w with
  | nil => exact ⟨.refl w, fun k hk => absurd hk List.not_mem_nil⟩
  | @cons child _ _ _ hchild hrest ih =>
    have hfirst := hchild.calls w
    unfold Chain.pass
    simp only []
    split
    · let message := s!"{name} {kind.progress} {position + 1}"
      rcases ih (position + 1) ((child.tick w).world.report .trace message) with ⟨hothers, hstates⟩
      have hlater := (World.callsAmong_report .trace message (child.tick w).world).after hothers
      exact ⟨hfirst.trans hlater, List.forall_mem_cons.2 ⟨hchild.left w, hstates⟩⟩
    · have hstates := Offer.forall_mem_states hrest
      exact ⟨hfirst.widen (List.sublist_append_left _ _),
        List.forall_mem_cons.2 ⟨hchild.left w, hstates⟩⟩

/-- Ticking all children calls their callbacks in order. -/
theorem calls_tickAll (h : List.Forall₂ (Offer.CallsAmong own P) children seats) (w : World) :
    World.CallsAmong own seats.flatten w (tickAll children w).2 ∧
      ∀ k ∈ (tickAll children w).1.map Prod.snd, P k := by
  induction h generalizing w with
  | nil => exact ⟨.refl w, fun k hk => absurd hk List.not_mem_nil⟩
  | cons hchild _ ih =>
    rcases ih _ with ⟨hothers, hstates⟩
    exact ⟨(hchild.calls w).trans hothers, List.forall_mem_cons.2 ⟨hchild.left w, hstates⟩⟩

/-- Ticking one child calls its callbacks only. -/
theorem calls_tickAt (position : Nat) (h : List.Forall₂ (Offer.CallsAmong own P) children seats)
    (w : World) :
    World.CallsAmong own seats.flatten w (tickAt position children w).world ∧
      ∀ k ∈ (tickAt position children w).state, P k := by
  induction h generalizing position with
  | nil => cases position <;> exact ⟨.refl w, fun k hk => absurd hk List.not_mem_nil⟩
  | cons hchild hrest ih =>
    cases position with
    | zero =>
      have hstates := Offer.forall_mem_states hrest
      exact ⟨(hchild.calls w).widen (List.sublist_append_left _ _),
        List.forall_mem_cons.2 ⟨hchild.left w, hstates⟩⟩
    | succ position =>
      rcases ih position with ⟨hothers, hstates⟩
      exact ⟨hothers.widen (List.sublist_append_right _ _),
        List.forall_mem_cons.2 ⟨hchild.state, hstates⟩⟩

/-- Resets keep a property and make no call while it holds. -/
def SilentReset (own : List Nat) (P : κ → Prop) (reset : κ → World → κ × World) : Prop :=
  ∀ (k : κ) (u : World), P k → P (reset k u).1 ∧ World.CallsAmong own [] u (reset k u).2

variable (hreset : SilentReset own P reset)

include hreset in
/-- Resetting a node makes no call after those made before. -/
theorem SilentReset.after {k : κ} {bound : List Nat} {v w : World} (hk : P k)
    (h : World.CallsAmong own bound v w) : World.CallsAmong own bound v (reset k w).2 :=
  h.silently (hreset k w hk).2

include hreset in
/-- Nor does resetting all children. -/
theorem SilentReset.resetAll {states : List κ} (h : ∀ k ∈ states, P k) (w : World) :
    World.CallsAmong own [] w (resetAll reset states w).2 := by
  induction states generalizing w with
  | nil => exact .refl w
  | cons first rest ih =>
    have hfirst := (hreset first w (h first List.mem_cons_self)).2
    exact hfirst.after (ih (fun k hk => h k (List.mem_cons_of_mem _ hk)) _)

include hreset in
/-- Ending an activation makes no call. -/
theorem Composite.calls_settle (part : Composite) {t : Ticked (List κ)} {bound : List Nat}
    {w : World} (h : World.CallsAmong own bound w t.world ∧ ∀ k ∈ t.state, P k) :
    World.CallsAmong own bound w (settle reset part t).world := by
  unfold settle
  split
  · exact h.1.silently (hreset.resetAll h.2 t.world)
  · exact h.1

include hreset in
/-- The calls of a composite are bounded by its children in order. -/
theorem Composite.calls_tick (part : Composite)
    (h : List.Forall₂ (Offer.CallsAmong own P) children seats) (w : World) :
    World.CallsAmong own seats.flatten w (part.tick reset children w).world := by
  cases part with
  | chain kind name cursor =>
    rcases kind.calls_pass name cursor (List.forall₂_drop cursor h) w with ⟨hpass, hstates⟩
    have hbefore := Offer.forall_mem_states (List.forall₂_take cursor h)
    have hrest : (seats.drop cursor).flatten.Sublist seats.flatten := by
      conv => rhs; rw [← List.take_append_drop cursor seats, List.flatten_append]
      exact List.sublist_append_right _ _
    simp only [Composite.tick]
    refine calls_settle hreset _ ⟨hpass.widen hrest, fun k hk => ?_⟩
    rcases List.mem_append.1 hk with hk | hk
    · exact hbefore k hk
    · exact hstates k hk
  | randomSelector source selected =>
    simp only [Composite.tick]
    split
    · exact (World.CallsAmong.refl w).widen (List.nil_sublist _)
    · have hchosen : World.CallsAmong own [] w (choose source selected children.length w).2 := by
        cases selected with
        | some position => exact .refl w
        | none => exact World.callsAmong_drawWith _ _ source w
      rcases calls_tickAt (choose source selected children.length w).1 h
        (choose source selected children.length w).2 with ⟨hticked, hstates⟩
      exact calls_settle hreset _ ⟨hchosen.after hticked, hstates⟩
  | parallel success failure =>
    simp only [Composite.tick]
    exact calls_settle hreset _ (calls_tickAll h w)

/-! ### Decorators -/

variable {o : Offer κ} {bound : List Nat} (ho : o.CallsAmong own P bound)

include hreset ho in
/-- A repetition makes the calls of its child. -/
theorem Decorator.calls_tickRepetition (limit count : Int32) (w : World) :
    World.CallsAmong own bound w (tickRepetition reset limit count o w).world := by
  have hchild := ho.calls w
  have hcleared := hreset.after (ho.left w) hchild
  unfold tickRepetition
  simp only []
  split
  · exact hchild
  · split
    · split
      · exact hcleared
      · exact hcleared
    · exact hcleared
    · exact hchild

include hreset ho in
/-- A retry makes the calls of its child. -/
theorem Decorator.calls_tickRetry (limit count : Int32) (w : World) :
    World.CallsAmong own bound w (tickRetry reset limit count o w).world := by
  have hchild := ho.calls w
  have hcleared := hreset.after (ho.left w) hchild
  unfold tickRetry
  simp only []
  split
  · exact hcleared
  · split
    · exact hreset.after (ho.left w) (hchild.silently (World.callsAmong_report _ _ _))
    · exact hcleared
  · exact hchild

include hreset ho in
/-- A wait for success makes the calls of its child. -/
theorem Decorator.calls_tickSleepUntilSuccess (timer : Timer) (w : World) :
    World.CallsAmong own bound w (tickSleepUntilSuccess reset timer o w).world := by
  have hstate := ho.left (w.poll timer).2.2
  have hchild := (World.callsAmong_poll timer w).after (ho.calls (w.poll timer).2.2)
  have hfailed : P (resetFailed reset (o.tick (w.poll timer).2.2)).state ∧
      World.CallsAmong own bound w (resetFailed reset (o.tick (w.poll timer).2.2)).world := by
    unfold resetFailed
    split
    · exact ⟨(hreset _ _ hstate).1, hreset.after hstate hchild⟩
    · exact ⟨hstate, hchild⟩
  unfold tickSleepUntilSuccess
  simp only []
  split
  · exact hreset.after hstate hchild
  · split
    · exact hreset.after hfailed.1 (hfailed.2.silently (World.callsAmong_report _ _ _))
    · exact hfailed.2

include hreset ho in
/-- A decorator's supplier is called before the callbacks of its child. -/
theorem Decorator.calls_tick {s : Service} (name : κ → String) {part : Decorator}
    (hpart : part.Every (Callback.Does (Effect.Spares s own))) (w : World) :
    World.CallsAmong own (part.seats ++ bound) w
      (part.tick s reset name (some o) w).world := by
  cases part with
  | inverter => exact ho.calls w
  | repetition limit count => exact calls_tickRepetition hreset ho limit count w
  | retry limit count => exact calls_tickRetry hreset ho limit count w
  | cooldown clock period last =>
    have hsupplied := Supplier.calls_get hpart w
    simp only [Decorator.tick, tickCooldown]
    split
    · exact (hsupplied.silently (World.callsAmong_report _ _ _)).widen
        (List.sublist_append_left _ _)
    · exact hsupplied.trans (ho.calls _)
  | successRate source percentage =>
    have hsupplied := Supplier.calls_get hpart w
    have hdrawn := hsupplied.silently
      (World.callsAmong_drawWith .unit Source.unit source (percentage.get s w).2)
    simp only [Decorator.tick, tickSuccessRate]
    split
    · exact (hdrawn.silently (World.callsAmong_report _ _ _)).widen
        (List.sublist_append_left _ _)
    · exact hdrawn.trans (ho.calls _)
  | sleepUntilSuccess timer => exact calls_tickSleepUntilSuccess hreset ho timer w

end

/-! ## Trees -/

namespace Node

variable {s : Service} {own : List Nat}

/-- A reset of a standalone tree makes no call. -/
theorem calls_reset {X : ∀ α : Type, Callback α → Prop} (n : Node) (h : n.Standalone X)
    (w : World) : World.CallsAmong own [] w (n.reset s w).2 :=
  h.perform_observes (show Operation.reset ≠ .tick by decide)
    (fun _ _ _ hw => hw.silently (World.callsAmong_emit rfl _)) s (.refl w)

/-- Resets of standalone trees are silent. -/
theorem silentReset {X : ∀ α : Type, Callback α → Prop} :
    SilentReset own (Standalone X) (reset s) :=
  fun n w h => ⟨h.perform s .reset w, n.calls_reset h w⟩

/-- The calls of a tick of a standalone tree are some of its callbacks, in their order. -/
theorem calls_tick (n : Node) (h : n.Standalone (Callback.Does (Effect.Spares s own))) (w : World) :
    World.CallsAmong own n.seats w (n.tick s w).world := by
  induction n generalizing w with
  | leaf part =>
    cases h with
    | leaf h =>
      simp only [tick, seats]
      exact Leaf.calls_tick h w
  | composite part children ih =>
    cases h with
    | composite _ h =>
      have hoffers : List.Forall₂
          (Offer.CallsAmong own (Standalone (Callback.Does (Effect.Spares s own))))
          (offers s children) (children.map seats) := by
        rw [offers_eq, List.forall₂_map_left_iff, List.forall₂_map_right_iff]
        exact List.forall₂_same.2 fun child hchild =>
          ⟨h child hchild, (h child hchild).perform s .tick, ih child hchild (h child hchild)⟩
      simp only [tick, seats, seatsOfChildren_eq]
      exact part.calls_tick silentReset hoffers w
  | decorator part child ih =>
    cases h with
    | decorator hpart h =>
      cases child with
      | none =>
        simp only [tick, offer, Decorator.tick_none]
        exact (World.CallsAmong.refl w).widen (List.nil_sublist _)
      | some inner =>
        have hoffer : Offer.CallsAmong own (Standalone (Callback.Does (Effect.Spares s own)))
            ⟨inner, fun w => inner.tick s w⟩ inner.seats :=
          ⟨h inner rfl, (h inner rfl).perform s .tick, ih inner rfl (h inner rfl)⟩
        simp only [tick, offer, seats, seatsOfChild]
        exact Decorator.calls_tick silentReset hoffer name hpart w
  | reference part =>
    cases h with
    | reference h => exact h.elim
  | embedded tag root ih =>
    cases h with
    | embedded h =>
      simp only [tick, seats]
      exact ih h w

/-- A tick calls each callback at most once, left to right.  The tree has no references, and no
effect of one of its callbacks calls a callback of the tree; any operations were carried out on it
in any worlds.  Then the calls that its next tick makes are some of its callbacks, in the order in
which they stand in the tree: a decorator's supplier before the callbacks of its child, the children
of a composite from left to right, and a bypass before the idle predicate. -/
theorem tick_calls_in_order (s : Service) {made n : Node}
    (hmade : made.Standalone (Callback.Does (Effect.Spares s made.seats)))
    (hn : Reachable made n) (w : World) :
    ∃ calls, (n.tick s w).world.callsAt made.seats = w.callsAt made.seats ++ calls ∧
      calls.Sublist made.seats ∧
      (∀ seat, calls.count seat ≤ made.seats.count seat) ∧
      (made.seats.Nodup → calls.Nodup) := by
  rcases n.calls_tick (hmade.of_reachable hn) w with ⟨calls, hcalls, hafter⟩
  rw [seats_of_reachable hn] at hcalls
  exact ⟨calls, hafter, hcalls, fun seat => hcalls.count_le seat, fun hseats => hcalls.nodup hseats⟩

/-- A sequence of a cooled action and a wait for an idle streak with a bypass, all of whose
callbacks write to the log. -/
def cooledThenIdle : Node :=
  let saying {α : Type} (seat : Nat) (value : α) : Callback α :=
    ⟨seat, "c", fun _ => ⟨[.log .info "called"], value⟩⟩
  composite (.ofKind .sequence)
    [decorator (.cooled (.scripted (saying 0 .zero)) .standard)
      (some (.leaf (.infallible "act" (saying 1 .success)))),
    .leaf (.sleepUntilIdle (.new .zero .max .standard)
      (.scripted (saying 3 true)) (some (.scripted (saying 2 false))))]

/-- A tick after a reset calls all of them, each once. -/
theorem tick_calls_in_order_cooledThenIdle :
    let s := serve (plantFrom #[]) 1
    let w := World.start (.empty .start) (.empty (.seeded 0))
    let n := (cooledThenIdle.perform s .reset w).2.1
    cooledThenIdle.Standalone (Callback.Does (Effect.Spares s cooledThenIdle.seats)) ∧
      Reachable cooledThenIdle n ∧
      ∃ calls, (n.tick s w).world.callsAt [0, 1, 2, 3] = w.callsAt [0, 1, 2, 3] ++ calls ∧
        calls = [0, 1, 2, 3] ∧ calls.Sublist cooledThenIdle.seats ∧ calls.Nodup := by
  intro s w n
  have hsaying : ∀ effect ∈ [Effect.log .info "called"], effect.Spares s cooledThenIdle.seats := by
    intro effect heffect
    rw [List.mem_singleton.1 heffect]
    exact Effect.IsQuiet.spares trivial
  have hmade :
      cooledThenIdle.Standalone (Callback.Does (Effect.Spares s cooledThenIdle.seats)) := by
    refine .composite trivial fun child hchild => ?_
    rcases List.mem_cons.1 hchild with rfl | hchild
    · refine .decorator (fun _ => hsaying) fun inner hinner => ?_
      cases hinner
      exact .leaf fun _ => hsaying
    · rw [List.mem_singleton.1 hchild]
      refine .leaf ⟨fun supplier hsupplier => ?_, fun _ => hsaying⟩
      cases hsupplier
      exact fun _ => hsaying
  have hn : Reachable cooledThenIdle n := .perform s .reset w .made
  rcases tick_calls_in_order s hmade hn w with ⟨calls, hafter, hcalls, -, hnodup⟩
  exact ⟨hmade, hn, calls, hafter, hafter.symm, hcalls, hnodup (by decide)⟩

end Node

end TickTree
