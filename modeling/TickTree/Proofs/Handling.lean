import Mathlib.Data.List.Forall2
import TickTree.Node.Composite.Tick
import TickTree.Node.Decorator.Tick

/-!
# How parents handle their children

In one tick of its parent a child is left alone or ticked once, and it may be reset afterwards.
This is all that a parent can do, whatever its kind; the parent itself keeps everything that its own
reset keeps.

The worlds in between lie on one passage: a relation of worlds that log records, draws and suppliers
respect.  With a relation that always holds, nothing is said of the worlds.

Main results:

- Theorem `Composite.handled_tick`: a composite handles each of its children in this way.
- Theorem `Decorator.handles_tick`: a decorator handles its child in this way.
- Theorem `Handled.view_eq`: what neither ticks nor resets change of a child, its parent does not
  change.
- Theorem `Handled.keep`: what ticks and resets keep of a child as worlds pass, its parent keeps.
- Theorem `reaches_resetAll`: a reset of all children is carried out on each of them.
- Theorem `Decorator.tick_of_spares`: some decorators never reset their children.
-/

namespace TickTree

/-! ## Passages of worlds -/

/-- A relation of earlier and later worlds that log records and draws respect. -/
structure World.Passage (le : World → World → Prop) : Prop where
  refl : ∀ w, le w w
  trans : ∀ {u v w : World}, le u v → le v w → le u w
  report : ∀ (level : Level) (message : String) (w : World), le w (w.report level message)
  draw : ∀ {α : Type} (draw : Draw) (take : Source → α × Source) (source : SourceId) (w : World),
    le w (w.drawWith draw take source).2

/-- Every world may follow every other. -/
theorem World.passage_true : World.Passage fun _ _ => True where
  refl _ := trivial
  trans _ _ := trivial
  report _ _ _ := trivial
  draw _ _ _ _ := trivial

/-- Polling a timer is a passage. -/
theorem World.Passage.poll {le : World → World → Prop} (h : World.Passage le) (timer : Timer)
    (w : World) : le w (w.poll timer).2.2 := by
  unfold World.poll Timer.poll
  cases timer.armed with
  | some armed => exact h.refl w
  | none =>
    simp only [World.sample, Jitter.sample]
    split
    · exact h.refl w
    · exact h.draw .gaussian Source.gaussian timer.source w

/-! ## Statuses that leave an activation open -/

/-- An activation ends with the status that ends it. -/
theorem Composite.status_settle {κ : Type} (reset : κ → World → κ × World) (part : Composite)
    (t : Ticked (List κ)) : (settle reset part t).status = t.status := by
  unfold settle
  split <;> rfl

/-- A composite that reports a pending status keeps its children as they are. -/
theorem Composite.settle_of_pending {κ : Type} (reset : κ → World → κ × World) (part : Composite)
    {t : Ticked (List κ)} (h : t.status.isPending = true) :
    settle reset part t = ⟨t.status, (part, t.state), t.world⟩ := by
  have hopen : t.status.isCompleted = false := by
    rwa [Status.isPending_eq_not_isCompleted, Bool.not_eq_true'] at h
  unfold settle
  rw [hopen, if_neg Bool.false_ne_true]

/-- A child that runs has not failed, so it is not reset. -/
theorem Decorator.resetFailed_of_running {κ : Type} {reset : κ → World → κ × World} {t : Ticked κ}
    (h : (resetFailed reset t).status = .running) : resetFailed reset t = t := by
  unfold resetFailed at h ⊢
  split at h
  next hfailed =>
    rw [hfailed] at h
    cases h
  next hother => rw [if_neg hother]

/-! ## Handling of one child -/

/-- What one tick of its parent, between two worlds, may leave of a child: its state, or what a tick
of it left, and perhaps a reset after that. -/
inductive Handled {κ : Type} (le : World → World → Prop) (reset : κ → World → κ × World)
    (o : Offer κ) (v : World) : World → κ → Prop
  | idle {w : World} (hpass : le v w) : Handled le reset o v w o.state
  | ticked {w : World} (u : World) (hstart : le v u) (hstop : le (o.tick u).world w) :
    Handled le reset o v w (o.tick u).state
  | reset {w : World} {k : κ} (u : World) (hstart : le v u) (h : Handled le reset o v u k)
    (hstop : le (reset k u).2 w) : Handled le reset o v w (reset k u).1

section

variable {κ : Type} {le : World → World → Prop} {reset : κ → World → κ × World} {v w : World}

/-- What neither ticks nor resets change of a child, its parent does not change. -/
theorem Handled.view_eq {α : Type} (view : κ → α) {o : Offer κ} {k : κ}
    (h : Handled le reset o v w k) (htick : ∀ u, view (o.tick u).state = view o.state)
    (hreset : ∀ k u, view (reset k u).1 = view k) : view k = view o.state := by
  induction h with
  | idle _ => rfl
  | ticked u _ _ => exact htick u
  | reset u _ _ _ ih => rw [hreset, ih]

/-- What both ticks and resets keep of a child as worlds pass, its parent keeps. -/
theorem Handled.keep {P : World → κ → Prop} {o : Offer κ} {k : κ} (h : Handled le reset o v w k)
    (hstate : ∀ w, le v w → P w o.state)
    (htick : ∀ u w, le v u → le (o.tick u).world w → P w (o.tick u).state)
    (hreset : ∀ k u w, le v u → P u k → le (reset k u).2 w → P w (reset k u).1) : P w k := by
  induction h with
  | idle hpass => exact hstate _ hpass
  | ticked u hstart hstop => exact htick u _ hstart hstop
  | reset u hstart _ hstop ih => exact hreset _ u _ hstart ih hstop

variable (hle : World.Passage le)

include hle in
/-- What happens between two worlds happens between worlds further apart. -/
theorem Handled.widen {o : Offer κ} {k : κ} {v' w' : World} (h : Handled le reset o v w k)
    (hv : le v' v) (hw : le w w') : Handled le reset o v' w' k := by
  induction h generalizing w' with
  | idle hpass => exact .idle (hle.trans hv (hle.trans hpass hw))
  | ticked u hstart hstop => exact .ticked u (hle.trans hv hstart) (hle.trans hstop hw)
  | reset u hstart _ hstop ih =>
    exact .reset u (hle.trans hv hstart) (ih (hle.refl u)) (hle.trans hstop hw)

/-- All children are handled between two worlds. -/
def AllHandled (le : World → World → Prop) (reset : κ → World → κ × World)
    (children : List (Offer κ)) (v w : World) (states : List κ) : Prop :=
  le v w ∧ List.Forall₂ (fun o k => Handled le reset o v w k) children states

include hle in
theorem AllHandled.widen {children : List (Offer κ)} {states : List κ} {v' w' : World}
    (h : AllHandled le reset children v w states) (hv : le v' v) (hw : le w w') :
    AllHandled le reset children v' w' states :=
  ⟨hle.trans hv (hle.trans h.1 hw), h.2.imp fun _ _ hchild => hchild.widen hle hv hw⟩

/-- What neither ticks nor resets change of children, their parent does not change. -/
theorem AllHandled.views_eq {α : Type} (view : κ → α) {children : List (Offer κ)}
    {states : List κ} (h : AllHandled le reset children v w states)
    (htick : ∀ o ∈ children, ∀ u, view (o.tick u).state = view o.state)
    (hreset : ∀ k u, view (reset k u).1 = view k) :
    states.map view = children.map fun o => view o.state := by
  rcases h with ⟨-, hstates⟩
  induction hstates with
  | nil => rfl
  | cons hchild _ ih =>
    have hfirst := hchild.view_eq view (htick _ List.mem_cons_self) hreset
    have hrest := ih fun o ho => htick o (List.mem_cons_of_mem _ ho)
    rw [List.map_cons, List.map_cons, hfirst, hrest]

/-- What both ticks and resets keep of children as worlds pass, their parent keeps. -/
theorem AllHandled.keep {P : World → κ → Prop} {children : List (Offer κ)} {states : List κ}
    (h : AllHandled le reset children v w states)
    (hstate : ∀ o ∈ children, ∀ w, le v w → P w o.state)
    (htick : ∀ o ∈ children, ∀ u w, le v u → le (o.tick u).world w → P w (o.tick u).state)
    (hreset : ∀ k u w, le v u → P u k → le (reset k u).2 w → P w (reset k u).1) :
    ∀ k ∈ states, P w k := by
  rcases h with ⟨-, hstates⟩
  induction hstates with
  | nil => exact fun k hk => absurd hk List.not_mem_nil
  | @cons o k _ _ hchild _ ih =>
    have hfirst := hchild.keep (hstate o List.mem_cons_self) (htick o List.mem_cons_self) hreset
    have hrest := ih (fun o ho => hstate o (List.mem_cons_of_mem _ ho))
      fun o ho => htick o (List.mem_cons_of_mem _ ho)
    intro other hother
    rcases List.mem_cons.1 hother with rfl | hother
    · exact hfirst
    · exact hrest other hother

/-- Where there is no child, none is left. -/
theorem AllHandled.no_child {children : List (Offer κ)} {states : List κ} {i : Nat}
    (h : AllHandled le reset children v w states) (ho : children[i]? = none) :
    states[i]? = none := by
  rwa [List.getElem?_eq_none_iff, ← h.2.length_eq, ← List.getElem?_eq_none_iff]

/-- The child at a position is handled like all children. -/
theorem AllHandled.child {children : List (Offer κ)} {states : List κ} {i : Nat} {o : Offer κ}
    (h : AllHandled le reset children v w states) (ho : children[i]? = some o) :
    ∃ k, states[i]? = some k ∧ Handled le reset o v w k := by
  rcases h with ⟨-, hstates⟩
  induction hstates generalizing i with
  | nil => simp at ho
  | cons hfirst _ ih =>
    cases i with
    | zero =>
      cases ho
      exact ⟨_, rfl, hfirst⟩
    | succ i => exact ih ho

/-- Children that are left alone are handled. -/
theorem forall₂_handled_states (h : le v w) (children : List (Offer κ)) :
    List.Forall₂ (fun o k => Handled le reset o v w k) children (children.map Offer.state) := by
  rw [List.forall₂_map_right_iff]
  exact List.forall₂_same.2 fun _ _ => .idle h

/-! ## Composites -/

variable (hreset : ∀ (k : κ) (u : World), le u (reset k u).2) {children : List (Offer κ)}
  (htick : ∀ o ∈ children, ∀ u : World, le u (o.tick u).world)

include hle hreset in
/-- Resetting all children is a passage. -/
theorem passage_resetAll (states : List κ) (u : World) : le u (resetAll reset states u).2 := by
  induction states generalizing u with
  | nil => exact hle.refl u
  | cons first rest ih => exact hle.trans (hreset first u) (ih _)

include hle hreset in
/-- Resetting all children is one way of handling them. -/
theorem forall₂_handled_resetAll {states : List κ} {u : World} (hvw : le v w)
    (h : List.Forall₂ (fun o k => Handled le reset o v w k) children states) (hu : le w u) :
    List.Forall₂ (fun o k => Handled le reset o v (resetAll reset states u).2 k) children
      (resetAll reset states u).1 := by
  induction h generalizing u with
  | nil => exact .nil
  | @cons o k os ks hchild _ ih =>
    have hlast : le (reset k u).2 (resetAll reset ks (reset k u).2).2 :=
      passage_resetAll hle hreset ks (reset k u).2
    exact .cons (.reset u (hle.trans hvw hu) (hchild.widen hle (hle.refl v) hu) hlast)
      (ih (hle.trans hu (hreset k u)))

include hle hreset in
/-- Resetting all children resets each of them, after those before it. -/
theorem reaches_resetAll {states : List κ} {i : Nat} {k : κ} (hi : states[i]? = some k)
    (w : World) :
    let u := (resetAll reset (states.take i) w).2
    le w u ∧ le (reset k u).2 (resetAll reset states w).2 ∧
      (resetAll reset states w).1[i]? = some (reset k u).1 := by
  induction states generalizing i w with
  | nil => simp at hi
  | cons first rest ih =>
    cases i with
    | zero =>
      cases hi
      exact ⟨hle.refl w, passage_resetAll hle hreset rest _, rfl⟩
    | succ i =>
      rcases ih hi (reset first w).2 with ⟨hbefore, hafter, hstate⟩
      exact ⟨hle.trans (hreset first w) hbefore, hafter, hstate⟩

include hle hreset in
/-- Children are handled when an activation ends, too. -/
theorem Composite.handled_settle (part : Composite) {t : Ticked (List κ)}
    (h : AllHandled le reset children v t.world t.state) :
    AllHandled le reset children v (settle reset part t).world
      (settle reset part t).state.2 := by
  rcases h with ⟨hworld, hstates⟩
  unfold settle
  split
  · have hafter := passage_resetAll hle hreset t.state t.world
    exact ⟨hle.trans hworld hafter,
      forall₂_handled_resetAll hle hreset hworld hstates (hle.refl t.world)⟩
  · exact ⟨hworld, hstates⟩

include hle htick in
/-- A pass handles its children. -/
theorem Chain.handled_pass (kind : Chain) (name : String) (position : Nat) (u : World) :
    AllHandled le reset children u (kind.pass name position children u).world
      (kind.pass name position children u).states := by
  induction children generalizing position u with
  | nil => exact ⟨hle.refl u, .nil⟩
  | cons child rest ih =>
    have hchild := htick child List.mem_cons_self u
    have hothers := fun other h => htick other (List.mem_cons_of_mem _ h)
    unfold Chain.pass
    simp only []
    split
    · have hlogged :=
        hle.report .trace s!"{name} {kind.progress} {position + 1}" (child.tick u).world
      rcases ih hothers (position + 1) _ with ⟨hworld, hstates⟩
      have hstop := hle.trans hlogged hworld
      exact ⟨hle.trans hchild hstop, .cons (.ticked u (hle.refl u) hstop)
        (hstates.imp fun _ _ h => h.widen hle (hle.trans hchild hlogged) (hle.refl _))⟩
    · exact ⟨hchild,
        .cons (.ticked u (hle.refl u) (hle.refl _)) (forall₂_handled_states hchild rest)⟩

include hle htick in
/-- Ticking all children handles them. -/
theorem handled_tickAll (u : World) :
    AllHandled le reset children u (tickAll children u).2
      ((tickAll children u).1.map Prod.snd) := by
  induction children generalizing u with
  | nil => exact ⟨hle.refl u, .nil⟩
  | cons child rest ih =>
    have hchild := htick child List.mem_cons_self u
    have hothers := fun other h => htick other (List.mem_cons_of_mem _ h)
    rcases ih hothers (child.tick u).world with ⟨hworld, hstates⟩
    exact ⟨hle.trans hchild hworld, .cons (.ticked u (hle.refl u) hworld)
      (hstates.imp fun _ _ h => h.widen hle hchild (hle.refl _))⟩

include hle htick in
/-- Ticking one child handles all. -/
theorem handled_tickAt (position : Nat) (u : World) :
    AllHandled le reset children u (tickAt position children u).world
      (tickAt position children u).state := by
  induction children generalizing position with
  | nil => cases position <;> exact ⟨hle.refl u, .nil⟩
  | cons child rest ih =>
    cases position with
    | zero =>
      have hchild := htick child List.mem_cons_self u
      exact ⟨hchild,
        .cons (.ticked u (hle.refl u) (hle.refl _)) (forall₂_handled_states hchild rest)⟩
    | succ position =>
      have hothers := fun other h => htick other (List.mem_cons_of_mem _ h)
      rcases ih hothers position with ⟨hworld, hstates⟩
      exact ⟨hworld, .cons (.idle hworld) hstates⟩

include hle hreset htick in
/-- A composite handles each of its children. -/
theorem Composite.handled_tick (part : Composite) (u : World) :
    AllHandled le reset children u (part.tick reset children u).world
      (part.tick reset children u).state.2 := by
  cases part with
  | chain kind name cursor =>
    have hremaining : ∀ o ∈ children.drop cursor, ∀ u, le u (o.tick u).world :=
      fun o h => htick o (List.mem_of_mem_drop h)
    have hpass : AllHandled le reset (children.drop cursor) u _ _ :=
      kind.handled_pass hle hremaining name cursor u
    have hall := List.rel_append (forall₂_handled_states hpass.1 (children.take cursor)) hpass.2
    beta_reduce at hall
    rw [List.take_append_drop] at hall
    simp only [tick]
    exact handled_settle hle hreset _ ⟨hpass.1, hall⟩
  | randomSelector source selected =>
    simp only [tick]
    split
    · rename_i hempty
      rw [List.isEmpty_iff.1 hempty]
      exact ⟨hle.refl u, .nil⟩
    · have hchosen : le u (choose source selected children.length u).2 := by
        cases selected with
        | some position => exact hle.refl u
        | none => exact hle.draw (.index children.length) _ source u
      have hticked :
          AllHandled le reset children (choose source selected children.length u).2 _ _ :=
        handled_tickAt hle htick (choose source selected children.length u).1 _
      exact handled_settle hle hreset _ (hticked.widen hle hchosen (hle.refl _))
  | parallel success failure =>
    simp only [tick]
    exact handled_settle hle hreset _ (handled_tickAll hle htick u)

omit hle in
/-- Ending an activation keeps the first state of a composite. -/
theorem Composite.reset_settle (part : Composite) (t : Ticked (List κ)) :
    (settle reset part t).state.1.reset = part.reset := by
  unfold settle
  split
  · exact part.reset_reset
  · rfl

/-- A tick of a composite keeps its own first state. -/
theorem Composite.reset_tick (part : Composite) (children : List (Offer κ)) (w : World) :
    (part.tick reset children w).state.1.reset = part.reset := by
  cases part with
  | chain kind name cursor =>
    simp only [tick, reset_settle]
    rfl
  | randomSelector source selected =>
    simp only [tick]
    split
    · rfl
    · rw [reset_settle]
      rfl
  | parallel success failure => simp only [tick, reset_settle]

/-! ## Decorators -/

/-- What a decorator leaves after a tick: it has kept its own first state, and its child is
handled. -/
structure Decorator.Handles (le : World → World → Prop) (reset : κ → World → κ × World)
    (part : Decorator) (o : Offer κ) (v : World) (t : Ticked (Decorator × Option κ)) : Prop where
  part : t.state.1.reset = part.reset
  world : le v t.world
  child : ∃ k, t.state.2 = some k ∧ Handled le reset o v t.world k

/-- A decorator that keeps its child as it is handles it. -/
theorem Decorator.handles_keep {part left : Decorator} {o : Offer κ} {t : Ticked κ}
    (hpart : left.reset = part.reset) (status : Status) (hworld : le v t.world)
    (h : Handled le reset o v t.world t.state) : Handles le reset part o v (keep left status t) :=
  ⟨hpart, hworld, t.state, rfl, h⟩

include hle in
/-- A decorator that leaves its child alone, and says so, handles it. -/
theorem Decorator.handles_alone {part : Decorator} {o : Offer κ} (status : Status)
    (message : String) {u : World} (h : le v u) :
    Handles le reset part o v ⟨status, (part, some o.state), u.report .debug message⟩ := by
  have hlogged : le v (u.report .debug message) := hle.trans h (hle.report .debug message u)
  exact ⟨rfl, hlogged, o.state, rfl, .idle hlogged⟩

include hle hreset in
/-- A decorator that restarts its child handles it. -/
theorem Decorator.handles_restart {part left : Decorator} {o : Offer κ} {t : Ticked κ}
    (hpart : left.reset = part.reset) (status : Status) (hworld : le v t.world)
    (h : Handled le reset o v t.world t.state) :
    Handles le reset part o v (restart reset left status t) ∧
      Handles le reset part o v (restartChild reset left status t) := by
  have hpassed : le t.world (reset t.state t.world).2 := hreset t.state t.world
  have hafter : le v (reset t.state t.world).2 := hle.trans hworld hpassed
  have hhandled := Handled.reset t.world hworld h (hle.refl (reset t.state t.world).2)
  have hfirst : left.reset.reset = part.reset := left.reset_reset.trans hpart
  exact ⟨⟨hfirst, hafter, _, rfl, hhandled⟩, ⟨hpart, hafter, _, rfl, hhandled⟩⟩

include hle hreset in
/-- A decorator that gives up, and says so, handles its child. -/
theorem Decorator.handles_restart_report {part left : Decorator} {o : Offer κ} {t : Ticked κ}
    (hpart : left.reset = part.reset) (status : Status) (level : Level) (message : String)
    (hworld : le v t.world) (h : Handled le reset o v t.world t.state) :
    Handles le reset part o v
      (restart reset left status { t with world := t.world.report level message }) := by
  have hlogged : le t.world (t.world.report level message) := hle.report level message t.world
  exact (handles_restart hle hreset hpart status (t := { t with world := _ })
    (hle.trans hworld hlogged) (h.widen hle (hle.refl v) hlogged)).1

include hle hreset in
/-- Resetting a failed child is one way of handling it. -/
theorem Decorator.handled_resetFailed {o : Offer κ} {t : Ticked κ} (hworld : le v t.world)
    (h : Handled le reset o v t.world t.state) :
    le v (resetFailed reset t).world ∧
      Handled le reset o v (resetFailed reset t).world (resetFailed reset t).state := by
  unfold resetFailed
  split
  · have hpassed : le t.world (reset t.state t.world).2 := hreset t.state t.world
    exact ⟨hle.trans hworld hpassed, .reset t.world hworld h (hle.refl _)⟩
  · exact ⟨hworld, h⟩

variable {o : Offer κ} (hoffer : ∀ u : World, le u (o.tick u).world)

variable (reset) in
include hle hoffer in
/-- A child that is ticked on the way is handled. -/
theorem handled_tick_of_le {u : World} (h : le v u) :
    le v (o.tick u).world ∧ Handled le reset o v (o.tick u).world (o.tick u).state :=
  ⟨hle.trans h (hoffer u), .ticked u h (hle.refl _)⟩

include hle hreset hoffer in
/-- A repetition handles its child. -/
theorem Decorator.handles_tickRepetition (limit count : Int32) (u : World) :
    Handles le reset (.repetition limit count) o u (tickRepetition reset limit count o u) := by
  have hpart : ∀ n, (repetition limit n).reset = (repetition limit count).reset := fun _ => rfl
  have hticked := handled_tick_of_le reset hle hoffer (hle.refl u)
  rcases hticked with ⟨hworld, hchild⟩
  unfold tickRepetition
  simp only []
  split
  · exact handles_keep (hpart _) _ hworld hchild
  · split
    · split
      · exact (handles_restart hle hreset (hpart _) _ hworld hchild).1
      · exact (handles_restart hle hreset (hpart _) _ hworld hchild).2
    · exact (handles_restart hle hreset (hpart _) _ hworld hchild).1
    · exact handles_keep (hpart _) _ hworld hchild

include hle hreset hoffer in
/-- A retry handles its child. -/
theorem Decorator.handles_tickRetry (limit count : Int32) (u : World) :
    Handles le reset (.retry limit count) o u (tickRetry reset limit count o u) := by
  have hpart : ∀ n, (retry limit n).reset = (retry limit count).reset := fun _ => rfl
  have hticked := handled_tick_of_le reset hle hoffer (hle.refl u)
  rcases hticked with ⟨hworld, hchild⟩
  unfold tickRetry
  simp only []
  split
  · exact (handles_restart hle hreset (hpart _) _ hworld hchild).1
  · split
    · exact handles_restart_report hle hreset (hpart _) _ _ _ hworld hchild
    · exact (handles_restart hle hreset (hpart _) _ hworld hchild).2
  · exact handles_keep (hpart _) _ hworld hchild

include hle hreset hoffer in
/-- A wait for success handles its child. -/
theorem Decorator.handles_tickSleepUntilSuccess (timer : Timer) (u : World) :
    Handles le reset (.sleepUntilSuccess timer) o u (tickSleepUntilSuccess reset timer o u) := by
  have hpart : (sleepUntilSuccess (u.poll timer).2.1).reset = (sleepUntilSuccess timer).reset := by
    simp only [Decorator.reset, World.poll, Timer.disarm_poll]
  have hpolled : le u (u.poll timer).2.2 := hle.poll timer u
  have hticked := handled_tick_of_le reset hle hoffer hpolled
  rcases hticked with ⟨hworld, hchild⟩
  rcases handled_resetFailed hle hreset hworld hchild with ⟨hfailedWorld, hfailed⟩
  unfold tickSleepUntilSuccess
  simp only []
  split
  · exact (handles_restart hle hreset hpart _ hworld hchild).1
  · split
    · exact handles_restart_report hle hreset hpart _ _ _ hfailedWorld hfailed
    · exact handles_keep hpart _ hfailedWorld hfailed

variable {s : Service}
  (hget : ∀ {α : Type} (supplier : Supplier α) (u : World), le u (supplier.get s u).2)

include hle hget hoffer in
/-- A cooldown handles its child. -/
theorem Decorator.handles_tickCooldown (name : κ → String) (clock : ClockId)
    (period : Supplier Duration) (last : Option Duration) (u : World) :
    Handles le reset (.cooldown clock period last) o u
      (tickCooldown s name clock period last o u) := by
  have hpart : ∀ stamp, (cooldown clock period stamp).reset = (cooldown clock period last).reset :=
    fun _ => rfl
  have hsupplied : le u (period.get s u).2 := hget period u
  unfold tickCooldown
  simp only []
  split
  · exact handles_alone hle _ _ hsupplied
  · have hticked := handled_tick_of_le reset hle hoffer hsupplied
    exact handles_keep (hpart _) _ hticked.1 hticked.2

include hle hget hoffer in
/-- A success rate handles its child. -/
theorem Decorator.handles_tickSuccessRate (name : κ → String) (source : SourceId)
    (percentage : Supplier Float32) (u : World) :
    Handles le reset (.successRate source percentage) o u
      (tickSuccessRate s name source percentage o u) := by
  have hdrawn : le u ((percentage.get s u).2.unit source).2 :=
    hle.trans (hget percentage u) (hle.draw .unit Source.unit source _)
  unfold tickSuccessRate
  simp only []
  split
  · exact handles_alone hle _ _ hdrawn
  · have hticked := handled_tick_of_le reset hle hoffer hdrawn
    exact handles_keep rfl _ hticked.1 hticked.2

include hle hreset hget hoffer in
/-- A decorator handles its child. -/
theorem Decorator.handles_tick (name : κ → String) (part : Decorator) (u : World) :
    Handles le reset part o u (part.tick s reset name (some o) u) := by
  cases part with
  | inverter =>
    have hticked := handled_tick_of_le reset hle hoffer (hle.refl u)
    exact handles_keep rfl _ hticked.1 hticked.2
  | repetition limit count => exact handles_tickRepetition hle hreset hoffer limit count u
  | retry limit count => exact handles_tickRetry hle hreset hoffer limit count u
  | cooldown clock period last =>
    exact handles_tickCooldown hle hoffer hget name clock period last u
  | successRate source percentage =>
    exact handles_tickSuccessRate hle hoffer hget name source percentage u
  | sleepUntilSuccess timer => exact handles_tickSleepUntilSuccess hle hreset hoffer timer u

end

/-! ## Decorators that never reset their children -/

/-- A decorator that never resets its child: all but bounded repetitions, retries and waits for
success. -/
def Decorator.spares : Decorator → Bool
  | inverter => true
  | repetition limit _ => decide (limit < 0)
  | retry _ _ => false
  | cooldown _ _ _ => true
  | successRate _ _ => true
  | sleepUntilSuccess _ => false

/-- Whether a decorator spares its child does not change. -/
@[simp] theorem Decorator.spares_reset (part : Decorator) : part.reset.spares = part.spares := by
  cases part <;> rfl

/-- A decorator that spares its child does not depend on how it would be reset. -/
theorem Decorator.tick_of_spares {κ : Type} {part : Decorator} (h : part.spares = true)
    (s : Service) (reset reset' : κ → World → κ × World) (name : κ → String)
    (child : Option (Offer κ)) (w : World) :
    part.tick s reset name child w = part.tick s reset' name child w := by
  cases child with
  | none => rfl
  | some offer =>
    cases part with
    | inverter => rfl
    | repetition limit count =>
      have hlimit : limit < 0 := of_decide_eq_true h
      simp only [tick, tickRepetition, if_pos hlimit]
    | retry limit count => cases h
    | cooldown clock period last => rfl
    | successRate source percentage => rfl
    | sleepUntilSuccess timer => cases h

end TickTree
