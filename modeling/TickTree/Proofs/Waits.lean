import TickTree.Proofs.Duality.Course
import TickTree.Proofs.Embedding
import TickTree.Proofs.Softening
import TickTree.Proofs.Trace.Accounts

/-!
# Waits in different forms

The same wait can be made of different nodes.  A wait for a predicate is a wait for the success of a
condition, and a wait for nothing is a wait for a predicate that never holds, turned round.  The two
nodes of such a pair poll equal timers at the same time and disarm them at the same time, so they
draw the same targets.

A predicate that never holds may still do something when it is called, and then only one of the two
worlds shows it.  The waits agree as long as it leaves the clock and the random source of the timer
alone.

Main results:

- Definition `Supplier.IsVain`: predicates for which waiting is waiting for nothing.
- Theorem `Node.tick_until_alike`: a wait for a predicate and a wait for a condition tick alike.
- Theorem `Node.tick_asleep_alike`: a wait and a vain wait turned round tick alike.
- Theorem `Node.waits_agree`: the nodes of both pairs agree in all courses.
-/

namespace TickTree

/-- What a wait makes of the answer of a predicate: an error counts as false. -/
def holds : Except Failure Bool → Bool
  | .ok answer => answer
  | .error _ => false

/-- Worlds stay beside each other when log records are written. -/
theorem World.deaf_beside {names : Directory} {apart : List Nat} : Deaf (Beside names apart) where
  left _ _ h := h.emit_left rfl
  right _ _ h := h.emit_right rfl

/-! ## What a timer finds in a world -/

namespace Timer

/-- The timer with something else stored in it. -/
def holding (timer : Timer) (armed : Option Armed) : Timer := { timer with armed := armed }

/-- A poll only changes what is stored. -/
theorem exists_poll_holding (timer : Timer) (armed : Option Armed) (w : World) :
    ∃ armed', (w.poll (timer.holding armed)).2.1 = timer.holding armed' := by
  cases armed with
  | none => exact ⟨_, rfl⟩
  | some armed => exact ⟨_, rfl⟩

/-- A timer finds the same in two worlds: its clock, its random source, and the draws on that. -/
structure FindsSame (timer : Timer) (v w : World) : Prop where
  clock : v.clocks.get timer.clock = w.clocks.get timer.clock
  source : v.sources.get timer.source = w.sources.get timer.source
  draws : v.history.filterMap (Event.drawOn? timer.source) =
    w.history.filterMap (Event.drawOn? timer.source)

section

variable {timer : Timer} {u v w : World}

theorem FindsSame.symm (h : timer.FindsSame v w) : timer.FindsSame w v :=
  ⟨h.clock.symm, h.source.symm, h.draws.symm⟩

theorem FindsSame.trans (h : timer.FindsSame u v) (h' : timer.FindsSame v w) :
    timer.FindsSame u w :=
  ⟨h.clock.trans h'.clock, h.source.trans h'.source, h.draws.trans h'.draws⟩

/-- An event that is no draw on the source of the timer. -/
theorem findsSame_emit {event : Event} (h : event.drawOn? timer.source = none) (w : World) :
    timer.FindsSame w (w.emit event) :=
  ⟨rfl, rfl, (List.filterMap_cons_none h).symm⟩

theorem findsSame_fail (timer : Timer) (fault : Fault) (w : World) :
    timer.FindsSame w (w.fail fault) := by
  unfold World.fail
  split
  · exact ⟨rfl, rfl, rfl⟩
  · exact ⟨rfl, rfl, rfl⟩

/-- Steps on both sides that the timer does not see. -/
theorem FindsSame.around {v' w' : World} (h : timer.FindsSame v w) (hv : timer.FindsSame v v')
    (hw : timer.FindsSame w w') : timer.FindsSame v' w' :=
  hv.symm.trans (h.trans hw)

/-- A step of a clock on both sides. -/
theorem FindsSame.advance (h : timer.FindsSame v w) (clock : ClockId) (step : Duration) :
    timer.FindsSame (v.advance clock step) (w.advance clock step) := by
  by_cases hclock : timer.clock = clock
  · subst hclock
    unfold World.advance
    rw [h.clock]
    cases (w.clocks.get timer.clock).advance? step with
    | some moved => exact ⟨by simp only [Table.get_set_self], h.source, h.draws⟩
    | none => exact h.around (findsSame_fail timer _ v) (findsSame_fail timer _ w)
  · have hother : ∀ u : World, timer.FindsSame u (u.advance clock step) := by
      intro u
      unfold World.advance
      split
      · exact ⟨(Table.get_set_ne _ _ hclock).symm, rfl, rfl⟩
      · exact findsSame_fail timer _ u
    exact h.around (hother v) (hother w)

/-- A later reading on both sides. -/
theorem FindsSame.setClock (h : timer.FindsSame v w) (clock : ClockId) (reading : Duration) :
    timer.FindsSame (v.setClock clock reading) (w.setClock clock reading) := by
  refine ⟨?_, h.source, h.draws⟩
  simp only [World.setClock, Table.get_set]
  split
  · rename_i hclock
    rw [← hclock, h.clock]
  · exact h.clock

/-- A draw on both sides. -/
theorem FindsSame.draw {α : Type} (h : timer.FindsSame v w) (draw : Draw)
    (take : Source → α × Source) :
    Coupled timer.FindsSame (v.drawWith draw take timer.source)
      (w.drawWith draw take timer.source) := by
  unfold World.drawWith
  rw [h.source]
  refine ⟨rfl, h.clock, ?_, ?_⟩
  · simp only [World.sources_emit, Table.get_set_self]
  · simp only [World.history_emit, List.filterMap_cons, h.draws]

/-- A quiet effect on both sides. -/
theorem FindsSame.perform (h : timer.FindsSame v w) (s : Service) {effect : Effect}
    (hquiet : effect.IsQuiet) : timer.FindsSame (effect.perform s v) (effect.perform s w) := by
  cases effect with
  | advance clock step => exact h.advance clock step
  | set clock reading => exact h.setClock clock reading
  | ask operation tree => exact hquiet.elim
  | log level message => exact h.around (findsSame_emit rfl v) (findsSame_emit rfl w)
  | fail fault => exact h.around (findsSame_fail timer fault v) (findsSame_fail timer fault w)

/-- In worlds beside each other every timer finds the same. -/
theorem findsSame_of_beside {names : Directory} {apart : List Nat} (timer : Timer)
    (h : v.Beside names apart w) : timer.FindsSame v w := by
  have hcut : ∀ u : World, u.history.filterMap (Event.drawOn? timer.source) =
      (u.history.filter (Event.isWork apart)).filterMap (Event.drawOn? timer.source) := by
    intro u
    rw [List.filterMap_filter]
    congr 1
    funext event
    cases event <;> simp [Event.drawOn?, Event.isWork]
  refine ⟨by rw [h.clocks], by rw [h.sources], ?_⟩
  rw [hcut v, hcut w, h.events]

end

end Timer

namespace Supplier

/-- A predicate that never holds, and whose calls leave the clock and the random source of a timer
as they are. -/
structure IsVain (s : Service) (timer : Timer) (never : Supplier Bool) : Prop where
  vain : ∀ answer, never.Gives answer → answer = false
  spares : ∀ w, timer.FindsSame w (never.get s w).2

/-- The predicate writes log records at most. -/
def OnlyLogs (never : Supplier Bool) : Prop := never.Every fun _ c => c.Does Effect.IsLog

variable {s : Service} {never : Supplier Bool}

/-- When such a predicate is asked in the second of two worlds, they stay beside each other. -/
theorem OnlyLogs.beside_get (h : never.OnlyLogs) {names : Directory} {v w : World}
    (hw : v.Beside names never.seats w) : v.Beside names never.seats (never.get s w).2 := by
  have hseated : never.Every fun _ c => c.Does Effect.IsLog ∧ c.seat ∈ never.seats := by
    cases never with
    | constant answer => trivial
    | scripted c => exact ⟨h, List.mem_singleton_self _⟩
  exact beside_get_right hseated hw

/-- For every timer it leaves alone what the timer uses. -/
theorem OnlyLogs.isVain (h : never.OnlyLogs) (hvain : ∀ answer, never.Gives answer → answer = false)
    (timer : Timer) : never.IsVain s timer :=
  ⟨hvain, fun w => timer.findsSame_of_beside (h.beside_get (.refl never.seats w))⟩

end Supplier

namespace Node

/-! ## Pairs of waits -/

/-- A wait for a predicate. -/
def untilHolds (p : Supplier (Except Failure Bool)) (timer : Timer) : Node :=
  leaf (.sleepUntil timer (p.map holds))

/-- For a predicate that gives no errors it is a wait for just that predicate. -/
theorem untilHolds_ok (test : Supplier Bool) (timer : Timer) :
    untilHolds (test.map .ok) timer = leaf (.sleepUntil timer test) := by
  cases test <;> rfl

/-- A wait for the success of a condition. -/
def untilSucceeds (name : String) (p : Supplier (Except Failure Bool)) (timer : Timer) : Node :=
  decorator (.sleepUntilSuccess timer) (some (leaf (.condition name p)))

/-- A wait for nothing. -/
def asleep (timer : Timer) : Node := leaf (.sleep timer)

/-- A wait for a predicate, turned round. -/
def untilNot (never : Supplier Bool) (timer : Timer) : Node :=
  (leaf (.sleepUntil timer never)).inverted

/-- Two nodes are made in two ways from a timer with the same things stored, and their worlds are
related. -/
def WaitAlike (timer : Timer) (first second : Timer → Node) (R : World → World → Prop)
    (x y : Node × World) : Prop :=
  (∃ armed, x.1 = first (timer.holding armed) ∧ y.1 = second (timer.holding armed)) ∧ R x.2 y.2

section

variable {R : World → World → Prop} {s t : Service} {v w : World}

/-- A condition succeeds in one world when its predicate holds in a related one. -/
theorem tick_condition_alike (hR : World.Coupling R) (hdeaf : World.Deaf R)
    (hs : Service.Alike R s t) (name : String) (p : Supplier (Except Failure Bool)) (hw : R v w) :
    let asked := p.get s v
    let condition := leaf (.condition name p)
    ∃ w', condition.tick t w =
        ⟨if holds asked.1 then .success else .failure, condition, w'⟩ ∧ R asked.2 w' := by
  rcases (p.get_coupled hR hs hw).split with ⟨answer, v', w', hv, hw', hafter⟩
  simp only [tick, Leaf.tick, hv, hw']
  cases answer with
  | ok answer => cases answer <;> exact ⟨_, rfl, hafter⟩
  | error failure => exact ⟨_, rfl, hdeaf.right .warn _ hafter⟩

/-- A wait for the success of a child that completes with every tick, and that no reset changes. -/
theorem tickSleepUntilSuccess_of_steady {κ : Type} {reset : κ → World → κ × World} {timer : Timer}
    {child : Offer κ} {k : κ} {held : Bool}
    (htick : child.tick (w.poll timer).2.2 = ⟨if held then .success else .failure, k, v⟩)
    (hreset : ∀ u, reset k u = (k, u)) :
    let polled := w.poll timer
    Decorator.tickSleepUntilSuccess reset timer child w =
      if held then ⟨.success, (.sleepUntilSuccess polled.2.1.disarm, some k), v⟩
      else if polled.1 then
        ⟨.failure, (.sleepUntilSuccess polled.2.1.disarm, some k),
          v.report .debug s!"{(Decorator.sleepUntilSuccess polled.2.1).name} timed out"⟩
      else ⟨.sleeping, (.sleepUntilSuccess polled.2.1, some k), v⟩ := by
  intro polled
  unfold Decorator.tickSleepUntilSuccess
  simp only [htick]
  cases held with
  | true =>
    simp only [if_true, Decorator.restart, Decorator.reset, hreset]
    rfl
  | false =>
    simp [Decorator.restart, Decorator.resetFailed, Decorator.keep, Decorator.reset, hreset, polled]

/-- A wait for a predicate and a wait for the success of a condition tick alike. -/
theorem tick_until_alike (hR : World.Coupling R) (hdeaf : World.Deaf R) (hs : Service.Alike R s t)
    (name : String) (p : Supplier (Except Failure Bool)) (timer : Timer) (armed : Option Armed)
    (hw : R v w) :
    let first := (untilHolds p (timer.holding armed)).tick s v
    let second := (untilSucceeds name p (timer.holding armed)).tick t w
    first.status = second.status ∧
      WaitAlike timer (untilHolds p) (untilSucceeds name p) R (first.state, first.world)
        (second.state, second.world) := by
  rcases hR.toTracking.poll (hR.drawsAlike (timer.holding armed).source) hw with
    ⟨hexpired, htimer, hpolled⟩
  rcases timer.exists_poll_holding armed w with ⟨armed', harmed⟩
  rcases tick_condition_alike hR hdeaf hs name p hpolled with ⟨w', htick, hafter⟩
  have hreset : ∀ u, reset t (leaf (.condition name p)) u = (leaf (.condition name p), u) := by
    intro u
    simp only [reset]
    rfl
  simp only [untilHolds, untilSucceeds, tick, offer, Leaf.tick, Decorator.tick, Supplier.get_map,
    hexpired, htimer]
  rw [tickSleepUntilSuccess_of_steady htick hreset, harmed]
  cases holds (p.get s (v.poll (timer.holding armed)).2.2).1 with
  | true => exact ⟨rfl, ⟨none, rfl, rfl⟩, hafter⟩
  | false =>
    cases (w.poll (timer.holding armed)).1 with
    | true => exact ⟨rfl, ⟨none, rfl, rfl⟩, hdeaf.left .debug _ (hdeaf.right .debug _ hafter)⟩
    | false => exact ⟨rfl, ⟨armed', rfl, rfl⟩, hafter⟩

/-- A wait and a vain wait turned round tick alike, when asking for nothing is not seen. -/
theorem tick_asleep_alike {timer : Timer} (hdraw : World.DrawsAlike R timer.source)
    (hnow : ∀ {v w}, R v w → v.now timer.clock = w.now timer.clock) (hdeaf : World.Deaf R)
    {never : Supplier Bool}
    (hnever : ∀ {v w}, R v w → (never.get t w).1 = false ∧ R v (never.get t w).2)
    (armed : Option Armed) (hw : R v w) :
    let first := (asleep (timer.holding armed)).tick s v
    let second := (untilNot never (timer.holding armed)).tick t w
    first.status = second.status ∧
      WaitAlike timer asleep (untilNot never) R (first.state, first.world)
        (second.state, second.world) := by
  rcases World.DrawsAlike.poll (timer.holding armed) hdraw (hnow hw) hw with
    ⟨hexpired, htimer, hpolled⟩
  rcases timer.exists_poll_holding armed v with ⟨armed', harmed⟩
  rcases hnever hpolled with ⟨hfalse, hafter⟩
  rcases hv : v.poll (timer.holding armed) with ⟨expired, timer', v'⟩
  rw [hv] at hexpired htimer harmed hafter
  rcases harmed with rfl
  simp only [asleep, untilNot, inverted, tick, offer, Leaf.tick, Decorator.tick, hv, hfalse,
    ← hexpired, ← htimer]
  cases expired with
  | true => exact ⟨rfl, ⟨none, rfl, rfl⟩, hdeaf.right .debug _ hafter⟩
  | false => exact ⟨rfl, ⟨armed', rfl, rfl⟩, hafter⟩

end

/-! ## Courses -/

/-- How nodes made from a timer take operations other than ticks: a reset disarms the timer, and
starting and finishing change nothing. -/
structure IsWait (s : Service) (make : Timer → Node) : Prop where
  reset : ∀ timer w, (make timer).reset s w = (make timer.disarm, w)
  start : ∀ timer w, (make timer).start s w = (make timer, w)
  finish : ∀ timer w, (make timer).finish s w = (make timer, w)

/-- The nodes of both pairs are waits. -/
theorem isWait (s : Service) (name : String) (p : Supplier (Except Failure Bool))
    (never : Supplier Bool) :
    IsWait s (untilHolds p) ∧ IsWait s (untilSucceeds name p) ∧ IsWait s asleep ∧
      IsWait s (untilNot never) := by
  refine ⟨?_, ?_, ?_, ?_⟩
  all_goals
    constructor
    · intro timer w
      simp only [untilHolds, untilSucceeds, asleep, untilNot, inverted, Node.reset, resetChild]
      rfl
    · intro timer w
      rfl
    · intro timer w
      rfl

/-- Two kinds of waits that tick alike go alike in a course, when their worlds stay related under
what the host does. -/
theorem moves_waitAlike {s t : Service} {R : World → World → Prop} {timer : Timer}
    {first second : Timer → Node} (hfirst : IsWait s first) (hsecond : IsWait t second)
    (htick : ∀ {v w : World} (armed : Option Armed), R v w →
      let x := (first (timer.holding armed)).tick s v
      let y := (second (timer.holding armed)).tick t w
      x.status = y.status ∧
        WaitAlike timer first second R (x.state, x.world) (y.state, y.world))
    {moves : List Move}
    (hact : ∀ effect, .act effect ∈ moves → ∀ {v w : World}, R v w →
      R (effect.perform s v) (effect.perform t w))
    {v w : World} (hw : R v w) :
    (first timer).answers s moves v = (second timer).answers t moves w ∧
      WaitAlike timer first second R ((first timer).left s moves v)
        ((second timer).left t moves w) := by
  refine moves_related ?_ ?_ (x := (first timer, v)) (y := (second timer, w))
    ⟨⟨timer.armed, rfl, rfl⟩, hw⟩
  · rintro operation ⟨_, v⟩ ⟨_, w⟩ ⟨⟨armed, rfl, rfl⟩, hw⟩
    cases operation with
    | tick =>
      rcases htick armed hw with ⟨hstatus, hafter⟩
      exact ⟨congrArg Answer.ticked hstatus, hafter⟩
    | reset =>
      simp only [perform, hfirst.reset, hsecond.reset]
      exact ⟨trivial, ⟨none, rfl, rfl⟩, hw⟩
    | start =>
      simp only [perform, hfirst.start, hsecond.start]
      exact ⟨trivial, ⟨armed, rfl, rfl⟩, hw⟩
    | finish =>
      simp only [perform, hfirst.finish, hsecond.finish]
      exact ⟨trivial, ⟨armed, rfl, rfl⟩, hw⟩
  · rintro effect heffect ⟨_, v⟩ ⟨_, w⟩ ⟨htimer, hw⟩
    exact ⟨htimer, hact effect heffect hw⟩

/-- In the second of two worlds a vain predicate has been asked: its timer finds the same in both,
and they are beside each other when the predicate writes log records at most. -/
structure Asked (timer : Timer) (never : Supplier Bool) (names : Directory) (v w : World) :
    Prop where
  timing : timer.FindsSame v w
  beside : never.OnlyLogs → v.Beside names never.seats w

section

variable {s : Service} {timer : Timer} {never : Supplier Bool} {names : Directory} {v w : World}

/-- Both worlds draw the same for the timer. -/
theorem drawsAlike_asked : World.DrawsAlike (Asked timer never names) timer.source := by
  intro v w α draw take h
  rcases h.timing.draw draw take with ⟨hvalue, hafter⟩
  exact ⟨hvalue, hafter, fun hlogs =>
    (World.sharing_beside.draw draw take timer.source (h.beside hlogs)).2⟩

/-- Log records of the library make no difference. -/
theorem deaf_asked : World.Deaf (Asked timer never names) where
  left _ _ h := ⟨(Timer.findsSame_emit rfl _).symm.trans h.timing, fun hlogs =>
    World.deaf_beside.left _ _ (h.beside hlogs)⟩
  right _ _ h := ⟨h.timing.trans (Timer.findsSame_emit rfl _), fun hlogs =>
    World.deaf_beside.right _ _ (h.beside hlogs)⟩

/-- The predicate is asked once more. -/
theorem Asked.get (h : Asked timer never names v w) (hnever : never.IsVain s timer) :
    (never.get s w).1 = false ∧ Asked timer never names v (never.get s w).2 := by
  exact ⟨hnever.vain _ (never.gives_get s w), h.timing.trans (hnever.spares w), fun hlogs =>
    hlogs.beside_get (h.beside hlogs)⟩

/-- The host does the same on both sides, and asks nothing of shared trees. -/
theorem Asked.perform (h : Asked timer never names v w) {effect : Effect}
    (hquiet : effect.IsQuiet) :
    Asked timer never names (effect.perform s v) (effect.perform s w) := by
  refine ⟨h.timing.perform s hquiet, fun hlogs => ?_⟩
  have hact : ∀ act ∈ [effect], act.IsQuiet := fun act hact => List.mem_singleton.1 hact ▸ hquiet
  exact Effect.beside_performAll [effect] hact (h.beside hlogs)

end

/-- Waits in different forms agree.  Take a wait for a predicate, which may give errors, and a wait
for the success of a condition with this predicate; or a wait for nothing, and a wait for a vain
predicate, turned round.  Both nodes of a pair are made with the same wait and configuration and
begin in the same world.  In every course they give the same answers, and afterwards they hold the
same timer, with the same target.  In the first pair the worlds are the same but for log records,
whatever is done in the course.  In the second pair nothing is asked of shared trees in the course;
the clock, the random source and the draws on it are the same, and when the predicate writes log
records at most, so is all but log records and its calls.  So the same callbacks are called and the
same numbers are drawn, in the same order. -/
theorem waits_agree (plans : Array TreePlan) (depth : Nat) (wait : Duration) (config : Config)
    (w : World) (moves : List Move) :
    let s := serve (plantFrom plans) depth
    let timer := Timer.new wait config
    (∀ (name : String) (p : Supplier (Except Failure Bool)),
      (untilHolds p timer).answers s moves w = (untilSucceeds name p timer).answers s moves w ∧
        WaitAlike timer (untilHolds p) (untilSucceeds name p) (World.AgreeOn Event.isDeed)
          ((untilHolds p timer).left s moves w) ((untilSucceeds name p timer).left s moves w)) ∧
    ∀ never : Supplier Bool, never.IsVain s timer →
      (∀ effect, .act effect ∈ moves → effect.IsQuiet) →
      (asleep timer).answers s moves w = (untilNot never timer).answers s moves w ∧
        WaitAlike timer asleep (untilNot never) (Asked timer never w.directory)
          ((asleep timer).left s moves w) ((untilNot never timer).left s moves w) := by
  intro s timer
  constructor
  · intro name p
    have hR := World.tending_agreeOn Event.isDeed
    have hs : Service.Alike (World.AgreeOn Event.isDeed) s s := serve_coupled hR plans depth
    rcases isWait s name p (.constant false) with ⟨hfirst, hsecond, -, -⟩
    exact moves_waitAlike hfirst hsecond
      (tick_until_alike hR.toCoupling World.deaf_agreeOn_isDeed hs name p timer)
      (fun effect _ _ _ hw => Effect.performAll_coupled hR.toCoupling hs [effect] hw) (.refl w)
  · intro never hnever hquiet
    rcases isWait s "" (.constant (.ok false)) never with ⟨-, -, hfirst, hsecond⟩
    have hbegin : Asked timer never w.directory w w :=
      ⟨⟨rfl, rfl, rfl⟩, fun _ => .refl never.seats w⟩
    exact moves_waitAlike hfirst hsecond
      (tick_asleep_alike drawsAlike_asked (fun h => congrArg Clock.now h.timing.clock) deaf_asked
        fun h => h.get hnever)
      (fun effect heffect _ _ hw => hw.perform (hquiet effect heffect)) hbegin

/-- A vain predicate that writes a log record: two ticks, with a second between them, go alike. -/
theorem waits_agree_logging :
    let s := serve (plantFrom #[]) 1
    let second : Duration := ⟨nanosPerSecond, by decide⟩
    let timer := Timer.new second .standard
    let w := World.start (.empty .start) (.empty (.seeded 0))
    let never := Supplier.scripted ⟨0, "never", fun _ => ⟨[.log .info "asked"], false⟩⟩
    let moves := [.perform .tick, .act (.advance 0 second), .perform .tick]
    never.IsVain s timer ∧ (∀ effect, .act effect ∈ moves → effect.IsQuiet) ∧
      (asleep timer).answers s moves w = (untilNot never timer).answers s moves w := by
  intro s second timer w never moves
  have hnever : never.IsVain s timer := by
    have hlogs : never.OnlyLogs := by
      intro _ effect heffect
      rw [List.mem_singleton.1 heffect]
      trivial
    refine hlogs.isVain ?_ timer
    rintro answer ⟨_, rfl⟩
    rfl
  have hquiet : ∀ effect, .act effect ∈ moves → effect.IsQuiet := by
    simp [moves, Effect.IsQuiet]
  exact ⟨hnever, hquiet, ((waits_agree #[] 1 second .standard w moves).2 never hnever hquiet).1⟩

end Node

end TickTree
