import Mathlib.Logic.Function.Iterate
import TickTree.Pool
import TickTree.Proofs.Dealing.Deadline

/-!
# Timers over clocks that are moved by hand

A host polls and disarms a timer, and moves clocks through numbered handles.  The first poll of a
wait stores the reading of the clock and draws a target, and both are kept until the timer is
disarmed.  As no clock goes back, the stored start is never in the future, and a timer that has
fired goes on firing.

What is drawn is a parameter: any function of a jitter and of the state of the random source.

Main results:

- Theorem `Timing.steady`: the clocks are shared by their handles and never go back.
- Theorem `Timing.after_armed`: an armed timer and its source stay the same until a disarming.
- Theorem `Timing.source_after`: as many targets are drawn as waits begin.
- Theorem `Timing.fires_on_time`: a timer fires exactly when its own target has passed.
-/

namespace TickTree

/-! ## Acts of the host -/

/-- A timer, the clocks that its host moves, and its random source.  Several handles may lead to one
clock, and the timer has one of them. -/
structure Timing (σ : Type) where
  timer : Timer
  clocks : Pool Clock
  source : σ
  /-- The handle of the timer was handed out. -/
  clock_lt : timer.clock < clocks.handles.size

namespace Timing

/-- What a host can do with a timer, and with a clock through a handle. -/
inductive Act where
  | poll
  | disarm
  | advance (handle : ClockId) (step : Duration)
  | set (handle : ClockId) (reading : Duration)
  /-- A further handle on the same clock is made. -/
  | share (handle : ClockId)
  deriving DecidableEq

/-- What comes of an act. -/
inductive Outcome where
  | polled (fired : Bool)
  | done
  | broken (fault : Fault)
  deriving DecidableEq

variable {σ : Type}

/-- The reading of a clock through a handle. -/
def now (handle : ClockId) (x : Timing σ) : Duration := (x.clocks.get handle).now

/-- The reading that a poll finds. -/
def reading (x : Timing σ) : Duration := x.now x.timer.clock

/-- Polls the timer. -/
def poll (draw : Jitter → σ → Duration × σ) (x : Timing σ) : Bool × Timing σ :=
  let polled := x.timer.poll x.reading draw x.source
  (polled.1,
    { x with
      timer := polled.2.1
      source := polled.2.2
      clock_lt := by
        have hkept := congrArg Timer.clock (x.timer.disarm_poll x.reading draw x.source)
        exact Nat.lt_of_le_of_lt (Nat.le_of_eq hkept) x.clock_lt })

/-- Carries out an act.  A step past the longest duration is refused. -/
def step (draw : Jitter → σ → Duration × σ) : Act → Timing σ → Outcome × Timing σ
  | .poll, x => (.polled (x.poll draw).1, (x.poll draw).2)
  | .disarm, x => (.done, { x with timer := x.timer.disarm })
  | .advance handle step, x =>
    match (x.clocks.get handle).advance? step with
    | some moved => (.done, { x with clocks := x.clocks.put handle moved })
    | none => (.broken .clockOverflow, x)
  | .set handle reading, x =>
    (.done, { x with clocks := x.clocks.put handle ((x.clocks.get handle).set reading) })
  | .share handle, x =>
    (.done,
      { x with
        clocks := (x.clocks.share handle).2
        clock_lt := by
          rw [show (x.clocks.share handle).2.handles.size = x.clocks.handles.size + 1 from
            Array.size_push _]
          exact Nat.lt_succ_of_lt x.clock_lt })

/-- What is left after some acts, one after the other. -/
def after (draw : Jitter → σ → Duration × σ) : List Act → Timing σ → Timing σ
  | [], x => x
  | act :: rest, x => after draw rest (x.step draw act).2

/-! ## What a history says -/

/-- A wait is in progress after an act, given whether one was before. -/
def Act.waits (waiting : Bool) : Act → Bool
  | poll => true
  | disarm => false
  | _ => waiting

/-- Acts on clocks neither begin nor end a wait. -/
theorem Act.waits_of_ne {act : Act} (hpoll : act ≠ .poll) (hdisarm : act ≠ .disarm)
    (waiting : Bool) : act.waits waiting = waiting := by
  cases act with
  | poll => exact absurd rfl hpoll
  | disarm => exact absurd rfl hdisarm
  | _ => rfl

/-- A wait is in progress after these acts: the timer was polled since the last disarming. -/
def waits (waiting : Bool) (acts : List Act) : Bool := acts.foldl Act.waits waiting

/-- The number of waits that begin in a history: of polls that find no wait in progress. -/
def armings (waiting : Bool) : List Act → Nat
  | [] => 0
  | act :: rest =>
    (if act = .poll ∧ waiting = false then 1 else 0) + armings (act.waits waiting) rest

section

variable (draw : Jitter → σ → Duration × σ) {x : Timing σ}

/-! ## Clocks -/

/-- What a change of a clock comes to is seen through every handle on it. -/
theorem now_put {clocks : Pool Clock} {handle other : ClockId} (c : Clock)
    (h : clocks.cell other = clocks.cell handle) : ((clocks.put handle c).get other).now = c.now :=
  congrArg Clock.now (Pool.get_put_of_cell_eq clocks c h)

/-- A clock that is replaced by a later one shows no earlier reading through any handle. -/
theorem le_now_put {clocks : Pool Clock} {handle : ClockId} {c : Clock}
    (h : (clocks.get handle).now ≤ c.now) (other : ClockId) :
    (clocks.get other).now ≤ ((clocks.put handle c).get other).now := by
  by_cases hcell : clocks.cell other = clocks.cell handle
  · have hsame : clocks.get other = clocks.get handle := congrArg clocks.cells.get hcell
    rw [now_put c hcell, hsame]
    exact h
  · rw [Pool.get_put_of_cell_ne clocks c hcell]
    exact Nat.le_refl _

/-- No act takes a handle away or moves its clock back. -/
theorem now_le_now_step (act : Act) {handle : ClockId} (h : handle < x.clocks.handles.size) :
    handle < (x.step draw act).2.clocks.handles.size ∧
      x.now handle ≤ (x.step draw act).2.now handle := by
  cases act with
  | poll => exact ⟨h, Nat.le_refl _⟩
  | disarm => exact ⟨h, Nat.le_refl _⟩
  | advance other step =>
    simp only [Timing.step]
    split
    next moved hmoved => exact ⟨h, le_now_put (Clock.le_of_advance? hmoved) handle⟩
    next => exact ⟨h, Nat.le_refl _⟩
  | set other reading => exact ⟨h, le_now_put (Clock.le_set _ reading) handle⟩
  | share other =>
    refine ⟨?_, ?_⟩
    · exact Nat.lt_of_lt_of_eq (Nat.lt_succ_of_lt h) (Array.size_push _).symm
    · simp only [Timing.step, now, x.clocks.get_share_of_lt other h]
      exact Nat.le_refl _

/-- The reading through a handle never decreases. -/
theorem now_le_now_after (acts : List Act) {handle : ClockId}
    (h : handle < x.clocks.handles.size) : x.now handle ≤ (x.after draw acts).now handle := by
  induction acts generalizing x with
  | nil => exact Nat.le_refl _
  | cons act rest ih =>
    rcases now_le_now_step draw act h with ⟨hstays, hstep⟩
    exact Nat.le_trans hstep (ih hstays)

/-- Clocks that are shared, and that never go back. -/
structure Steady (draw : Jitter → σ → Duration × σ) (x : Timing σ) : Prop where
  forward : ∀ handle < x.clocks.handles.size, ∀ later,
    x.now handle ≤ (x.after draw later).now handle
  /-- A step past the longest duration is refused, and nothing changes. -/
  refused : ∀ handle step, maxNanos < (x.now handle).nanos + step.nanos →
    x.step draw (.advance handle step) = (.broken .clockOverflow, x)
  /-- Any other step is carried out, and is seen through every handle on the clock. -/
  advanced : ∀ handle step, (x.now handle).nanos + step.nanos ≤ maxNanos →
    (x.step draw (.advance handle step)).1 = .done ∧
      ∀ other, x.clocks.cell other = x.clocks.cell handle →
        ((x.step draw (.advance handle step)).2.now other).nanos =
          (x.now handle).nanos + step.nanos
  /-- A later reading is taken over, and an earlier one is not. -/
  jumped : ∀ handle reading other, x.clocks.cell other = x.clocks.cell handle →
    ((x.step draw (.set handle reading)).2.now other).nanos =
      Nat.max (x.now handle).nanos reading.nanos
  /-- A further handle leads to the same clock. -/
  shared : ∀ handle, (x.step draw (.share handle)).2.clocks.cell x.clocks.handles.size =
    x.clocks.cell handle

/-- The clocks of a host are steady, whatever was done before. -/
theorem steady (draw : Jitter → σ → Duration × σ) (x : Timing σ) : x.Steady draw where
  forward _ hhandle later := now_le_now_after draw later hhandle
  refused handle step h := by
    have hrefused : (x.clocks.get handle).advance? step = none :=
      Option.map_eq_none_iff.2 ((Duration.add?_eq_none_iff _ _).2 h)
    simp only [Timing.step, hrefused]
  advanced handle step h := by
    have hsum : (x.now handle).add? step = some ⟨(x.now handle).nanos + step.nanos, h⟩ :=
      Duration.ofNanos?_eq_some_iff.2 rfl
    have hmoved : (x.clocks.get handle).advance? step = some ⟨⟨_, h⟩⟩ :=
      Option.map_eq_some_iff.2 ⟨_, hsum, rfl⟩
    simp only [Timing.step, hmoved]
    exact ⟨trivial, fun _ hcell => congrArg Duration.nanos (now_put _ hcell)⟩
  jumped handle reading other hcell := by
    refine (congrArg Duration.nanos (now_put _ hcell)).trans ?_
    unfold Clock.set
    split
    next hlater => exact (Nat.max_eq_right (Nat.le_of_lt hlater)).symm
    next hearlier => exact (Nat.max_eq_left (Nat.le_of_not_lt hearlier)).symm
  shared handle := x.clocks.cell_share handle

/-! ## The timer -/

/-- A poll that finds the timer armed changes nothing. -/
theorem poll_armed {armed : Armed} (h : x.timer.armed = some armed) :
    x.step draw .poll = (.polled (armed.hasElapsed x.reading), x) := by
  simp only [Timing.step, poll, Timer.poll_armed x.reading draw h]

/-- A poll that finds the timer disarmed stores the reading and draws one target. -/
theorem poll_disarmed (h : x.timer.armed = none) :
    let armed : Armed := ⟨x.reading, (draw x.timer.jitter x.source).1⟩
    (x.step draw .poll).1 = .polled (armed.hasElapsed x.reading) ∧
      (x.step draw .poll).2.timer = { x.timer with armed := some armed } ∧
      (x.step draw .poll).2.source = (draw x.timer.jitter x.source).2 := by
  simp only [Timing.step, poll, Timer.poll_disarmed x.reading draw h]
  exact ⟨trivial, trivial, trivial⟩

/-- What an act does to a timer and its source. -/
inductive Stepped (draw : Jitter → σ → Duration × σ) (act : Act) (x y : Timing σ) : Prop
  /-- A poll begins a wait. -/
  | begins (hact : act = .poll) (hdisarmed : x.timer.armed = none)
    (htimer : y.timer =
      { x.timer with armed := some ⟨x.reading, (draw x.timer.jitter x.source).1⟩ })
    (hsource : y.source = (draw x.timer.jitter x.source).2) : Stepped draw act x y
  /-- A poll finds a wait in progress. -/
  | asks (hact : act = .poll) (harmed : x.timer.isArmed = true) (hsame : y = x) :
    Stepped draw act x y
  | ends (hact : act = .disarm) (htimer : y.timer = x.timer.disarm)
    (hsource : y.source = x.source) : Stepped draw act x y
  /-- The act is one on a clock. -/
  | idles (hpoll : act ≠ .poll) (hdisarm : act ≠ .disarm) (htimer : y.timer = x.timer)
    (hsource : y.source = x.source) : Stepped draw act x y

/-- Every act does one of these. -/
theorem stepped (act : Act) : Stepped draw act x (x.step draw act).2 := by
  cases act with
  | poll =>
    cases harmed : x.timer.armed with
    | none =>
      rcases poll_disarmed draw harmed with ⟨-, htimer, hsource⟩
      exact .begins rfl harmed htimer hsource
    | some armed =>
      exact .asks rfl (congrArg Option.isSome harmed) (by rw [poll_armed draw harmed])
  | disarm => exact .ends rfl rfl rfl
  | advance handle step =>
    simp only [Timing.step]
    split
    · exact .idles nofun nofun rfl rfl
    · exact .idles nofun nofun rfl rfl
  | set handle reading => exact .idles nofun nofun rfl rfl
  | share handle => exact .idles nofun nofun rfl rfl

/-- Nothing but the wait in progress ever changes in the timer. -/
theorem disarm_step (act : Act) : (x.step draw act).2.timer.disarm = x.timer.disarm := by
  cases stepped draw (x := x) act with
  | begins hact hdisarmed htimer hsource =>
    rw [htimer]
    rfl
  | asks hact harmed hsame => rw [hsame]
  | ends hact htimer hsource => rw [htimer, Timer.disarm_disarm]
  | idles hpoll hdisarm htimer hsource => rw [htimer]

/-- The jitter and the handle of the timer are never changed. -/
theorem fixed_step (act : Act) :
    (x.step draw act).2.timer.jitter = x.timer.jitter ∧
      (x.step draw act).2.timer.clock = x.timer.clock := by
  have hkept := disarm_step draw (x := x) act
  have hjitter := congrArg Timer.jitter hkept
  have hclock := congrArg Timer.clock hkept
  exact ⟨hjitter, hclock⟩

theorem jitter_after (acts : List Act) : (x.after draw acts).timer.jitter = x.timer.jitter := by
  induction acts generalizing x with
  | nil => rfl
  | cons act rest ih => exact ih.trans (fixed_step draw act).1

/-- An armed timer and its source stay the same under every act but a disarming. -/
theorem step_armed {armed : Armed} (h : x.timer.armed = some armed) {act : Act}
    (hact : act ≠ .disarm) :
    (x.step draw act).2.timer = x.timer ∧ (x.step draw act).2.source = x.source := by
  cases stepped draw (x := x) act with
  | begins _ hdisarmed htimer hsource =>
    rw [h] at hdisarmed
    cases hdisarmed
  | asks _ _ hsame =>
    rw [hsame]
    exact ⟨rfl, rfl⟩
  | ends hends htimer hsource => exact absurd hends hact
  | idles hpoll hdisarm htimer hsource => exact ⟨htimer, hsource⟩

/-- They stay the same until the timer is disarmed. -/
theorem after_armed {armed : Armed} (h : x.timer.armed = some armed) {acts : List Act}
    (hacts : .disarm ∉ acts) :
    (x.after draw acts).timer = x.timer ∧ (x.after draw acts).source = x.source := by
  induction acts generalizing x with
  | nil => exact ⟨rfl, rfl⟩
  | cons act rest ih =>
    rcases step_armed draw h (List.ne_of_not_mem_cons hacts).symm with ⟨htimer, hsource⟩
    rcases ih (htimer ▸ h) (List.not_mem_of_not_mem_cons hacts) with ⟨hlast, hkept⟩
    exact ⟨hlast.trans htimer, hkept.trans hsource⟩

/-- An act begins or ends the wait as its history says. -/
theorem isArmed_step (act : Act) :
    (x.step draw act).2.timer.isArmed = act.waits x.timer.isArmed := by
  cases stepped draw (x := x) act with
  | begins hact hdisarmed htimer hsource =>
    rw [htimer, hact]
    rfl
  | asks hact harmed hsame =>
    rw [hsame, harmed, hact]
    rfl
  | ends hact htimer hsource =>
    rw [htimer, hact]
    rfl
  | idles hpoll hdisarm htimer hsource => rw [htimer, Act.waits_of_ne hpoll hdisarm]

/-- After any acts a wait is in progress if the history says so. -/
theorem isArmed_after (acts : List Act) :
    (x.after draw acts).timer.isArmed = waits x.timer.isArmed acts := by
  induction acts generalizing x with
  | nil => rfl
  | cons act rest ih => exact ih.trans (congrArg (waits · rest) (isArmed_step draw act))

/-! ## Samples -/

/-- Only the first poll of a wait draws a target. -/
theorem source_step (act : Act) :
    (x.step draw act).2.source =
      (fun s => (draw x.timer.jitter s).2)^[if act = .poll ∧ x.timer.isArmed = false then 1 else 0]
        x.source := by
  cases stepped draw (x := x) act with
  | begins hact hdisarmed htimer hsource =>
    rw [if_pos ⟨hact, congrArg Option.isSome hdisarmed⟩]
    exact hsource
  | asks hact harmed hsame =>
    rw [if_neg fun h => Bool.noConfusion (harmed.symm.trans h.2), hsame]
    rfl
  | ends hact htimer hsource =>
    rw [if_neg fun h => Act.noConfusion (hact.symm.trans h.1)]
    exact hsource
  | idles hpoll hdisarm htimer hsource =>
    rw [if_neg fun h => hpoll h.1]
    exact hsource

/-- As many targets are drawn as waits begin. -/
theorem source_after (acts : List Act) :
    (x.after draw acts).source =
      (fun s => (draw x.timer.jitter s).2)^[armings x.timer.isArmed acts] x.source := by
  induction acts generalizing x with
  | nil => rfl
  | cons act rest ih =>
    rw [after, ih, isArmed_step, (fixed_step draw act).1, source_step, ← Function.iterate_add_apply,
      armings, Nat.add_comm]

/-! ## Firing -/

/-- The reading of the timer's clock never decreases. -/
theorem reading_le_step (act : Act) : x.reading ≤ (x.step draw act).2.reading := by
  rw [reading, reading, (fixed_step draw act).2]
  exact (now_le_now_step draw act x.clock_lt).2

theorem reading_le_after (acts : List Act) : x.reading ≤ (x.after draw acts).reading := by
  induction acts generalizing x with
  | nil => exact Nat.le_refl _
  | cons act rest ih => exact Nat.le_trans (reading_le_step draw act) ih

/-- The wait in progress has not begun in the future. -/
def Begun (x : Timing σ) : Prop := ∀ armed, x.timer.armed = some armed → armed.started ≤ x.reading

/-- Every act keeps it so. -/
theorem Begun.step (h : x.Begun) (act : Act) : (x.step draw act).2.Begun := by
  have hlater := reading_le_step draw (x := x) act
  intro armed hstored
  cases stepped draw (x := x) act with
  | begins hact hdisarmed htimer hsource =>
    rw [htimer] at hstored
    cases hstored
    exact hlater
  | asks hact harmed hsame =>
    rw [hsame] at hstored
    exact Nat.le_trans (h armed hstored) hlater
  | ends hact htimer hsource =>
    rw [htimer] at hstored
    cases hstored
  | idles hpoll hdisarm htimer hsource =>
    rw [htimer] at hstored
    exact Nat.le_trans (h armed hstored) hlater

theorem Begun.after (h : x.Begun) (acts : List Act) : (x.after draw acts).Begun := by
  induction acts generalizing x with
  | nil => exact h
  | cons act rest ih => exact ih (h.step draw act)

/-- A poll tells whether the target has passed that is stored after it. -/
theorem Begun.poll (h : x.Begun) :
    ∃ armed, (x.step draw .poll).2.timer.armed = some armed ∧
      (x.step draw .poll).1 =
        .polled (decide (armed.started.nanos + armed.target.nanos ≤ x.reading.nanos)) := by
  cases harmed : x.timer.armed with
  | none =>
    rcases poll_disarmed draw harmed with ⟨hanswer, hstored, -⟩
    refine ⟨_, congrArg Timer.armed hstored,
      hanswer.trans (congrArg Outcome.polled (Armed.hasElapsed_eq ?_))⟩
    exact Nat.le_refl x.reading.nanos
  | some armed =>
    rw [poll_armed draw harmed]
    exact ⟨armed, harmed, congrArg Outcome.polled (Armed.hasElapsed_eq (h armed harmed))⟩

/-- A timer that has fired fires at every later reading of the same wait. -/
theorem Begun.poll_later (h : x.Begun) (hfires : (x.step draw .poll).1 = .polled true)
    {later : Timing σ} (htimer : later.timer = (x.step draw .poll).2.timer)
    (hlater : x.reading ≤ later.reading) : (later.step draw .poll).1 = .polled true := by
  rcases h.poll draw with ⟨armed, hstored, hanswer⟩
  have hpassed : armed.started.nanos + armed.target.nanos ≤ x.reading.nanos := by
    rw [hanswer] at hfires
    exact of_decide_eq_true (Outcome.polled.inj hfires)
  have hstarted : armed.started ≤ later.reading :=
    Nat.le_trans (Nat.le_add_right _ _) (Nat.le_trans hpassed hlater)
  rw [poll_armed draw ((congrArg Timer.armed htimer).trans hstored), Armed.hasElapsed_eq hstarted]
  exact congrArg Outcome.polled (decide_eq_true (Nat.le_trans hpassed hlater))

end

/-- A timer fires exactly when its own target has passed.  A host makes a timer, and then it polls
and disarms it and moves its clocks through any handles, in any order.  Whatever it did:

* no reading through a handle decreases afterwards, and a step past the longest duration is refused
  and changes nothing;
* a wait is in progress if and only if the timer was polled since the last disarming; a poll that
  begins one stores the reading and draws one target, and what is stored, and the source, stay the
  same until the timer is disarmed;
* a poll fires if and only if start and target together, as numbers without a bound, are not after
  the reading; and once it has fired, every poll does until the timer is disarmed;
* as many targets were drawn as waits have begun. -/
theorem fires_on_time (draw : Jitter → σ → Duration × σ) {made : Timing σ}
    (hmade : made.timer.armed = none) (earlier : List Act) :
    let x := made.after draw earlier
    let polled := x.step draw .poll
    x.Steady draw ∧
    x.timer.isArmed = waits false earlier ∧
    (waits false earlier = false →
      polled.2.timer.armed = some ⟨x.reading, (draw made.timer.jitter x.source).1⟩ ∧
        polled.2.source = (draw made.timer.jitter x.source).2) ∧
    (∃ armed, polled.2.timer.armed = some armed ∧
      polled.1 = .polled (decide (armed.started.nanos + armed.target.nanos ≤ x.reading.nanos)) ∧
      ∀ later, .disarm ∉ later →
        let y := polled.2.after draw later
        y.timer.armed = some armed ∧ y.source = polled.2.source ∧
          (polled.1 = .polled true → (y.step draw .poll).1 = .polled true)) ∧
    x.source = (fun s => (draw made.timer.jitter s).2)^[armings false earlier] made.source := by
  intro x polled
  have hwaits : made.timer.isArmed = false := congrArg Option.isSome hmade
  have hbegun : x.Begun := by
    refine Begun.after draw (fun armed harmed => ?_) earlier
    rw [hmade] at harmed
    cases harmed
  have hjitter : x.timer.jitter = made.timer.jitter := jitter_after draw earlier
  have harmed : x.timer.isArmed = waits false earlier := by
    rw [← hwaits]
    exact isArmed_after draw earlier
  refine ⟨x.steady draw, harmed, ?_, ?_, ?_⟩
  · intro hidle
    have hnone : x.timer.armed = none :=
      Option.isNone_iff_eq_none.1 (Option.isSome_eq_false_iff.1 (harmed.trans hidle))
    rcases poll_disarmed draw hnone with ⟨-, hstored, hdrawn⟩
    rw [hjitter] at hstored hdrawn
    exact ⟨congrArg Timer.armed hstored, hdrawn⟩
  · rcases hbegun.poll draw with ⟨armed, hstored, hanswer⟩
    refine ⟨armed, hstored, hanswer, fun later hlater => ?_⟩
    rcases after_armed draw hstored hlater with ⟨htimer, hsource⟩
    have hreading := Nat.le_trans (reading_le_step draw (x := x) .poll)
      (reading_le_after draw later)
    exact ⟨(congrArg Timer.armed htimer).trans hstored, hsource,
      fun hfires => hbegun.poll_later draw hfires htimer hreading⟩
  · rw [← hwaits]
    exact source_after draw earlier

/-- The first wait would end beyond the longest reading, and goes on there.  The second one begins
there, and is over at once.  The clock is moved through another handle than that of the timer, and
not beyond the longest reading. -/
theorem fires_on_time_longest :
    let draw : Jitter → Nat → Duration × Nat := fun jitter drawn =>
      (if drawn = 0 then jitter.base else Duration.zero, drawn + 1)
    let made : Timing Nat :=
      ⟨⟨⟨Duration.max, 0.0⟩, 0, 0, none⟩, Pool.single Clock.start, 0, by decide⟩
    let first := [.share 0, .advance 1 ⟨5, by decide⟩, .poll, .set 1 Duration.max]
    let second := first ++ [.disarm, .poll]
    let x := made.after draw second
    made.timer.armed = none ∧
      ((made.after draw first).step draw .poll).1 = .polled false ∧
      (x.step draw .poll).1 = .polled true ∧ x.source = 2 ∧
      x.step draw (.advance 1 ⟨1, by decide⟩) = (.broken .clockOverflow, x) := by
  intro draw made first second x
  have hmade : made.timer.armed = none := rfl
  rcases fires_on_time draw hmade second with ⟨hsteady, -, -, -, hsource⟩
  have hlongest : maxNanos < (x.now 1).nanos + 1 := by decide +kernel
  exact ⟨hmade, by decide +kernel, by decide +kernel, hsource, hsteady.refused 1 _ hlongest⟩

end Timing

end TickTree
