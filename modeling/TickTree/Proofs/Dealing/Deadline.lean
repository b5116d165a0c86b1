import TickTree.Proofs.Dealing.Chronicle
import TickTree.Proofs.Dealing.Restarts

/-!
# Deadlines over many attempts

A wait for success ticks its child on every tick, and tries it again after a failure, until it
succeeds or the wait has passed.  All attempts of an activation share one deadline: it is drawn at
the first tick of the activation and measured from the reading there.  For a tick the reading at its
beginning counts, whatever time the child takes, and a success counts even when it comes too late.

Main results:

- Theorem `World.poll_since`: an activation keeps what its first poll has stored.
- Theorem `Decorator.exists_awaiting`: where a wait for success stands after a run.
- Theorem `Decorator.deadline_spans_attempts`: what a tick of a wait for success does.
-/

namespace TickTree

variable {κ : Type}

open Dealing (LeadAll)

/-- The status of a wait for success, when the child gives a status and the wait has passed or
not. -/
def Status.awaited (late : Bool) (status : Status) : Status :=
  if status = .success then .success
  else if late then .failure
  else if status = .running then .running
  else .sleeping

/-! ## Timers in an activation -/

/-- What a poll stores that finds a timer disarmed. -/
def Timer.armedAt (timer : Timer) (w : World) : Armed :=
  ⟨w.now timer.clock, (w.sample timer.source timer.jitter).1⟩

/-- A timer that was polled in some worlds since it was disarmed: the first poll has armed it. -/
def Timer.since (timer : Timer) (waits : List World) : Timer :=
  { timer with armed := waits.head?.map timer.armedAt }

/-- One more poll tells whether the target that the first one has drawn has passed, and changes what
is stored only when it is the first one itself. -/
theorem World.poll_since (timer : Timer) (waits : List World) (w : World) :
    let polled := w.poll (timer.since waits)
    polled.1 = (timer.armedAt (waits.headD w)).hasElapsed (w.now timer.clock) ∧
      polled.2.1 = timer.since (waits ++ [w]) := by
  cases waits with
  | nil => exact ⟨rfl, rfl⟩
  | cons first rest => exact ⟨rfl, rfl⟩

/-- After a start that is not in the future, a target has passed when start and target together are
not after now. -/
theorem Armed.hasElapsed_eq {armed : Armed} {now : Duration} (h : armed.started ≤ now) :
    armed.hasElapsed now = decide (armed.started.nanos + armed.target.nanos ≤ now.nanos) := by
  have hstarted : armed.started.nanos ≤ now.nanos := h
  refine decide_eq_decide.2 ?_
  rw [Duration.le_def, Duration.nanos_sub]
  omega

/-- No poll of an activation comes before its first one. -/
theorem World.started_le_now {timer : Timer} {waits : List World} {w : World}
    (h : ∀ u ∈ waits, u.Before timer.clock w) :
    (timer.armedAt (waits.headD w)).started ≤ w.now timer.clock := by
  cases waits with
  | nil => exact World.Before.refl timer.clock w
  | cons first rest => exact h first List.mem_cons_self

namespace Decorator

/-! ## One tick -/

/-- What a tick of a wait for success comes to that has a timer, when the child gives a status and
the wait has passed or not. -/
structure Trial (timer : Timer) (late : Bool) (status : Status)
    (step : Episode × (Decorator × Option κ) × World) : Prop where
  operation : step.1.operation = .tick
  answer : step.1.answer = .ticked (status.awaited late)
  /-- The child is ticked once.  It is reset when it completes, and when the wait ends before it
  does, but not as long as both go on. -/
  dealings : step.1.dealings =
    .prepare (.sleepUntilSuccess timer) :: .tick 0 status :: (Dealing.ending status 1 ++
      if status ≠ .success ∧ late then
        [.report .debug s!"{(sleepUntilSuccess timer).name} timed out", .reset 0]
      else [])

/-- In a trial only the child is ticked. -/
theorem Trial.ticks {timer : Timer} {late : Bool} {status : Status}
    {step : Episode × (Decorator × Option κ) × World} (h : Trial timer late status step) :
    step.1.ticks = [(0, status)] := by
  rw [Episode.ticks, h.dealings]
  simp only [List.filterMap_cons, Dealing.tick?, List.filterMap_append,
    Dealing.filterMap_tick?_ending, List.nil_append]
  split <;> rfl

/-- A child that completes in a trial is reset at once. -/
theorem Trial.restarting {timer : Timer} {late : Bool} {status : Status}
    {step : Episode × (Decorator × Option κ) × World} (h : Trial timer late status step) :
    Dealing.Restarting step.1.dealings := by
  rw [h.dealings, ← List.singleton_append]
  refine .append (.of_no_tick rfl) (.append (.tick status) (.of_no_tick ?_))
  split <;> rfl

/-- What a tick leaves: the timer is disarmed when the activation ends, and then, and after every
attempt, the child is as a reset leaves it. -/
theorem exists_left_tickSleepUntilSuccess (reset : κ → World → κ × World) (timer : Timer)
    (child : Offer κ) (w : World) :
    let polled := w.poll timer
    let t := child.tick polled.2.2
    let left := tickSleepUntilSuccess reset timer child w
    left.status = t.status.awaited polled.1 ∧
      ∃ k, left.state =
          (.sleepUntilSuccess (if left.status.isCompleted then timer.disarm else polled.2.1),
            some k) ∧
        (left.status.isCompleted = true ∨ t.status.isCompleted = true →
          ∃ k' w', k = (reset k' w').1) := by
  have hdisarm : (w.poll timer).2.1.disarm = timer.disarm := timer.disarm_poll _ _ w
  simp only [tickSleepUntilSuccess, ← hdisarm]
  rcases w.poll timer with ⟨late, armed, v⟩
  simp only []
  rcases child.tick v with ⟨status, state, world⟩
  have hopen : ∀ {k : κ}, false = true ∨ false = true → ∃ k' w', k = (reset k' w').1 := by
    intro k hcompleted
    rcases hcompleted with hcompleted | hcompleted <;> cases hcompleted
  cases status with
  | success => exact ⟨rfl, _, rfl, fun _ => ⟨_, _, rfl⟩⟩
  | failure => cases late <;> exact ⟨rfl, _, rfl, fun _ => ⟨_, _, rfl⟩⟩
  | running =>
    cases late with
    | true => exact ⟨rfl, _, rfl, fun _ => ⟨_, _, rfl⟩⟩
    | false => exact ⟨rfl, _, rfl, hopen⟩
  | sleeping =>
    cases late with
    | true => exact ⟨rfl, _, rfl, fun _ => ⟨_, _, rfl⟩⟩
    | false => exact ⟨rfl, _, rfl, hopen⟩

/-- A tick is a trial, and the poll at its beginning tells whether it comes too late. -/
theorem trial_tick (s : Service) (u : Units κ) (name : κ → String) (timer : Timer) (child : κ)
    (w : World) :
    Trial timer (w.poll timer).1 (u.tick child (w.poll timer).2.2).status
      (conduct s u name .tick (.sleepUntilSuccess timer, some child) w) := by
  have hname : (sleepUntilSuccess (w.poll timer).2.1).name = (sleepUntilSuccess timer).name := by
    rw [← name_reset, Decorator.reset, World.poll, Timer.disarm_poll]
    rfl
  have hleft := exists_left_tickSleepUntilSuccess u.reset timer (u.offer child) w
  refine ⟨rfl, congrArg Answer.ticked hleft.1, ?_⟩
  simp only [conduct, dealings, hname]
  cases (u.tick child (w.poll timer).2.2).status <;> cases (w.poll timer).1 <;> rfl

/-! ## Runs -/

/-- Where a wait for success stands after a history, with a timer that was made for it. -/
structure Awaiting (u : Units κ) (timer : Timer) (history : List Occasion)
    (x : Decorator × Option κ) (child : κ) : Prop where
  /-- What its timer has stored is a matter of the first tick of the activation. -/
  state : x = (.sleepUntilSuccess (timer.since (Occasion.waits history)), some child)
  /-- A child that completes is reset at once. -/
  restarting : Dealing.Restarting ((history.map Occasion.episode).flatMap Episode.dealings)
  /-- Then it is as a reset left it. -/
  renewed : ∀ position status,
    ((history.map Occasion.episode).flatMap Episode.ticks).getLast? = some (position, status) →
    status.isCompleted = true → ∃ k w, child = (u.reset k w).1

section

variable {s : Service} {u : Units κ} {timer : Timer} {history : List Occasion}
  {x : Decorator × Option κ} {child : κ}

/-- One more tick. -/
theorem Awaiting.tick (h : Awaiting u timer history x child) (name : κ → String) (w : World) :
    let step := conduct s u name .tick x w
    ∃ left, Awaiting u timer (history ++ [⟨step.1, w⟩]) step.2.1 left := by
  rcases h.state with rfl
  let waiting := timer.since (Occasion.waits history)
  have htrial := trial_tick s u name waiting child w
  have hpoll : (w.poll waiting).2.1 = timer.since (Occasion.waits history ++ [w]) :=
    (World.poll_since timer (Occasion.waits history) w).2
  rcases exists_left_tickSleepUntilSuccess u.reset waiting (u.offer child) w with
    ⟨-, left, hleft, hreset⟩
  refine ⟨left, hleft.trans ?_, ?_, ?_⟩
  · rw [hpoll, Occasion.waits_tick history rfl]
    refine congrArg (fun timer => (sleepUntilSuccess timer, some left)) ?_
    exact (apply_ite timer.since _ [] _).symm
  · rw [Occasion.flatMap_episodes_concat]
    exact h.restarting.append htrial.restarting
  · intro position status hlast hcompleted
    rw [Occasion.flatMap_episodes_concat, htrial.ticks, List.getLast?_concat] at hlast
    cases hlast
    exact hreset (.inr hcompleted)

/-- One more operation that is not a tick. -/
theorem Awaiting.quiet (h : Awaiting u timer history x child) {o : Occasion}
    {y : Decorator × Option κ} {left : κ}
    (hy : y = (.sleepUntilSuccess (timer.since (Occasion.waits (history ++ [o]))), some left))
    (hticks : o.episode.ticks = []) (hleft : left = child ∨ ∃ k w, left = (u.reset k w).1) :
    Awaiting u timer (history ++ [o]) y left := by
  refine ⟨hy, ?_, ?_⟩
  · rw [Occasion.flatMap_episodes_concat]
    exact h.restarting.append (.of_no_tick hticks)
  · intro position status hlast hcompleted
    rcases hleft with rfl | hreset
    · rw [Occasion.flatMap_episodes_concat, hticks, List.append_nil] at hlast
      exact h.renewed position status hlast hcompleted
    · exact hreset

/-- Starting and finishing change nothing. -/
theorem Awaiting.idle (h : Awaiting u timer history x child) {operation : Operation}
    (htick : operation ≠ .tick) (hreset : operation ≠ .reset) (w : World) :
    Awaiting u timer (history ++ [⟨⟨operation, .done, []⟩, w⟩]) x child := by
  refine h.quiet ?_ rfl (.inl rfl)
  rw [Occasion.waits_idle history htick hreset]
  exact h.state

/-- In every run a wait for success stands where its history says. -/
theorem exists_awaiting (name : κ → String) (clock : ClockId) (hdisarmed : timer.armed = none)
    (k : κ) {v : World}
    (h : (conduct s u name).Chronicle clock (.sleepUntilSuccess timer, some k) history x v) :
    ∃ child, Awaiting u timer history x child := by
  induction h with
  | begins v =>
    refine ⟨k, ?_, .of_no_tick rfl, ?_⟩
    · rcases timer with ⟨jitter, clock, source, armed⟩
      cases hdisarmed
      rfl
    · intro position status hlast
      cases hlast
  | @next history x v _ operation w _ ih =>
    rcases ih with ⟨child, h⟩
    cases operation with
    | tick => exact h.tick name w
    | reset =>
      rcases h.state with rfl
      refine ⟨(u.reset child w).1, h.quiet ?_ rfl (.inr ⟨_, _, rfl⟩)⟩
      rw [Occasion.waits_concat]
      rfl
    | start => exact ⟨child, h.idle (by decide) (by decide) w⟩
    | finish => exact ⟨child, h.idle (by decide) (by decide) w⟩

/-- A wait for success keeps one deadline over all attempts.  In every run in which the clock does
not go back, the timer holds what the first tick of the activation has stored, whatever the child
does; a tick that comes first stores it.  Each tick is a trial of the child, and it comes too late
when the target has passed at its beginning.  The child is reset between a completion and its next
tick, and it is then as a reset left it. -/
theorem deadline_spans_attempts {config : Config} (hs : s.Forward config.clock)
    (hu : u.Forward config.clock) (name : κ → String) (wait : Duration) (k : κ) {v w : World}
    (h : (conduct s u name).Chronicle config.clock (awaited wait config, some k) history x v)
    (hw : v.Before config.clock w) :
    let timer := Timer.new wait config
    let waiting := timer.since (Occasion.waits history)
    let begun := timer.armedAt ((Occasion.waits history).headD w)
    let late := decide (begun.started.nanos + begun.target.nanos ≤ (w.now config.clock).nanos)
    let step := conduct s u name .tick x w
    let after := history ++ [⟨step.1, w⟩]
    ∃ child left, x = (.sleepUntilSuccess waiting, some child) ∧
      step.2.1 = (.sleepUntilSuccess (timer.since (Occasion.waits after)), some left) ∧
      Trial waiting late (u.tick child (w.poll waiting).2.2).status step ∧
      LeadAll s u step.1.dealings ([child], w) ([left], step.2.2) ∧
      Dealing.ResetBetween ((after.map Occasion.episode).flatMap Episode.dealings) ∧
      ∀ position status,
        ((history.map Occasion.episode).flatMap Episode.ticks).getLast? = some (position, status) →
        status.isCompleted = true → ∃ k' w', child = (u.reset k' w').1 := by
  intro timer waiting begun late step after
  rcases exists_awaiting name config.clock rfl k h with ⟨child, hawaiting⟩
  have hstate : x = (.sleepUntilSuccess waiting, some child) := hawaiting.state
  have hnext : ∃ left, Awaiting u timer after step.2.1 left := hawaiting.tick name w
  rcases hnext with ⟨left, hleft⟩
  have hpast : ∀ u ∈ Occasion.waits history, u.Before config.clock w :=
    fun u hmem => (h.before_of_mem_waits (forward_conduct hs hu name) u hmem).trans hw
  have hlate : (w.poll waiting).1 = late :=
    (World.poll_since timer (Occasion.waits history) w).1.trans
      (Armed.hasElapsed_eq (World.started_le_now hpast))
  have htrial := trial_tick s u name waiting child w
  rw [hlate, ← hstate] at htrial
  have hdealings : LeadAll s u step.1.dealings ([child], w) (step.2.1.2.toList, step.2.2) :=
    leadAll_conduct_child name .tick hstate w
  rw [hleft.state] at hdealings
  exact ⟨child, left, hstate, hleft.state, htrial, hdealings, hleft.restarting.resetBetween,
    hawaiting.renewed⟩

end

/-- A child that fails, and that succeeds when it has been reset.  It is reset after the first tick,
so the second one succeeds, even at the longest reading, where every deadline has passed. -/
theorem deadline_spans_attempts_late :
    let s := serve (plantFrom #[]) 1
    let u : Units Status := ⟨fun k w => ⟨k, k, w⟩, fun _ w => (.success, w)⟩
    let config := Config.standard
    let made := (awaited ⟨nanosPerSecond, by decide⟩ config, some Status.failure)
    let w := World.start (.empty .start) (.empty (.seeded 0))
    let c := conduct s u Status.text
    let first := c .tick made w
    let later := first.2.2.setClock config.clock Duration.max
    first.2.2.Before config.clock later ∧ first.1.ticks = [(0, .failure)] ∧
      (c .tick first.2.1 later).1.answer = .ticked .success := by
  intro s u config made w c first later
  have hs : s.Forward config.clock := serve_forward #[] 1 _
  have hu : u.Forward config.clock := ⟨fun _ w => .refl _ w, fun _ w => .refl _ w⟩
  have hlater : first.2.2.Before config.clock later := World.now_le_now_setClock _ _ _ _
  have hticks : first.1.ticks = [(0, .failure)] := (trial_tick s u Status.text _ .failure w).ticks
  have hnext : c.Chronicle config.clock made [⟨first.1, w⟩] first.2.1 first.2.2 :=
    .next (.begins w) .tick (.refl _ w)
  rcases deadline_spans_attempts hs hu Status.text _ _ hnext hlater with
    ⟨child, -, -, -, htrial, -, -, hrenewed⟩
  have hchild : ∃ k' w', child = (u.reset k' w').1 := by
    refine hrenewed 0 .failure ?_ rfl
    simp only [List.map_singleton, List.flatMap_singleton, hticks, List.getLast?_singleton]
  rcases hchild with ⟨_, _, rfl⟩
  exact ⟨hlater, hticks, htrial.answer⟩

end Decorator

end TickTree
