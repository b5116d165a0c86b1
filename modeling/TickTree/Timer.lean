import TickTree.Config
import TickTree.Duration.Seconds

/-!
# Timers with jittered targets

A wait is stretched or shrunk by a normally distributed factor, so that many trees started together
do not act in step.  A timer draws its target when it is first polled and keeps it until it is
disarmed.

The drawing of numbers is a parameter of `Jitter.sample` and of `Timer.poll`: both thread a state
of any type through the draw.

Main results:

- Theorem `Timer.poll_armed`: an armed timer draws nothing and changes nothing.
- Theorem `Timer.poll_disarmed`: a disarmed timer stores the reading and draws one target.
-/

namespace TickTree

/-! ## Jitter -/

/-- A wait and its relative spread. -/
structure Jitter where
  base : Duration
  spread : Float

namespace Jitter

/-- A wait never shrinks below this part of its base. -/
def leastFactor : Float := 0.1

/-- The wait is taken as it is: its spread is not a finite positive number. -/
def isExact (j : Jitter) : Bool := !j.spread.isFinite || decide (j.spread ≤ 0.0)

/-- The factor that a normally distributed number gives. -/
def factor (j : Jitter) (gaussian : Float) : Float :=
  let raw := 1.0 + gaussian * j.spread
  if leastFactor ≤ raw then raw else leastFactor

/-- The stretched wait; a wait beyond all durations is the longest one. -/
def stretch (j : Jitter) (gaussian : Float) : Duration :=
  (Duration.ofSeconds? (j.base.toSeconds * j.factor gaussian)).getD Duration.max

/-- Draws a target.  An exact wait needs no draw. -/
def sample {σ : Type} (gaussian : σ → Float × σ) (j : Jitter) (s : σ) : Duration × σ :=
  if j.isExact then (j.base, s)
  else (j.stretch (gaussian s).1, (gaussian s).2)

/-- Draws so many targets, one after the other. -/
def samples {σ : Type} (gaussian : σ → Float × σ) (j : Jitter) :
    (count : Nat) → σ → List Duration × σ
  | 0, s => ([], s)
  | count + 1, s =>
    let first := j.sample gaussian s
    let rest := samples gaussian j count first.2
    (first.1 :: rest.1, rest.2)

end Jitter

/-! ## Timers -/

/-- The start and the target of a wait in progress. -/
structure Armed where
  started : Duration
  target : Duration
  deriving DecidableEq

/-- The target has passed at a clock reading. -/
def Armed.hasElapsed (a : Armed) (now : Duration) : Bool := decide (a.target ≤ now - a.started)

/-- A timer that is armed by its first poll. -/
structure Timer where
  jitter : Jitter
  clock : ClockId
  source : SourceId
  armed : Option Armed

namespace Timer

/-- A disarmed timer for a wait. -/
def new (base : Duration) (config : Config) : Timer :=
  ⟨⟨base, config.spread⟩, config.clock, config.source, none⟩

/-- The wait of a timer before any stretching. -/
def base (t : Timer) : Duration := t.jitter.base

/-- Ends the wait in progress. -/
def disarm (t : Timer) : Timer := { t with armed := none }

/-- A wait is in progress. -/
def isArmed (t : Timer) : Bool := t.armed.isSome

/-- The target of the wait in progress. -/
def target (t : Timer) : Option Duration := t.armed.map Armed.target

/-- Uses the clock, the source and the spread of a configuration. -/
def withConfig (config : Config) (t : Timer) : Timer :=
  { t with
    jitter := { t.jitter with spread := config.spread }
    clock := config.clock
    source := config.source }

/-- Arms the timer if it is not armed, and tells whether its target has passed. -/
def poll {σ : Type} (now : Duration) (draw : Jitter → σ → Duration × σ) (t : Timer) (s : σ) :
    Bool × Timer × σ :=
  match t.armed with
  | some armed => (armed.hasElapsed now, t, s)
  | none =>
    let (target, s) := draw t.jitter s
    let armed : Armed := ⟨now, target⟩
    (armed.hasElapsed now, { t with armed := some armed }, s)

@[simp] theorem armed_disarm (t : Timer) : t.disarm.armed = none := rfl

@[simp] theorem disarm_disarm (t : Timer) : t.disarm.disarm = t.disarm := rfl

@[simp] theorem target_disarm (t : Timer) : t.disarm.target = none := rfl

/-- An armed timer draws nothing and changes nothing. -/
theorem poll_armed {σ : Type} (now : Duration) (draw : Jitter → σ → Duration × σ) {t : Timer}
    {armed : Armed} (h : t.armed = some armed) (s : σ) :
    t.poll now draw s = (armed.hasElapsed now, t, s) := by
  simp [poll, h]

/-- A disarmed timer stores the reading and draws one target. -/
theorem poll_disarmed {σ : Type} (now : Duration) (draw : Jitter → σ → Duration × σ) {t : Timer}
    (h : t.armed = none) (s : σ) :
    t.poll now draw s =
      (Armed.hasElapsed ⟨now, (draw t.jitter s).1⟩ now,
        { t with armed := some ⟨now, (draw t.jitter s).1⟩ }, (draw t.jitter s).2) := by
  simp [poll, h]

/-- Polling changes nothing that disarming keeps. -/
@[simp] theorem disarm_poll {σ : Type} (now : Duration) (draw : Jitter → σ → Duration × σ)
    (t : Timer) (s : σ) : (t.poll now draw s).2.1.disarm = t.disarm := by
  unfold poll
  split <;> rfl

end Timer

end TickTree
