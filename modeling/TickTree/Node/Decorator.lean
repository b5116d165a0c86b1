import TickTree.Callback
import TickTree.Timer

/-!
# Decorators

The nodes around a single child, without the child.

Main results:

- Theorem `Decorator.reset_reset`: resetting a decorator twice is resetting it once.
-/

namespace TickTree

/-- The part of ticks on which a success rate lets its child run, at most 1.  A percentage that is
not a number counts as none. -/
def chance (percentage : Float32) : Float :=
  let p := percentage.toFloat
  let clamped := if p.isNaN then 0.0 else if p < 0.0 then 0.0 else if 100.0 < p then 100.0 else p
  clamped / 100.0

/-- A node around one child, without the child. -/
inductive Decorator where
  /-- Exchanges success and failure. -/
  | inverter
  /-- Runs the child until it has succeeded `limit` times; a negative limit is none. -/
  | repetition (limit count : Int32)
  /-- Runs the child until it has failed `limit` times; a limit that is not positive is none. -/
  | retry (limit count : Int32)
  /-- Keeps the child from running for a while after it completed; `last` is the reading at its
  latest completion. -/
  | cooldown (clock : ClockId) (period : Supplier Duration) (last : Option Duration)
  /-- Lets the child run on a part of the ticks only. -/
  | successRate (source : SourceId) (percentage : Supplier Float32)
  /-- Runs the child until it succeeds, at most for a wait. -/
  | sleepUntilSuccess (timer : Timer)

namespace Decorator

/-! ## Making decorators -/

/-- Repeats the child until it has succeeded so many times. -/
def repeated (times : Int32) : Decorator := repetition times 0

/-- Repeats the child without end. -/
def repeatedForever : Decorator := repeated (-1)

/-- Tries the child so many times. -/
def retried (attempts : Int32) : Decorator := retry attempts 0

/-- Tries the child without end. -/
def retriedForever : Decorator := retried (-1)

/-- Keeps the child from running for a while after it completed. -/
def cooled (period : Supplier Duration) (config : Config) : Decorator :=
  cooldown config.clock period none

/-- Lets the child run on a percentage of the ticks. -/
def rated (percentage : Supplier Float32) (config : Config) : Decorator :=
  successRate config.source percentage

/-- Runs the child until it succeeds, at most for a wait. -/
def awaited (wait : Duration) (config : Config) : Decorator := sleepUntilSuccess (.new wait config)

/-! ## Names and states -/

/-- The name of a decorator. -/
def name : Decorator → String
  | inverter => "Inverter"
  | repetition _ _ => "Repeat"
  | retry _ _ => "Retry"
  | cooldown _ _ _ => "Cooldown"
  | successRate _ _ => "SuccessRate"
  | sleepUntilSuccess timer => s!"SleepUntilSuccess({timer.base.millis}ms)"

/-- The first state of a decorator. -/
def reset : Decorator → Decorator
  | inverter => inverter
  | repetition limit _ => repetition limit 0
  | retry limit _ => retry limit 0
  | cooldown clock period _ => cooldown clock period none
  | successRate source percentage => successRate source percentage
  | sleepUntilSuccess timer => sleepUntilSuccess timer.disarm

/-- Uses the clock, the source and the spread of a configuration. -/
def withConfig (config : Config) : Decorator → Decorator
  | cooldown _ period last => cooldown config.clock period last
  | successRate _ percentage => successRate config.source percentage
  | sleepUntilSuccess timer => sleepUntilSuccess (timer.withConfig config)
  | decorator => decorator

/-- Keeps the number of calls of the supplier at the given seat. -/
def atSeat (seat : Nat) : Decorator → Decorator
  | cooldown clock period last => cooldown clock (period.atSeat seat) last
  | successRate source percentage => successRate source (percentage.atSeat seat)
  | decorator => decorator

/-- The seats of the callbacks of a decorator. -/
def seats : Decorator → List Nat
  | cooldown _ period _ => period.seats
  | successRate _ percentage => percentage.seats
  | _ => []

/-- Resetting a decorator twice is resetting it once. -/
@[simp] theorem reset_reset (d : Decorator) : d.reset.reset = d.reset := by
  cases d <;> rfl

/-- A reset keeps the name. -/
@[simp] theorem name_reset (d : Decorator) : d.reset.name = d.name := by
  cases d <;> rfl

end Decorator

end TickTree
