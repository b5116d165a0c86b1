import TickTree.Callback
import TickTree.Timer

/-!
# Leaves

The nodes without children: actions and conditions, which ask the host, the three waiting leaves,
and three leaves for observing a tree.

Main results:

- Theorem `Leaf.reset_reset`: resetting a leaf twice is resetting it once.
-/

namespace TickTree

/-- The state of waiting for an unbroken idle streak: the required streak, the longest wait, the
reading at the first tick of the activation, and the reading at which the streak began. -/
structure IdleWatch where
  idleFor : Duration
  timeout : Duration
  clock : ClockId
  started : Option Duration
  idleSince : Option Duration

namespace IdleWatch

/-- A watch that has not begun. -/
def new (idleFor timeout : Duration) (config : Config) : IdleWatch :=
  ⟨idleFor, timeout, config.clock, none, none⟩

/-- Forgets the activation. -/
def reset (w : IdleWatch) : IdleWatch := { w with started := none, idleSince := none }

end IdleWatch

/-- A node without children. -/
inductive Leaf where
  /-- Reports the status that the host computes; an error counts as failure. -/
  | action (name : String) (body : Supplier (Except Failure Status))
  /-- Succeeds when a predicate holds and fails when it does not or gives an error. -/
  | condition (name : String) (test : Supplier (Except Failure Bool))
  /-- Sleeps until a wait has passed. -/
  | sleep (timer : Timer)
  /-- Sleeps until a predicate holds, at most for a wait. -/
  | sleepUntil (timer : Timer) (test : Supplier Bool)
  /-- Sleeps until a predicate has held for a while; an optional second predicate cuts the wait
  short. -/
  | sleepUntilIdle (watch : IdleWatch) (test : Supplier Bool) (bypass : Option (Supplier Bool))
  /-- Reports scripted statuses and records that it was ticked; a probe with `hooks` records every
  other operation too. -/
  | probe (name : String) (script : Callback Status) (hooks : Bool)
  /-- Runs for a number of ticks and then succeeds; a reset begins the count anew. -/
  | countdown (name : String) (count remaining : Nat)

namespace Leaf

/-! ## Making leaves -/

/-- An action of which the host gives the status and never an error. -/
def infallible (name : String) (body : Callback Status) : Leaf :=
  action name (.scripted (body.map .ok))

/-- A condition of which the host gives the truth value and never an error. -/
def predicate (name : String) (test : Callback Bool) : Leaf :=
  condition name (.scripted (test.map .ok))

/-- Always reports one status. -/
def fixed (name : String) (status : Status) : Leaf := action name (.constant (.ok status))

/-- Calls the host and then reports one status. -/
def fixedAfter (name : String) (status : Status) (before : Callback Unit) : Leaf :=
  infallible name (before.map fun _ => status)

/-- Writes what the host says to the log and succeeds. -/
def logging (level : Level) (message : Callback String) : Leaf :=
  let said (n : Nat) : Reply Status :=
    ⟨(message.reply n).effects ++ [.log level (message.reply n).value], .success⟩
  infallible level.leafName { seat := message.seat, label := message.label, reply := said }

/-! ## Names and states -/

/-- The name of a leaf; waiting leaves are named for their waits. -/
def name : Leaf → String
  | action name _ => name
  | condition name _ => name
  | sleep timer => s!"Sleep({timer.base.millis}ms)"
  | sleepUntil timer _ => s!"SleepUntil({timer.base.millis}ms)"
  | sleepUntilIdle watch _ _ =>
    s!"SleepUntilIdle({watch.idleFor.millis}ms, timeout={watch.timeout.millis}ms)"
  | probe name _ _ => name
  | countdown name _ _ => name

/-- The first state of a leaf. -/
def reset : Leaf → Leaf
  | action name body => action name body
  | condition name test => condition name test
  | sleep timer => sleep timer.disarm
  | sleepUntil timer test => sleepUntil timer.disarm test
  | sleepUntilIdle watch test bypass => sleepUntilIdle watch.reset test bypass
  | probe name script hooks => probe name script hooks
  | countdown name count _ => countdown name count count

/-- Uses the clock, the source and the spread of a configuration. -/
def withConfig (config : Config) : Leaf → Leaf
  | sleep timer => sleep (timer.withConfig config)
  | sleepUntil timer test => sleepUntil (timer.withConfig config) test
  | sleepUntilIdle watch test bypass =>
    sleepUntilIdle { watch with clock := config.clock } test bypass
  | leaf => leaf

/-- Keeps the numbers of calls at the given seat and the one after it; a bypass comes before the
idle predicate. -/
def atSeat (seat : Nat) : Leaf → Leaf
  | action name body => action name (body.atSeat seat)
  | condition name test => condition name (test.atSeat seat)
  | sleep timer => sleep timer
  | sleepUntil timer test => sleepUntil timer (test.atSeat seat)
  | sleepUntilIdle watch test bypass =>
    sleepUntilIdle watch (test.atSeat (seat + 1)) (bypass.map (Supplier.atSeat seat))
  | probe name script hooks => probe name (script.atSeat seat) hooks
  | countdown name count remaining => countdown name count remaining

/-- The seats of the callbacks of a leaf, in the order in which they may be called. -/
def seats : Leaf → List Nat
  | action _ body => body.seats
  | condition _ test => test.seats
  | sleep _ => []
  | sleepUntil _ test => test.seats
  | sleepUntilIdle _ test bypass => (bypass.map Supplier.seats).getD [] ++ test.seats
  | probe _ script _ => [script.seat]
  | countdown _ _ _ => []

/-- Resetting a leaf twice is resetting it once. -/
@[simp] theorem reset_reset (l : Leaf) : l.reset.reset = l.reset := by
  cases l <;> rfl

/-- A reset keeps the name. -/
@[simp] theorem name_reset (l : Leaf) : l.reset.name = l.name := by
  cases l <;> rfl

end Leaf

end TickTree
