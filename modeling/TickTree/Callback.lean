import TickTree.Config
import TickTree.Duration
import TickTree.Fault
import TickTree.Status

/-!
# Callbacks

What a tree asks of its host while it runs.  A callback answers its calls one after the other; an
answer may come with effects, which are carried out before the answer is used.  How many calls a
callback has had is kept in the world, at the callback's seat, so that a node holds no record of
the answers it was given and resetting it rewinds none of them.

Main results:

- Theorem `Callback.effects_map` and `Callback.value_map`: mapping a callback changes its answers
  and keeps its effects.
-/

namespace TickTree

/-! ## Requests to shared trees -/

/-- The number of a shared tree in a world. -/
abbrev TreeId := Nat

/-- The number of a plan by which new trees are made. -/
abbrev PlanId := Nat

/-- What can be asked of a node: to be ticked, to return to its first state, and to take note that
it becomes or stops being the active target of a dynamic sub-tree. -/
inductive Operation where
  | tick
  | reset
  | start
  | finish
  deriving DecidableEq

/-- The written form of an operation. -/
def Operation.text : Operation → String
  | tick => "tick"
  | reset => "reset"
  | start => "start"
  | finish => "end"

/-- The severity of a log record. -/
inductive Level where
  | trace
  | debug
  | info
  | warn
  | error
  deriving DecidableEq

/-- The written form of a level. -/
def Level.text : Level → String
  | trace => "TRACE"
  | debug => "DEBUG"
  | info => "INFO"
  | warn => "WARN"
  | error => "ERROR"

/-- The name of a leaf that writes records of a level. -/
def Level.leafName : Level → String
  | trace => "LogTrace"
  | debug => "LogDebug"
  | info => "LogInfo"
  | warn => "LogWarn"
  | error => "LogError"

/-! ## Callbacks -/

/-- What a callback does besides answering. -/
inductive Effect where
  /-- Moves a clock forward by a step. -/
  | advance (clock : ClockId) (step : Duration)
  /-- Moves a clock to a later reading. -/
  | set (clock : ClockId) (reading : Duration)
  /-- Asks an operation of the shared tree that has a name at the time of the call. -/
  | ask (operation : Operation) (tree : String)
  /-- Writes a log record. -/
  | log (level : Level) (message : String)
  /-- Breaks off with a fault. -/
  | fail (fault : Fault)

/-- An answer and the effects that precede it. -/
structure Reply (α : Type) where
  effects : List Effect
  value : α

/-- A function of the host.  Its answer to a call depends on how many calls came before. -/
structure Callback (α : Type) where
  seat : Nat
  label : String
  reply : Nat → Reply α

namespace Callback

variable {α β : Type}

/-- Answers through a function. -/
def map (f : α → β) (c : Callback α) : Callback β :=
  { seat := c.seat
    label := c.label
    reply := fun n => ⟨(c.reply n).effects, f (c.reply n).value⟩ }

/-- Keeps the number of calls at another seat. -/
def atSeat (seat : Nat) (c : Callback α) : Callback α := { c with seat := seat }

/-- Mapping a callback keeps its effects. -/
@[simp] theorem effects_map (f : α → β) (c : Callback α) (n : Nat) :
    ((c.map f).reply n).effects = (c.reply n).effects := rfl

/-- Mapping a callback maps its answers. -/
@[simp] theorem value_map (f : α → β) (c : Callback α) (n : Nat) :
    ((c.map f).reply n).value = f (c.reply n).value := rfl

end Callback

/-- Where a value comes from: it is fixed, or a callback gives it anew each time. -/
inductive Supplier (α : Type) where
  | constant (value : α)
  | scripted (callback : Callback α)

namespace Supplier

variable {α β : Type}

/-- Supplies through a function. -/
def map (f : α → β) : Supplier α → Supplier β
  | constant value => constant (f value)
  | scripted callback => scripted (callback.map f)

/-- Keeps the number of calls at another seat. -/
def atSeat (seat : Nat) : Supplier α → Supplier α
  | constant value => constant value
  | scripted callback => scripted (callback.atSeat seat)

/-- A value that a supplier may give. -/
def Gives (value : α) : Supplier α → Prop
  | constant given => given = value
  | scripted callback => ∃ n, (callback.reply n).value = value

/-- The seat of the callback behind a supplier. -/
def seat? : Supplier α → Option Nat
  | constant _ => none
  | scripted callback => some callback.seat

/-- The seats of the callbacks behind a supplier. -/
def seats (s : Supplier α) : List Nat := s.seat?.toList

end Supplier

/-! ## Answers of leaf callbacks -/

/-- An error of a leaf callback: a cause, and the contexts that were added to it, the first one
first. -/
structure Failure where
  cause : String
  contexts : List String
  deriving DecidableEq

/-- The outermost context first and the cause last. -/
def Failure.describe (f : Failure) : String :=
  ": ".intercalate (f.contexts.reverse ++ [f.cause])

/-- Where a tree supplier's tree comes from. -/
inductive Supply where
  /-- One tree, whatever its name. -/
  | existing (tree : TreeId)
  /-- The tree that has a name at the time of the call. -/
  | named (name : String)
  /-- A new tree, made by a plan. -/
  | fresh (plan : PlanId)
  deriving DecidableEq

end TickTree
