/-!
# Node statuses and parallel policies

What a node reports when it is ticked, the written form of a status, and the two rules by
which a parallel node counts its children.

Main results:

- Theorem `Status.ofText?_text`: reading the written form of a status gives that status.
- Theorem `Status.invert_invert`: exchanging success and failure twice changes nothing.
-/

namespace TickTree

/-! ## Statuses -/

/-- The result of one tick.  Success and failure end an activation; a running node can make
progress at once, and a sleeping node waits for time or for an outside condition. -/
inductive Status where
  | success
  | failure
  | running
  | sleeping
  deriving DecidableEq, Inhabited

namespace Status

/-- The status ends the current activation. -/
def isCompleted : Status → Bool
  | success | failure => true
  | running | sleeping => false

/-- The status leaves the current activation open. -/
def isPending : Status → Bool
  | success | failure => false
  | running | sleeping => true

/-- Exchanges success and failure and keeps the pending statuses. -/
def invert : Status → Status
  | success => failure
  | failure => success
  | running => running
  | sleeping => sleeping

/-- The written form of a status. -/
def text : Status → String
  | success => "SUCCESS"
  | failure => "FAILURE"
  | running => "RUNNING"
  | sleeping => "SLEEPING"

/-- A text that is not the written form of any status. -/
inductive ParseError where
  | noMatch (text : String)
  deriving DecidableEq

/-- The wording of a reading error quotes the text as it was given. -/
def ParseError.message : ParseError → String
  | noMatch text => s!"string [{text}] didn't match any NodeStatus values"

/-- Reads a status from its written form; the case of ASCII letters does not matter. -/
def ofText? (text : String) : Except ParseError Status :=
  match text.toUpper with
  | "SUCCESS" => .ok success
  | "FAILURE" => .ok failure
  | "RUNNING" => .ok running
  | "SLEEPING" => .ok sleeping
  | _ => .error (.noMatch text)

/-- A status is either completed or pending. -/
theorem isPending_eq_not_isCompleted (s : Status) : s.isPending = !s.isCompleted := by
  cases s <;> rfl

/-- Exchanging success and failure twice changes nothing. -/
@[simp] theorem invert_invert (s : Status) : s.invert.invert = s := by
  cases s <;> rfl

/-- Exchanging success and failure keeps an activation ended or open. -/
@[simp] theorem isCompleted_invert (s : Status) : s.invert.isCompleted = s.isCompleted := by
  cases s <;> rfl

end Status

/-! ## Parallel policies -/

/-- How many children of a parallel node have to agree before it reports a terminal status. -/
inductive Policy where
  | requireOne
  | requireAll
  deriving DecidableEq, Inhabited

namespace Policy

/-- The policy holds of `count` agreeing children out of `total`. -/
def isMet (policy : Policy) (count total : Nat) : Bool :=
  match policy with
  | requireOne => decide (1 ≤ count)
  | requireAll => decide (count = total)

/-- The written form of a policy. -/
def text : Policy → String
  | requireOne => "REQUIRE_ONE"
  | requireAll => "REQUIRE_ALL"

end Policy

end TickTree
