import TickTree.Quoted
import TickTree.World

/-!
# Descriptions

The written form of nodes, timers and configurations for diagnosis.  Generators and addresses have
no written form of their own.

Main results:

- Definitions `Node.describe?` and `Config.describe`.
-/

namespace TickTree

/-! ## Durations -/

/-- Drops the zeros at the end. -/
def dropZeros (digits : List Char) : List Char :=
  (digits.reverse.dropWhile (· = '0')).reverse

/-- The digits of a number, filled up with zeros on the left to a width. -/
def padded (width n : Nat) : List Char :=
  let digits := (Nat.repr n).toList
  List.replicate (width - digits.length) '0' ++ digits

/-- A number of parts of 10^places as whole units and the fraction that is not zero. -/
def inUnits (parts places : Nat) : String :=
  let whole := Nat.repr (parts / Nat.pow 10 places)
  match dropZeros (padded places (parts % Nat.pow 10 places)) with
  | [] => whole
  | fraction => whole ++ "." ++ String.ofList fraction

/-- A duration in the largest unit of which it has a whole part. -/
def Duration.describe (d : Duration) : String :=
  if nanosPerSecond ≤ d.nanos then inUnits d.nanos 9 ++ "s"
  else if nanosPerMilli ≤ d.nanos then inUnits d.nanos 6 ++ "ms"
  else if 1000 ≤ d.nanos then inUnits d.nanos 3 ++ "µs"
  else inUnits d.nanos 0 ++ "ns"

/-! ## Structures -/

/-- An optional value. -/
def describeOption {α : Type} (describe : α → String) : Option α → String
  | none => "None"
  | some a => "Some(" ++ describe a ++ ")"

/-- A structure with its fields; one that hides fields says so at the end. -/
def describeStruct (name : String) (fields : List (String × String)) (hides : Bool) : String :=
  let shown := fields.map fun field => field.1 ++ ": " ++ field.2
  let all := if hides then shown ++ [".."] else shown
  name ++ " \x7b " ++ ", ".intercalate all ++ " \x7d"

/-- A clock with its reading. -/
def Clock.describe (c : Clock) : String :=
  describeStruct "ManualClock" [("now", describeStruct "Cell" [("value", c.now.describe)] false)]
    false

/-- A random source; its generator has no written form. -/
def Source.describe (_ : Source) : String :=
  describeStruct "RandomSource"
    [("rng", describeStruct "RefCell" [("value", "StdRng(..)")] false)] false

/-- A wait with its spread. -/
def Jitter.describe (j : Jitter) : String :=
  describeStruct "Jitter"
    [("base", j.base.describe), ("spread", Layout.exact.render j.spread)] false

/-- A wait in progress. -/
def Armed.describe (a : Armed) : String :=
  describeStruct "Armed" [("started", a.started.describe), ("target", a.target.describe)] false

/-- A timer with its clock and its source. -/
def Timer.describe (w : World) (t : Timer) : String :=
  describeStruct "JitteredTimer"
    [("jitter", t.jitter.describe),
      ("clock", (w.clocks.get t.clock).describe),
      ("random", (w.sources.get t.source).describe),
      ("armed", describeOption Armed.describe t.armed)] false

/-- A configuration with its clock; its source is hidden. -/
def Config.describe (w : World) (c : Config) : String :=
  describeStruct "NodeConfig"
    [("clock", (w.clocks.get c.clock).describe),
      ("jitter_spread", Layout.exact.render c.spread)] true

/-! ## Nodes and trees -/

/-- A handle on a shared tree, without its address. -/
def describeHandle (_ : TreeId) : String := describeStruct "SharedTree" [("ptr", "*")] false

/-- A leaf, if its kind has a written form. -/
def Leaf.describe? (w : World) (part : Leaf) : Option String :=
  let name := ("name", Quoted.encode part.name)
  match part with
  | .action _ _ => some (describeStruct "ActionNode" [name] false)
  | .condition _ _ => some (describeStruct "ConditionNode" [name] false)
  | .sleep timer => some (describeStruct "SleepNode" [name, ("timer", timer.describe w)] false)
  | .sleepUntil timer _ =>
    some (describeStruct "SleepUntilNode" [name, ("timer", timer.describe w)] true)
  | .sleepUntilIdle watch _ _ =>
    some (describeStruct "SleepUntilIdleNode"
      [name, ("started", describeOption Duration.describe watch.started),
        ("idle_since", describeOption Duration.describe watch.idleSince)] true)
  | .probe _ _ _ => none
  | .countdown _ _ _ => none

/-- A reference with its target. -/
def Reference.describe (r : Reference) : String :=
  let held := describeOption describeHandle r.held
  match r.kind with
  | .sticky =>
    describeStruct "SubTreeNode" [("name", Quoted.encode r.name), ("cached", held)] true
  | .dynamic =>
    describeStruct "DynamicSubTreeNode" [("name", Quoted.encode r.name), ("current", held)] true

/-- A node, if its kind has a written form. -/
def Node.describe? (w : World) : Node → Option String
  | .leaf part => part.describe? w
  | .reference part => some part.describe
  | _ => none

/-- A tree, shown by the name of its root. -/
def describeTree (root : Node) : String :=
  describeStruct "BehaviorTree" [("root", Quoted.encode root.name)] false

end TickTree
