import TickTree.Node.Labelled

/-!
# Snapshots

What can be seen of a node without ticking it: its name, the names of its children, and the part of
its state that its kind shows.

Main results:

- Definition `Node.snapshot`: the view of one node.
-/

namespace TickTree

/-- One thing that a node shows of itself. -/
inductive Detail where
  /-- The names of the children. -/
  | kids (names : List String)
  /-- The name of the child. -/
  | kid (name : Option String)
  /-- The target of the wait in progress. -/
  | target (target : Option Duration)
  /-- The child that was chosen. -/
  | selected (position : Option Nat)
  /-- The policies for success and failure. -/
  | policies (success failure : Policy)
  /-- The completed repetitions or failed attempts. -/
  | count (count : Int32)
  /-- The clock reading at the latest completion of the child. -/
  | last (reading : Option Duration)
  /-- A sub-tree has found its target. -/
  | resolved (resolved : Bool)
  /-- The target of a dynamic sub-tree. -/
  | current (tree : Option TreeId)

/-- What is seen of a node. -/
structure Snapshot where
  name : String
  details : List Detail

/-- What a leaf shows. -/
def Leaf.details : Leaf → List Detail
  | .sleep timer => [.target timer.target]
  | .sleepUntil timer _ => [.target timer.target]
  | _ => []

/-- What a composite shows besides its children. -/
def Composite.details : Composite → List Detail
  | .chain _ _ _ => []
  | .randomSelector _ selected => [.selected selected]
  | .parallel success failure => [.policies success failure]

/-- What a decorator shows besides its child. -/
def Decorator.details : Decorator → List Detail
  | .repetition _ count => [.count count]
  | .retry _ count => [.count count]
  | .cooldown _ _ last => [.last last]
  | .sleepUntilSuccess timer => [.target timer.target]
  | _ => []

/-- What a reference shows. -/
def Reference.details (r : Reference) : List Detail :=
  match r.kind with
  | .sticky => [.resolved r.held.isSome]
  | .dynamic => [.current r.held]

/-- The view of one node. -/
def Node.snapshot (n : Node) : Snapshot :=
  { name := n.name
    details := match n with
      | .leaf part => part.details
      | .composite part children => .kids (children.map Node.name) :: part.details
      | .decorator part child => .kid (child.map Node.name) :: part.details
      | .reference part => part.details
      | .embedded _ _ => [] }

/-- The view of every labelled node. -/
def World.snapshots (w : World) : List (String × Snapshot) :=
  w.labels.filterMap fun label =>
    (w.find? label).map fun found => (label, found.2.snapshot)

end TickTree
