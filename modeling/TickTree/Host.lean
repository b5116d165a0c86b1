import TickTree.Forest
import TickTree.Node.Labelled
import TickTree.Plan

/-!
# Hosts

A host keeps a world and the plans of new trees, and works on them from outside: on shared trees by
their numbers, and on labelled nodes by their labels.

Main results:

- Definition `Host.service`: the service of the host's forest, with room for every nesting of its
  trees.
- Definition `Host.plant`: a new shared tree under a name.
-/

namespace TickTree

/-- A world, and the plans by which suppliers make new trees. -/
structure Host where
  plans : Array TreePlan
  world : World

namespace Host

/-- Changes the world of a host. -/
def withWorld (h : Host) (w : World) : Host := { h with world := w }

/-- The number of shared trees that are made when every plan is carried out once. -/
def plantedTrees (h : Host) : Nat :=
  h.plans.foldl (fun count plan => count + (plan.sharedTrees + 1)) 0

/-- The nesting depth that requests of this host can reach.  Along a chain of requests every tree
that is there already is entered once, and between two of them no plan is carried out twice. -/
def depth (h : Host) : Nat := (h.world.trees.size + 1) * (h.plantedTrees + 1)

/-- The service of the host's forest. -/
def service (h : Host) : Service := serve (plantFrom h.plans) h.depth

/-! ## Making trees and nodes -/

/-- Makes a shared tree by a plan and gives it a name.  If it cannot be made, the name stays with
the tree that has it. -/
def plant (name : String) (plan : TreePlan) (h : Host) : Except BuildError Node × Host :=
  match plan.grow h.world with
  | (.ok root, w) =>
    let added := w.addTree root
    (.ok root, h.withWorld (added.2.nameTree name added.1))
  | (.error error, w) => (.error error, h.withWorld w)

/-- Makes a node that belongs to no tree. -/
def addLoose (plan : NodePlan) (h : Host) : Host :=
  match plan.grow h.world with
  | (.ok node, w) => h.withWorld { w with loose := node :: w.loose }
  | (.error _, w) => h.withWorld w

/-! ## Shared trees -/

/-- Asks an operation of a shared tree. -/
def ask (operation : Operation) (tree : TreeId) (h : Host) : Answer × Host :=
  let asked := h.service.ask operation tree h.world
  (asked.1, h.withWorld asked.2)

/-- Ticks a shared tree so many times, unless a fault comes between. -/
def ticks (tree : TreeId) : (count : Nat) → Host → List Status × Host
  | 0, h => ([], h)
  | count + 1, h =>
    let first := h.ask .tick tree
    if first.2.world.fault.isSome then
      ([], first.2)
    else
      let rest := ticks tree count first.2
      (first.1.status :: rest.1, rest.2)

/-- Works on the root of a shared tree. -/
def withTree {α : Type} (tree : TreeId) (use : Node → World → α × Node × World) (h : Host) :
    Option α × Host :=
  let used := h.world.withTree tree use
  (used.1, h.withWorld used.2)

/-- The most ticks of one run. -/
def runLimit : Nat := 4294967296

/-- Runs a shared tree. -/
def run (tree : TreeId) (h : Host) : Option Status × Host :=
  let ran := h.withTree tree (Node.run h.service runLimit)
  (ran.1.getD none, ran.2)

/-- The name of a shared tree's root. -/
def rootName (tree : TreeId) (h : Host) : Option String × Host :=
  h.withTree tree fun root w => (root.name, root, w)

/-- Ticks a shared tree while it is in use. -/
def tickWhileInUse (tree : TreeId) (h : Host) : Option Answer × Host :=
  h.withTree tree fun root w =>
    let asked := h.service.ask .tick tree w
    (asked.1, root, asked.2)

/-- Tries to work on a shared tree that is in use. -/
def enterTwice (tree : TreeId) (h : Host) : Option (Option Unit) × Host :=
  h.withTree tree fun root w =>
    let entered := w.withTree tree fun inner w => ((), inner, w)
    (entered.1, root, entered.2)

/-! ## Labelled nodes -/

/-- Works on the latest node of a label. -/
def withNode {α : Type} (label : String) (use : Node → World → α × Node × World) (h : Host) :
    Option α × Host :=
  match h.world.find? label with
  | none => (none, h)
  | some (tag, node) =>
    let used := use node h.world
    (some used.1, h.withWorld (used.2.2.replace tag used.2.1))

/-- Carries out an operation on the latest node of a label. -/
def perform (operation : Operation) (label : String) (h : Host) : Option Answer × Host :=
  h.withNode label (Node.perform h.service operation)

/-- Adds a child to a composite. -/
def addChild (plan : NodePlan) (label : String) (h : Host) : Host :=
  (h.withNode label fun node w =>
    match plan.grow w, node with
    | (.ok child, w), .composite part children => ((), .composite part (children ++ [child]), w)
    | (_, w), node => ((), node, w)).2

/-- Gives a decorator a child; the child it had is let loose. -/
def setChild (plan : NodePlan) (label : String) (h : Host) : Host :=
  (h.withNode label fun node w =>
    match plan.grow w, node with
    | (.ok child, w), .decorator part old =>
      ((), .decorator part (some child), { w with loose := old.toList ++ w.loose })
    | (_, w), node => ((), node, w)).2

/-- Resets the children of a composite and not the composite itself. -/
def resetChildren (label : String) (h : Host) : Host :=
  (h.withNode label fun node w =>
    match node with
    | .composite part children =>
      let rest := Node.resetChildren h.service children w
      ((), .composite part rest.1, rest.2)
    | node => ((), node, w)).2

/-- Ticks one child of a composite. -/
def tickChild (position : Nat) (label : String) (h : Host) : Option Status × Host :=
  let ticked := h.withNode label fun node w =>
    match node with
    | .composite part children =>
      match children[position]? with
      | some child =>
        let t := child.tick h.service w
        (some t.status, .composite part (children.set position t.state), t.world)
      | none => (none, .composite part children, w)
    | node => (none, node, w)
  (ticked.1.getD none, ticked.2)

end Host

end TickTree
