import TickTree.Builder
import TickTree.World

/-!
# Plans

A plan says how a tree is made, as data.  The same plan can be carried out any number of times;
each time new nodes are made, with callbacks that have not been called yet.

Main results:

- Definition `TreePlan.sharedTrees`: the number of shared trees that a plan makes on the way.
- Definitions `NodePlan.grow` and `TreePlan.grow`: what carrying out a plan makes.
- Definition `plantFrom`: a new shared tree by the plan of a number.
-/

namespace TickTree

mutual

/-- How a node is made.  A label makes the node reachable from outside its tree. -/
inductive NodePlan where
  | leaf (label : Option String) (part : Leaf)
  | composite (label : Option String) (part : Composite) (children : List NodePlan)
  | decorator (label : Option String) (part : Decorator) (child : Option NodePlan)
  | reference (label : Option String) (part : Reference)
  /-- A sub-tree of the shared tree that has a name when the node is made. -/
  | link (label : Option String) (name tree : String)
  | tree (label : Option String) (tree : TreePlan)
  /-- There is no such node: making it is a fault, once the nodes that belong under it are made. -/
  | broken (under : List NodePlan) (fault : Fault)

/-- How a tree is made: around a root, around the root of another tree, or by a builder. -/
inductive TreePlan where
  | root (root : NodePlan)
  | rootOf (tree : TreePlan)
  | build (steps : List PlanStep)

/-- A step of building a tree. -/
inductive PlanStep where
  /-- Installs a configuration. -/
  | configure (config : Config)
  /-- Records the installed configuration. -/
  | peek
  /-- Opens the scope of a composite made by the builder. -/
  | scope (part : Composite)
  /-- Opens the scope of a ready-made composite. -/
  | composite (part : Composite) (children : List NodePlan)
  /-- Closes the innermost scope. -/
  | close
  /-- Stages a decorator made by the builder. -/
  | wrap (part : Decorator)
  /-- Stages a ready-made decorator.  A child that it has already is replaced later. -/
  | decorator (part : Decorator) (child : Option NodePlan)
  /-- Adds a leaf made by the builder. -/
  | leaf (part : Leaf)
  /-- Adds a reference to a shared tree. -/
  | reference (part : Reference)
  /-- Adds a sub-tree of the shared tree that has a name when the step is taken. -/
  | link (name tree : String)
  /-- Adds a ready-made node. -/
  | node (plan : NodePlan)
  /-- Adds a sub-tree that always finds a new tree of its own. -/
  | ownTree (name : String) (tree : TreePlan)
  /-- Splices a fragment. -/
  | apply (fragment : List PlanStep)
  /-- There is no such step: taking it is a fault, once the nodes that belong to it are made. -/
  | broken (under : List NodePlan) (fault : Fault)

end

/-! ## Counting trees -/

mutual

/-- The number of shared trees that are made along with a node. -/
def NodePlan.sharedTrees : NodePlan → Nat
  | .leaf _ _ => 0
  | .composite _ _ children => NodePlan.sharedTreesOfAll children
  | .decorator _ _ child => NodePlan.sharedTreesOfChild child
  | .reference _ _ => 0
  | .link _ _ _ => 0
  | .tree _ tree => TreePlan.sharedTrees tree
  | .broken under _ => NodePlan.sharedTreesOfAll under

/-- The number of shared trees that are made along with several nodes. -/
def NodePlan.sharedTreesOfAll : List NodePlan → Nat
  | [] => 0
  | plan :: rest => NodePlan.sharedTrees plan + NodePlan.sharedTreesOfAll rest

/-- The number of shared trees that are made along with a child. -/
def NodePlan.sharedTreesOfChild : Option NodePlan → Nat
  | none => 0
  | some plan => NodePlan.sharedTrees plan

/-- The number of shared trees that are made along with a tree. -/
def TreePlan.sharedTrees : TreePlan → Nat
  | .root root => NodePlan.sharedTrees root
  | .rootOf tree => TreePlan.sharedTrees tree
  | .build steps => PlanStep.sharedTreesOfAll steps

/-- The number of shared trees that are made in a step of building. -/
def PlanStep.sharedTrees : PlanStep → Nat
  | .composite _ children => NodePlan.sharedTreesOfAll children
  | .decorator _ child => NodePlan.sharedTreesOfChild child
  | .node plan => NodePlan.sharedTrees plan
  | .ownTree _ tree => TreePlan.sharedTrees tree + 1
  | .apply fragment => PlanStep.sharedTreesOfAll fragment
  | .broken under _ => NodePlan.sharedTreesOfAll under
  | _ => 0

/-- The number of shared trees that are made in several steps of building. -/
def PlanStep.sharedTreesOfAll : List PlanStep → Nat
  | [] => 0
  | step :: rest => PlanStep.sharedTrees step + PlanStep.sharedTreesOfAll rest

end

/-! ## Carrying out plans -/

/-- Marks a new node with its label, if it has one. -/
def tagged (label : Option String) (node : Node) (w : World) : Node × World :=
  match label with
  | none => (node, w)
  | some label =>
    let issued := w.issue 1
    (.embedded (some ⟨label, issued.1⟩) node, issued.2)

/-- A new leaf. -/
def Leaf.seated (part : Leaf) (w : World) : Leaf × World :=
  let issued := w.issue 2
  (part.atSeat issued.1, issued.2)

/-- A new decorator. -/
def Decorator.seated (part : Decorator) (w : World) : Decorator × World :=
  let issued := w.issue 1
  (part.atSeat issued.1, issued.2)

/-- A new reference. -/
def Reference.seated (part : Reference) (w : World) : Reference × World :=
  let issued := w.issue 1
  (part.atSeat issued.1, issued.2)

/-- A new sub-tree that always finds the tree that has a name now, or none if no tree has it. -/
def linked (name tree : String) (w : World) : Reference :=
  match w.named? tree with
  | none => .new .sticky name (.constant none)
  | some tree => .toTree name tree

/-- One call to a builder; a misuse is logged. -/
def Builder.call (b : Builder) (call : Builder.Call) (w : World) : Builder × World :=
  match b.complaint call with
  | none => (b.step call, w)
  | some error =>
    let message := error.message
    (b.step call, w.report .debug s!"builder error: {message}")

/-- The tree of a builder.  Without one, the nodes that were given to the builder are let loose. -/
def Builder.finish (b : Builder) (w : World) : Except BuildError Node × World :=
  match b.build with
  | .ok root => (.ok root, w)
  | .error error => (.error error, { w with loose := b.leftovers ++ w.loose })

mutual

/-- Makes a node.  It cannot be made when a tree inside it cannot be built.  A broken plan leaves a
fault and a node without children that nobody gets to see. -/
def NodePlan.grow : NodePlan → World → Except BuildError Node × World
  | .leaf label part, w =>
    let seated := part.seated w
    let made := tagged label (.leaf seated.1) seated.2
    (.ok made.1, made.2)
  | .composite label part children, w =>
    match NodePlan.growAll children w with
    | (.error error, w) => (.error error, w)
    | (.ok children, w) =>
      let made := tagged label (.composite part children) w
      (.ok made.1, made.2)
  | .decorator label part child, w =>
    match NodePlan.growChild child w with
    | (.error error, w) => (.error error, w)
    | (.ok child, w) =>
      let seated := part.seated w
      let made := tagged label (.decorator seated.1 child) seated.2
      (.ok made.1, made.2)
  | .reference label part, w =>
    let seated := part.seated w
    let made := tagged label (.reference seated.1) seated.2
    (.ok made.1, made.2)
  | .link label name tree, w =>
    let made := tagged label (.reference (linked name tree w)) w
    (.ok made.1, made.2)
  | .tree label tree, w =>
    match TreePlan.grow tree w with
    | (.error error, w) => (.error error, w)
    | (.ok root, w) =>
      let made := tagged label (.embedded none root) w
      (.ok made.1, made.2)
  | .broken under fault, w =>
    match NodePlan.growAll under w with
    | (.error error, w) => (.error error, w)
    | (.ok _, w) => (.ok default, w.fail fault)

/-- Makes nodes in order. -/
def NodePlan.growAll : List NodePlan → World → Except BuildError (List Node) × World
  | [], w => (.ok [], w)
  | plan :: rest, w =>
    match NodePlan.grow plan w with
    | (.error error, w) => (.error error, w)
    | (.ok node, w) =>
      match NodePlan.growAll rest w with
      | (.error error, w) => (.error error, w)
      | (.ok nodes, w) => (.ok (node :: nodes), w)

/-- Makes a child if there is a plan for one. -/
def NodePlan.growChild : Option NodePlan → World → Except BuildError (Option Node) × World
  | none, w => (.ok none, w)
  | some plan, w =>
    match NodePlan.grow plan w with
    | (.error error, w) => (.error error, w)
    | (.ok node, w) => (.ok (some node), w)

/-- Makes the root of a tree. -/
def TreePlan.grow : TreePlan → World → Except BuildError Node × World
  | .root root, w => NodePlan.grow root w
  | .rootOf tree, w => TreePlan.grow tree w
  | .build steps, w =>
    match PlanStep.performAll steps (Builder.new .standard) w with
    | (.error error, w) => (.error error, w)
    | (.ok b, w) => b.finish w

/-- Takes a step of building. -/
def PlanStep.perform : PlanStep → Builder → World → Except BuildError Builder × World
  | .configure config, b, w =>
    let called := b.call (.configure config) w
    (.ok called.1, called.2)
  | .peek, b, w => (.ok b, w.emit (.configured b.config.spread (w.now b.config.clock)))
  | .scope part, b, w =>
    let called := b.call (.scope part) w
    (.ok called.1, called.2)
  | .composite part children, b, w =>
    match NodePlan.growAll children w with
    | (.error error, w) => (.error error, w)
    | (.ok children, w) =>
      let called := b.call (.composite part children) w
      (.ok called.1, called.2)
  | .close, b, w =>
    let called := b.call .close w
    (.ok called.1, called.2)
  | .wrap part, b, w =>
    let seated := part.seated w
    let called := b.call (.wrap seated.1) seated.2
    (.ok called.1, called.2)
  | .decorator part child, b, w =>
    match NodePlan.growChild child w with
    | (.error error, w) => (.error error, w)
    | (.ok child, w) =>
      let seated := part.seated { w with loose := child.toList ++ w.loose }
      let called := b.call (.decorator seated.1) seated.2
      (.ok called.1, called.2)
  | .leaf part, b, w =>
    let seated := part.seated w
    let called := b.call (.leaf seated.1) seated.2
    (.ok called.1, called.2)
  | .reference part, b, w =>
    let seated := part.seated w
    let called := b.call (.node (.reference seated.1)) seated.2
    (.ok called.1, called.2)
  | .link name tree, b, w =>
    let called := b.call (.node (.reference (linked name tree w))) w
    (.ok called.1, called.2)
  | .node plan, b, w =>
    match NodePlan.grow plan w with
    | (.error error, w) => (.error error, w)
    | (.ok node, w) =>
      let called := b.call (.node node) w
      (.ok called.1, called.2)
  | .ownTree name tree, b, w =>
    match TreePlan.grow tree w with
    | (.error error, w) => (.error error, w)
    | (.ok root, w) =>
      let added := w.addTree root
      let called := b.call (.node (.reference (.toTree name added.1))) added.2
      (.ok called.1, called.2)
  | .apply fragment, b, w => PlanStep.performAll fragment b w
  | .broken under fault, b, w =>
    match NodePlan.growAll under w with
    | (.error error, w) => (.error error, w)
    | (.ok _, w) => (.ok b, w.fail fault)

/-- Takes steps in order. -/
def PlanStep.performAll : List PlanStep → Builder → World → Except BuildError Builder × World
  | [], b, w => (.ok b, w)
  | step :: rest, b, w =>
    match PlanStep.perform step b w with
    | (.error error, w) => (.error error, w)
    | (.ok b, w) => PlanStep.performAll rest b w

end

/-- Makes a new shared tree by the plan of a number; there is none when the plan cannot be
carried out. -/
def plantFrom (plans : Array TreePlan) (plan : PlanId) (w : World) : Option TreeId × World :=
  match plans[plan]? with
  | none => (none, w)
  | some plan =>
    match plan.grow w with
    | (.error _, w) => (none, w)
    | (.ok root, w) =>
      let added := w.addTree root
      (some added.1, added.2)

end TickTree
