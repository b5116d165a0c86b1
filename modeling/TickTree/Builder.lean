import TickTree.Node
import TickTree.Decimal.Layout

/-!
# Builders

A tree is built by a sequence of calls.  A composite opens a scope that collects every node up to
the matching end; decorators are staged and wrap the next single node, where a composite counts
as one node once its scope is closed.  Stacked decorators nest in the order of their calls.  The
first misuse is kept and is the result of the build.

Main results:

- Definition `Builder.step`: one call.
- Definition `Builder.complaint`: the misuse that a call makes, if any.
- Definition `Builder.build`: the result, by the rule that the first misuse wins.
-/

namespace TickTree

/-- Why no tree was built. -/
inductive BuildError where
  | unclosedComposite (openCount : Nat)
  | unbalancedEnd
  | danglingDecorator (name : String)
  | emptyTree
  | multipleRoots (count : Nat)
  | invalidParameter (node reason : String)
  deriving DecidableEq

/-- The wording of a build error. -/
def BuildError.message : BuildError → String
  | unclosedComposite openCount =>
    s!"Unclosed composite nodes ({openCount} still open). Call end() for each composite."
  | unbalancedEnd => "end() was called without an open composite."
  | danglingDecorator name => s!"Decorator [{name}] has no node to wrap."
  | emptyTree => "Invalid tree structure. Expected exactly one root node, found none."
  | multipleRoots count =>
    s!"Invalid tree structure. Expected exactly one root node, found {count}."
  | invalidParameter node reason => s!"Invalid parameter for [{node}]: {reason}"

/-- An open composite: the children it had when it was opened, the children collected since, the
latest first, and the decorators that will wrap it, the latest first. -/
structure Scope where
  part : Composite
  given : List Node
  collected : List Node
  staged : List Decorator

/-- The composite of a scope with all its children. -/
def Scope.node (s : Scope) : Node := .composite s.part (s.given ++ s.collected.reverse)

/-- A tree under construction. -/
structure Builder where
  config : Config
  /-- The innermost scope first. -/
  scopes : List Scope
  /-- The decorators that wrap the next node, the latest first. -/
  staged : List Decorator
  /-- The complete nodes outside all scopes, the latest first. -/
  roots : List Node
  /-- The first misuse. -/
  error : Option BuildError

/-- A call to a builder.  A part that is made by the builder uses the builder's configuration; a
part that is given ready-made keeps its own. -/
inductive Builder.Call where
  /-- Installs the configuration of the parts made afterwards. -/
  | configure (config : Config)
  /-- Opens the scope of a composite made by the builder. -/
  | scope (part : Composite)
  /-- Opens the scope of a ready-made composite, which may have children already. -/
  | composite (part : Composite) (children : List Node)
  /-- Closes the innermost scope. -/
  | close
  /-- Stages a decorator made by the builder. -/
  | wrap (part : Decorator)
  /-- Stages a ready-made decorator. -/
  | decorator (part : Decorator)
  /-- Adds a leaf made by the builder. -/
  | leaf (part : Leaf)
  /-- Adds a ready-made node. -/
  | node (node : Node)
  /-- Splices a fragment. -/
  | apply (fragment : List Builder.Call)

namespace Builder

/-- A builder without any call. -/
def new (config : Config) : Builder := ⟨config, [], [], [], none⟩

/-- Wraps a node in decorators, the first of the list innermost. -/
def wrapAll : List Decorator → Node → Node
  | [], node => node
  | part :: outer, node => wrapAll outer (.decorator part (some node))

/-- Adds a node, wrapped in the staged decorators, to the innermost scope or to the roots. -/
def attach (node : Node) (b : Builder) : Builder :=
  let wrapped := wrapAll b.staged node
  match b.scopes with
  | [] => { b with staged := [], roots := wrapped :: b.roots }
  | scope :: outer =>
    { b with
      staged := []
      scopes := { scope with collected := wrapped :: scope.collected } :: outer }

/-- Opens a scope; the staged decorators wait until it is closed. -/
def openScope (part : Composite) (children : List Node) (b : Builder) : Builder :=
  { b with scopes := ⟨part, children, [], b.staged⟩ :: b.scopes, staged := [] }

/-- Closes the innermost scope and adds its composite as one node.  Decorators staged inside the
scope are dropped. -/
def closeScope (b : Builder) : Builder :=
  match b.scopes with
  | [] => b
  | scope :: outer => { b with scopes := outer, staged := scope.staged }.attach scope.node

/-- Stages a decorator. -/
def stage (part : Decorator) (b : Builder) : Builder := { b with staged := part :: b.staged }

/-- A percentage that is no number. -/
def lacksPercentage : Decorator → Bool
  | .successRate _ (.constant percentage) => percentage.isNaN
  | _ => false

/-- The misuse of installing a configuration. -/
def configComplaint (config : Config) : Option BuildError :=
  if validSpread config.spread then none
  else
    let spread := Layout.plain.render config.spread
    some (.invalidParameter "NodeConfig"
      s!"jitter spread must be finite and non-negative, got {spread}")

/-- The misuse of closing a scope. -/
def closeComplaint (b : Builder) : Option BuildError :=
  match b.scopes, b.staged with
  | [], _ => some .unbalancedEnd
  | _ :: _, [] => none
  | _ :: _, part :: _ => some (.danglingDecorator part.name)

/-- The misuse that a call makes, if any.  A fragment has no misuse besides that of its calls. -/
def complaint (b : Builder) : Call → Option BuildError
  | .configure config => configComplaint config
  | .close => b.closeComplaint
  | .wrap part =>
    if lacksPercentage part then some (.invalidParameter "SuccessRate" "percentage is NaN")
    else none
  | _ => none

/-- Keeps a misuse, unless there was one before. -/
def record (error : Option BuildError) (b : Builder) : Builder :=
  { b with error := b.error.or error }

mutual

/-- One call. -/
def step (b : Builder) : Call → Builder
  | .configure config => { b.record (b.complaint (.configure config)) with config := config }
  | .scope part => b.openScope (part.withConfig b.config) []
  | .composite part children => b.openScope part children
  | .close => (b.record (b.complaint .close)).closeScope
  | .wrap part => (b.record (b.complaint (.wrap part))).stage (part.withConfig b.config)
  | .decorator part => b.stage part
  | .leaf part => b.attach (.leaf (part.withConfig b.config))
  | .node node => b.attach node
  | .apply fragment => b.steps fragment

/-- Calls one after the other. -/
def steps (b : Builder) : List Call → Builder
  | [] => b
  | call :: rest => (b.step call).steps rest

end

/-- The tree, or the reason why there is none: the first misuse, else a scope left open, else a
decorator left without a node, else a number of roots other than one. -/
def build (b : Builder) : Except BuildError Node :=
  match b.error with
  | some error => .error error
  | none =>
    match b.scopes with
    | _ :: _ => .error (.unclosedComposite b.scopes.length)
    | [] =>
      match b.staged with
      | part :: _ => .error (.danglingDecorator part.name)
      | [] =>
        match b.roots with
        | [] => .error .emptyTree
        | [root] => .ok root
        | roots => .error (.multipleRoots roots.length)

/-- All nodes that were given to a builder and are still in it. -/
def leftovers (b : Builder) : List Node := b.roots ++ b.scopes.map Scope.node

theorem steps_append (b : Builder) (first second : List Call) :
    b.steps (first ++ second) = (b.steps first).steps second := by
  induction first generalizing b with
  | nil => simp [steps]
  | cons call rest ih => simp [steps, ih]

end Builder

end TickTree
