import TickTree.Builder

/-!
# Terms of a builder

The trees that calls to a builder stand for.  A term is a node or a composite of terms, under a list
of decorators with the outermost first; its encoding is the sequence of calls that writes it down.
Calls that leave parts to the builder's configuration are first resolved to ready-made parts.

Main results:

- Theorem `Builder.steps_encode`: the calls of a term add its tree as one node.
- Theorem `Builder.steps_encodeAll`: the calls of several terms add their trees in order.
-/

namespace TickTree

/-- A tree as it is written down by calls to a builder. -/
inductive Term where
  | node (wraps : List Decorator) (inner : Node)
  | composite (wraps : List Decorator) (part : Composite) (given : List Node)
      (children : List Term)

/-- Puts decorators around a node, the first of the list outermost. -/
def wrapOutermost (wraps : List Decorator) (node : Node) : Node :=
  wraps.foldr (fun part inner => .decorator part (some inner)) node

namespace Term

mutual

/-- The tree that a term stands for. -/
def tree : Term → Node
  | node wraps inner => wrapOutermost wraps inner
  | composite wraps part given children =>
    wrapOutermost wraps (.composite part (given ++ trees children))

/-- The trees of several terms. -/
def trees : List Term → List Node
  | [] => []
  | term :: rest => tree term :: trees rest

end

mutual

/-- The calls that write a term down. -/
def encode : Term → List Builder.Call
  | node wraps inner => wraps.map .decorator ++ [.node inner]
  | composite wraps part given children =>
    wraps.map .decorator ++ .composite part given :: (encodeAll children ++ [.close])

/-- The calls that write several terms down. -/
def encodeAll : List Term → List Builder.Call
  | [] => []
  | term :: rest => encode term ++ encodeAll rest

end

end Term

namespace Builder

mutual

/-- A call with its parts made ready under a configuration: fragments are spliced, and installing a
configuration leaves nothing but the configuration. -/
def Call.resolve (config : Config) : Call → List Call × Config
  | .configure config => ([], config)
  | .scope part => ([.composite (part.withConfig config) []], config)
  | .composite part children => ([.composite part children], config)
  | .close => ([.close], config)
  | .wrap part => ([.decorator (part.withConfig config)], config)
  | .decorator part => ([.decorator part], config)
  | .leaf part => ([.node (.leaf (part.withConfig config))], config)
  | .node inner => ([.node inner], config)
  | .apply fragment => Call.resolveAll config fragment

/-- Calls one after the other, with their parts made ready. -/
def Call.resolveAll (config : Config) : List Call → List Call × Config
  | [] => ([], config)
  | call :: rest =>
    let first := Call.resolve config call
    let others := Call.resolveAll first.2 rest
    (first.1 ++ others.1, others.2)

end

/-- Decorators wrap one after the other. -/
theorem wrapAll_append (inner outer : List Decorator) (node : Node) :
    wrapAll (inner ++ outer) node = wrapAll outer (wrapAll inner node) := by
  induction inner generalizing node with
  | nil => rfl
  | cons part rest ih => exact ih _

/-- Staged decorators are listed from the inside, those of a term from the outside. -/
theorem wrapAll_reverse (wraps : List Decorator) (node : Node) :
    wrapAll wraps.reverse node = wrapOutermost wraps node := by
  induction wraps with
  | nil => rfl
  | cons part rest ih =>
    rw [List.reverse_cons, wrapAll_append, ih]
    rfl

/-- Calls that stage decorators put them in front, the last one first. -/
theorem steps_decorators (wraps : List Decorator) (b : Builder) :
    b.steps (wraps.map Call.decorator) = { b with staged := wraps.reverse ++ b.staged } := by
  induction wraps generalizing b with
  | nil => simp [steps]
  | cons part rest ih =>
    simp only [List.map_cons, steps, step, ih, stage]
    simp

/-- A node that is added with more decorators staged is the wrapped node added. -/
theorem attach_staged (wraps : List Decorator) (node : Node) (b : Builder) :
    { b with staged := wraps.reverse ++ b.staged }.attach node =
      b.attach (wrapOutermost wraps node) := by
  unfold attach
  simp only [wrapAll_append, wrapAll_reverse]

/-- Adds nodes in order. -/
def attachAll (nodes : List Node) (b : Builder) : Builder :=
  nodes.foldl (fun b node => b.attach node) b

/-- Nodes added inside a scope without staged decorators are collected in the scope. -/
theorem attachAll_of_scope (nodes : List Node) (b : Builder) (scope : Scope) (outer : List Scope)
    (hs : b.scopes = scope :: outer) (hd : b.staged = []) :
    attachAll nodes b =
      { b with
        scopes := { scope with collected := nodes.reverse ++ scope.collected } :: outer } := by
  induction nodes generalizing b scope with
  | nil =>
    cases b
    simp_all [attachAll]
  | cons node rest ih =>
    have h1 : b.attach node =
        { b with scopes := { scope with collected := node :: scope.collected } :: outer } := by
      unfold attach
      rw [hs]
      cases b
      simp_all [wrapAll]
    show attachAll rest (b.attach node) = _
    rw [h1, ih _ { scope with collected := node :: scope.collected } rfl (by simpa using hd)]
    simp

mutual

/-- The calls of a term add its tree as one node. -/
theorem steps_encode : ∀ (t : Term) (b : Builder), b.steps t.encode = b.attach t.tree
  | .node wraps node, b => by
    rw [Term.encode, steps_append, steps_decorators, Term.tree]
    simp only [steps, step]
    exact attach_staged wraps node b
  | .composite wraps part given children, b => by
    rw [Term.encode, steps_append, steps_decorators, Term.tree]
    simp only [steps, step, steps_append, openScope]
    rw [steps_encodeAll children, attachAll_of_scope _ _ _ _ rfl rfl, ← attach_staged]
    simp [complaint, closeComplaint, record, closeScope, Scope.node, attach]

/-- The calls of several terms add their trees in order. -/
theorem steps_encodeAll : ∀ (ts : List Term) (b : Builder),
    b.steps (Term.encodeAll ts) = attachAll (Term.trees ts) b
  | [], b => by simp [Term.encodeAll, Term.trees, steps, attachAll]
  | t :: rest, b => by
    rw [Term.encodeAll, steps_append, steps_encode t, steps_encodeAll rest, Term.trees]
    rfl

end

end Builder

end TickTree
