import TickTree.Plan
import TickTree.Proofs.Exchange

/-!
# Exchanging leaves in plans

The leaves of a plan are exchanged wherever they stand in it.  A builder that is given exchanged
leaves makes the same complaints and builds the tree with its leaves exchanged.

Main results:

- Theorem `Builder.step_exchange`: calls with exchanged leaves keep a builder exchanged.
- Theorem `Builder.build_exchange`: an exchanged builder builds the exchanged tree.
- Theorem `TreePlan.exchange_same`: exchanging every leaf for itself changes no plan.
-/

namespace TickTree

variable (e : Exchange)

/-! ## Builders -/

/-- Exchanges the leaves in a scope. -/
def Scope.exchange (s : Scope) : Scope :=
  { s with
    given := s.given.map (Node.exchange e)
    collected := s.collected.map (Node.exchange e) }

/-- Exchanges the leaves in a builder. -/
def Builder.exchange (b : Builder) : Builder :=
  { b with
    scopes := b.scopes.map (Scope.exchange e)
    roots := b.roots.map (Node.exchange e) }

mutual

/-- Exchanges the leaves in a call to a builder. -/
def Builder.Call.exchange : Builder.Call → Builder.Call
  | .configure config => .configure config
  | .scope part => .scope part
  | .composite part children => .composite part (children.map (Node.exchange e))
  | .close => .close
  | .wrap part => .wrap part
  | .decorator part => .decorator part
  | .leaf part => .leaf (e.leaf part)
  | .node n => .node (n.exchange e)
  | .apply fragment => .apply (Builder.Call.exchangeAll fragment)

/-- Exchanges the leaves in calls to a builder. -/
def Builder.Call.exchangeAll : List Builder.Call → List Builder.Call
  | [] => []
  | call :: rest => Builder.Call.exchange call :: Builder.Call.exchangeAll rest

end

/-- The composite of an exchanged scope is exchanged. -/
theorem Scope.node_exchange (s : Scope) : (s.exchange e).node = s.node.exchange e := by
  simp only [node, exchange, Node.exchange, Node.exchangeChildren_eq, List.map_append,
    List.map_reverse]

namespace Builder

/-- Wrapped nodes are exchanged inside their decorators. -/
theorem wrapAll_exchange (staged : List Decorator) (n : Node) :
    wrapAll staged (n.exchange e) = (wrapAll staged n).exchange e := by
  induction staged generalizing n with
  | nil => rfl
  | cons part outer ih => exact ih (.decorator part (some n))

theorem attach_exchange (n : Node) (b : Builder) :
    (b.exchange e).attach (n.exchange e) = (b.attach n).exchange e := by
  rcases b with ⟨config, scopes, staged, roots, error⟩
  cases scopes with
  | nil => simp only [attach, exchange, List.map_nil, List.map_cons, wrapAll_exchange]
  | cons scope outer =>
    simp only [attach, exchange, Scope.exchange, List.map_cons, wrapAll_exchange]

theorem openScope_exchange (part : Composite) (children : List Node) (b : Builder) :
    (b.exchange e).openScope part (children.map (Node.exchange e)) =
      (b.openScope part children).exchange e := rfl

theorem closeScope_exchange (b : Builder) :
    (b.exchange e).closeScope = b.closeScope.exchange e := by
  rcases b with ⟨config, scopes, staged, roots, error⟩
  cases scopes with
  | nil => rfl
  | cons scope outer =>
    have hattached := attach_exchange e scope.node ⟨config, outer, scope.staged, roots, error⟩
    rw [← Scope.node_exchange] at hattached
    exact hattached

/-- Calls with exchanged leaves are the same misuses. -/
theorem complaint_exchange (b : Builder) (call : Call) :
    (b.exchange e).complaint (call.exchange e) = b.complaint call := by
  rcases b with ⟨config, scopes, staged, roots, error⟩
  cases call with
  | close => cases scopes <;> cases staged <;> rfl
  | configure config => rfl
  | scope part => rfl
  | composite part children => rfl
  | wrap part => rfl
  | decorator part => rfl
  | leaf part => rfl
  | node node => rfl
  | apply fragment => rfl

mutual

/-- Calls with exchanged leaves keep a builder exchanged. -/
theorem step_exchange (b : Builder) : ∀ call : Call,
    (b.exchange e).step (call.exchange e) = (b.step call).exchange e
  | .configure config => by simp only [Call.exchange, step]; rfl
  | .scope part => by simp only [Call.exchange, step]; rfl
  | .composite part children => by
    simp only [Call.exchange, step]
    exact openScope_exchange e part children b
  | .close => by
    have hrecorded : (b.exchange e).record ((b.exchange e).complaint .close) =
        (b.record (b.complaint .close)).exchange e := by
      rw [show (b.exchange e).complaint .close = b.complaint .close from
        complaint_exchange e b .close]
      rfl
    simp only [Call.exchange, step]
    rw [hrecorded]
    exact closeScope_exchange e _
  | .wrap part => by simp only [Call.exchange, step]; rfl
  | .decorator part => by simp only [Call.exchange, step]; rfl
  | .leaf part => by
    simp only [Call.exchange, step]
    rw [← attach_exchange]
    simp only [Node.exchange, ← e.withConfig]
    rfl
  | .node node => by
    simp only [Call.exchange, step]
    exact attach_exchange e node b
  | .apply fragment => by
    simp only [Call.exchange, step]
    exact steps_exchange b fragment

/-- Calls one after the other keep a builder exchanged. -/
theorem steps_exchange (b : Builder) : ∀ calls : List Call,
    (b.exchange e).steps (Call.exchangeAll e calls) = (b.steps calls).exchange e
  | [] => by simp only [Call.exchangeAll, steps]
  | call :: rest => by
    simp only [Call.exchangeAll, steps]
    rw [step_exchange b call]
    exact steps_exchange (b.step call) rest

end

/-- An exchanged builder builds the exchanged tree. -/
theorem build_exchange (b : Builder) :
    (b.exchange e).build = b.build.map (Node.exchange e) := by
  rcases b with ⟨config, scopes, staged, roots, error⟩
  unfold build exchange
  cases error with
  | some error => rfl
  | none =>
    cases scopes with
    | cons scope outer =>
      simp only [List.map_cons, List.length_cons, List.length_map]
      rfl
    | nil =>
      cases staged with
      | cons part outer => rfl
      | nil =>
        rcases roots with _ | ⟨root, _ | ⟨second, rest⟩⟩
        · rfl
        · rfl
        · simp only [List.map_nil, List.map_cons, List.length_cons, List.length_map]
          rfl

/-- The nodes left in an exchanged builder are exchanged. -/
theorem leftovers_exchange (b : Builder) :
    (b.exchange e).leftovers = b.leftovers.map (Node.exchange e) := by
  simp only [leftovers, exchange, List.map_append, List.map_map]
  exact congrArg _ (List.map_congr_left fun scope _ => scope.node_exchange e)

end Builder

/-! ## Plans -/

mutual

/-- Exchanges the leaves in the plan of a node. -/
def NodePlan.exchange : NodePlan → NodePlan
  | .leaf label part => .leaf label (e.leaf part)
  | .composite label part children => .composite label part (NodePlan.exchangeAll children)
  | .decorator label part child => .decorator label part (NodePlan.exchangeChild child)
  | .reference label part => .reference label part
  | .link label name tree => .link label name tree
  | .tree label tree => .tree label (TreePlan.exchange tree)
  | .broken under fault => .broken (NodePlan.exchangeAll under) fault

/-- Exchanges the leaves in the plans of several nodes. -/
def NodePlan.exchangeAll : List NodePlan → List NodePlan
  | [] => []
  | plan :: rest => NodePlan.exchange plan :: NodePlan.exchangeAll rest

/-- Exchanges the leaves in the plan of a child, if there is one. -/
def NodePlan.exchangeChild : Option NodePlan → Option NodePlan
  | none => none
  | some plan => some (NodePlan.exchange plan)

/-- Exchanges the leaves in the plan of a tree. -/
def TreePlan.exchange : TreePlan → TreePlan
  | .root root => .root (NodePlan.exchange root)
  | .rootOf tree => .rootOf (TreePlan.exchange tree)
  | .build steps => .build (PlanStep.exchangeAll steps)

/-- Exchanges the leaves in a step of building. -/
def PlanStep.exchange : PlanStep → PlanStep
  | .configure config => .configure config
  | .peek => .peek
  | .scope part => .scope part
  | .composite part children => .composite part (NodePlan.exchangeAll children)
  | .close => .close
  | .wrap part => .wrap part
  | .decorator part child => .decorator part (NodePlan.exchangeChild child)
  | .leaf part => .leaf (e.leaf part)
  | .reference part => .reference part
  | .link name tree => .link name tree
  | .node plan => .node (NodePlan.exchange plan)
  | .ownTree name tree => .ownTree name (TreePlan.exchange tree)
  | .apply fragment => .apply (PlanStep.exchangeAll fragment)
  | .broken under fault => .broken (NodePlan.exchangeAll under) fault

/-- Exchanges the leaves in several steps of building. -/
def PlanStep.exchangeAll : List PlanStep → List PlanStep
  | [] => []
  | step :: rest => PlanStep.exchange step :: PlanStep.exchangeAll rest

end

mutual

/-- Exchanging every leaf for itself does not change the plan of a node. -/
theorem NodePlan.exchange_same : ∀ plan : NodePlan, plan.exchange .same = plan
  | .leaf label part => rfl
  | .composite label part children => by
    rw [NodePlan.exchange, NodePlan.exchangeAll_same children]
  | .decorator label part child => by
    rw [NodePlan.exchange, NodePlan.exchangeChild_same child]
  | .reference label part => rfl
  | .link label name tree => rfl
  | .tree label tree => by rw [NodePlan.exchange, TreePlan.exchange_same tree]
  | .broken under fault => by rw [NodePlan.exchange, NodePlan.exchangeAll_same under]

/-- Exchanging every leaf for itself does not change the plans of several nodes. -/
theorem NodePlan.exchangeAll_same : ∀ plans : List NodePlan,
    NodePlan.exchangeAll .same plans = plans
  | [] => rfl
  | plan :: rest => by
    rw [NodePlan.exchangeAll, NodePlan.exchange_same plan, NodePlan.exchangeAll_same rest]

/-- Exchanging every leaf for itself does not change the plan of a child. -/
theorem NodePlan.exchangeChild_same : ∀ plan : Option NodePlan,
    NodePlan.exchangeChild .same plan = plan
  | none => rfl
  | some plan => by rw [NodePlan.exchangeChild, NodePlan.exchange_same plan]

/-- Exchanging every leaf for itself does not change the plan of a tree. -/
theorem TreePlan.exchange_same : ∀ plan : TreePlan, plan.exchange .same = plan
  | .root root => by rw [TreePlan.exchange, NodePlan.exchange_same root]
  | .rootOf tree => by rw [TreePlan.exchange, TreePlan.exchange_same tree]
  | .build steps => by rw [TreePlan.exchange, PlanStep.exchangeAll_same steps]

/-- Exchanging every leaf for itself does not change a step of building. -/
theorem PlanStep.exchange_same : ∀ step : PlanStep, step.exchange .same = step
  | .configure config => rfl
  | .peek => rfl
  | .scope part => rfl
  | .composite part children => by
    rw [PlanStep.exchange, NodePlan.exchangeAll_same children]
  | .close => rfl
  | .wrap part => rfl
  | .decorator part child => by rw [PlanStep.exchange, NodePlan.exchangeChild_same child]
  | .leaf part => rfl
  | .reference part => rfl
  | .link name tree => rfl
  | .node plan => by rw [PlanStep.exchange, NodePlan.exchange_same plan]
  | .ownTree name tree => by rw [PlanStep.exchange, TreePlan.exchange_same tree]
  | .apply fragment => by rw [PlanStep.exchange, PlanStep.exchangeAll_same fragment]
  | .broken under fault => by rw [PlanStep.exchange, NodePlan.exchangeAll_same under]

/-- Exchanging every leaf for itself does not change several steps of building. -/
theorem PlanStep.exchangeAll_same : ∀ steps : List PlanStep,
    PlanStep.exchangeAll .same steps = steps
  | [] => rfl
  | step :: rest => by
    rw [PlanStep.exchangeAll, PlanStep.exchange_same step, PlanStep.exchangeAll_same rest]

end

/-- Exchanging every leaf for itself changes no plan. -/
theorem plans_exchange_same (plans : Array TreePlan) :
    plans.map (TreePlan.exchange .same) = plans := by
  rw [funext TreePlan.exchange_same]
  exact Array.map_id' plans

end TickTree
