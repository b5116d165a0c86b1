import TickTree.World

/-!
# Services

While a node works it may need a shared tree: a reference asks its target, and a callback may ask
any tree.  What answers such a request is a parameter of all operations on nodes, the service.
The forest provides the service in which trees answer each other.

Main results:

- Theorem `Service.send_append`: requests are answered one after the other.
- Theorem `Supplier.gives_get`: a supplier gives one of its values.
-/

namespace TickTree

/-- What becomes of a request to a shared tree. -/
inductive Answer where
  /-- The tree is in use, or there is none: nothing was done. -/
  | refused
  /-- The operation was carried out. -/
  | done
  /-- The root was ticked. -/
  | ticked (status : Status)
  deriving DecidableEq

/-- The status of an answer; whatever is not a tick counts as failure. -/
def Answer.status : Answer → Status
  | ticked status => status
  | _ => .failure

/-- How requests to shared trees are answered, and how plans become shared trees. -/
structure Service where
  ask : Operation → TreeId → World → Answer × World
  plant : PlanId → World → Option TreeId × World

namespace Service

/-- Makes requests one after the other; the result is the status of the last answer. -/
def send (s : Service) : List Request → Status → World → Status × World
  | [], last, w => (last, w)
  | (operation, tree) :: rest, _, w =>
    let answer := s.ask operation tree w
    s.send rest answer.1.status answer.2

/-- Finds the tree that a supplier's answer means.  A number or a name that no shared tree has means
none. -/
def find (s : Service) : Option Supply → World → Option TreeId × World
  | none, w => (none, w)
  | some (.existing tree), w => ((w.trees.get tree).map fun _ => tree, w)
  | some (.named name), w => (w.named? name, w)
  | some (.fresh plan), w => s.plant plan w

/-- Requests are answered one after the other. -/
theorem send_append (s : Service) (first second : List Request) (last : Status) (w : World) :
    s.send (first ++ second) last w =
      s.send second (s.send first last w).1 (s.send first last w).2 := by
  induction first generalizing last w with
  | nil => rfl
  | cons request rest ih =>
    rcases request with ⟨operation, tree⟩
    simp only [List.cons_append, send]
    exact ih _ _

end Service

/-! ## Callbacks at work -/

/-- Asks an operation of the shared tree of a name.  A tick is recorded with its status; nothing is
done when no tree has the name. -/
def Service.askNamed (s : Service) (operation : Operation) (name : String) (w : World) : World :=
  match w.named? name with
  | none => w
  | some tree =>
    let answer := s.ask operation tree w
    match operation with
    | .tick => answer.2.emit (.nested name answer.1.status)
    | _ => answer.2

/-- Carries out an effect. -/
def Effect.perform (s : Service) : Effect → World → World
  | .advance clock step, w => w.advance clock step
  | .set clock reading, w => w.setClock clock reading
  | .ask operation name, w => s.askNamed operation name w
  | .log level message, w => w.emit (.logged level message)
  | .fail fault, w => w.fail fault

/-- Carries out effects in order. -/
def Effect.performAll (s : Service) : List Effect → World → World
  | [], w => w
  | effect :: rest, w => performAll s rest (effect.perform s w)

/-- Calls a callback without recording the call. -/
def Callback.consult {α : Type} (s : Service) (c : Callback α) (w : World) : α × World :=
  let counted := w.countCall c.seat
  let reply := c.reply counted.1
  (reply.value, Effect.performAll s reply.effects counted.2)

/-- Calls a callback; the call is recorded before its effects. -/
def Callback.call {α : Type} (s : Service) (c : Callback α) (w : World) : α × World :=
  c.consult s (w.emit (.called c.seat c.label))

/-- The value of a supplier. -/
def Supplier.get {α : Type} (s : Service) : Supplier α → World → α × World
  | .constant value, w => (value, w)
  | .scripted callback, w => callback.call s w

/-- What a supplier gives is a value that it may give. -/
theorem Supplier.gives_get {α : Type} (s : Service) (supplier : Supplier α) (w : World) :
    supplier.Gives (supplier.get s w).1 := by
  cases supplier with
  | constant value => rfl
  | scripted callback => exact ⟨_, rfl⟩

end TickTree
