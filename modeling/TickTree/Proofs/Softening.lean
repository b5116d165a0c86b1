import TickTree.Journal
import TickTree.Proofs.Coupling.Agreement
import TickTree.Proofs.Exchange.World

/-!
# Errors of callbacks

An error of an action counts as failure, and an error of a condition as a false answer.  So a tree
may be softened: each of its actions answers failure, and each of its conditions false, where the
callback gave an error.  The softened tree does the same as the tree itself in all courses, and the
worlds of the two are the same but for warnings.

What tells the two apart is in the history alone: an error leaves a warning, and a failure that was
answered leaves a note, which has no line in the journal.

Main results:

- Theorem `Exchange.softening_faithful`: softened leaves do alike.
- Theorem `World.SoftenedTo.calmJournal_eq`: without warnings the journals are the same.
- Theorem `Node.moves_exchanged`: courses go alike when leaves are exchanged.
- Theorem `Node.errors_count_as_failures`: courses go alike when all leaves are softened.
-/

namespace TickTree

/-! ## Softened leaves -/

/-- An answer, with a value in the place of an error. -/
def excused {α : Type} (value : α) : Except Failure α → Except Failure α
  | .ok given => .ok given
  | .error _ => .ok value

/-- A leaf that answers failure or false where its callback gives an error. -/
def Leaf.softened : Leaf → Leaf
  | action name body => action name (body.map (excused .failure))
  | condition name test => condition name (test.map (excused false))
  | part => part

/-- A leaf is not changed by softening exactly when its first state is not. -/
theorem Leaf.softened_reset_eq_iff (part : Leaf) :
    part.reset.softened = part.reset ↔ part.softened = part := by
  cases part with
  | action name body => exact Iff.rfl
  | condition name test => exact Iff.rfl
  | _ => exact iff_of_true rfl rfl

/-- A leaf that is not changed by softening is not after a tick. -/
theorem Leaf.softened_tick (s : Service) {part : Leaf} (h : part.softened = part) (w : World) :
    (part.tick s w).state.softened = (part.tick s w).state := by
  rw [← softened_reset_eq_iff, reset_tick, softened_reset_eq_iff]
  exact h

section

variable {α β : Type} (f : α → β) (supplier : Supplier α)

/-- A supplier keeps its seat when its values are changed by a function. -/
@[simp] theorem Supplier.seat?_map : (supplier.map f).seat? = supplier.seat? := by
  cases supplier <;> rfl

/-- A change of the values commutes with a change of the seat. -/
theorem Supplier.atSeat_map (seat : Nat) :
    (supplier.map f).atSeat seat = (supplier.atSeat seat).map f := by
  cases supplier <;> rfl

/-- Only the value that is supplied is changed by a function. -/
theorem Supplier.get_map (s : Service) (w : World) :
    (supplier.map f).get s w = (f (supplier.get s w).1, (supplier.get s w).2) := by
  cases supplier <;> rfl

end

/-- Every leaf is softened. -/
def Exchange.softening : Exchange where
  leaf := Leaf.softened
  name part := by cases part <;> rfl
  reset part := by cases part <;> rfl
  atSeat seat part := by
    cases part with
    | action name body => exact congrArg (Leaf.action name) (body.atSeat_map _ seat)
    | condition name test => exact congrArg (Leaf.condition name) (test.atSeat_map _ seat)
    | _ => rfl
  withConfig config part := by cases part <;> rfl
  observe operation part w := by cases part <;> rfl

/-! ## Softened worlds -/

/-- The event is neither a warning nor the note of a failure. -/
def Event.besidesErrors : Event → Bool
  | logged .warn _ => false
  | answered _ .failure => false
  | _ => true

/-- The lines of the events that count, without warnings. -/
def World.calmJournal (w : World) : List String :=
  (w.events.filter fun event => !event.isWarning).filterMap Event.line?

/-- The second world is the first one with all its trees softened, but for warnings and notes of
failure. -/
def World.SoftenedTo (v w : World) : Prop :=
  (v.exchange .softening).AgreeOn Event.besidesErrors w

/-- All work keeps worlds softened. -/
theorem World.tending_softenedTo : World.TendingBy .softening World.SoftenedTo :=
  (World.tending_agreeOn _).exchanged .softening

/-- Without warnings the journals are the same. -/
theorem World.SoftenedTo.calmJournal_eq {v w : World} (h : v.SoftenedTo w) :
    v.calmJournal = w.calmJournal := by
  have hlines : ∀ u : World,
      u.calmJournal = (u.events.filter Event.besidesErrors).filterMap Event.line? := by
    intro u
    unfold World.calmJournal
    rw [List.filterMap_filter, List.filterMap_filter]
    congr 1
    funext event
    cases event with
    | logged level message => cases level <;> rfl
    | answered seat status => cases status <;> rfl
    | _ => rfl
  rw [hlines, hlines, ← h.events_eq fun _ => rfl]
  rfl

/-- Softened leaves do alike: an error has the consequences of a failure or a false answer. -/
theorem Exchange.softening_faithful : Exchange.softening.Faithful World.SoftenedTo := by
  intro s t hs part v w hw
  have hR := World.tending_softenedTo.toCoupling
  have halike : part.softened = part → Ticked.Coupled (fun x y => x.softened = y)
      World.SoftenedTo (part.tick s v) (part.softened.tick t w) := by
    intro hpart
    rw [hpart]
    have htick := part.tick_coupled hR hs hw
    exact ⟨htick.status, (Leaf.softened_tick s hpart v).trans htick.state, htick.world⟩
  cases part with
  | action name body =>
    rcases (body.get_coupled hR hs hw).split with ⟨answer, v', w', hv, hw, hafter⟩
    simp only [softening, Leaf.softened, Leaf.tick, Supplier.get_map, Supplier.seat?_map, hv, hw]
    cases answer with
    | ok status => exact ⟨rfl, rfl, hR.emit _ hafter⟩
    | error failure =>
      -- The error leaves a warning on the first side, the failure a note on the second.
      exact ⟨rfl, rfl, World.AgreeOn.emit_right (hafter.emit_left rfl) rfl⟩
  | condition name test =>
    rcases (test.get_coupled hR hs hw).split with ⟨answer, v', w', hv, hw, hafter⟩
    simp only [softening, Leaf.softened, Leaf.tick, Supplier.get_map, hv, hw]
    cases answer with
    | ok holds => cases holds <;> exact ⟨rfl, rfl, hafter⟩
    | error failure => exact ⟨rfl, rfl, hafter.emit_left rfl⟩
  | sleep timer => exact halike rfl
  | sleepUntil timer test => exact halike rfl
  | sleepUntilIdle watch test bypass => exact halike rfl
  | probe name script hooks => exact halike rfl
  | countdown name count remaining => exact halike rfl

/-! ## Courses of softened trees -/

namespace Node

/-- Courses go alike when leaves are exchanged for others that do alike. -/
theorem moves_exchanged {e : Exchange} {R : World → World → Prop} {s t : Service}
    (hR : World.Coupling R) (he : e.Faithful R) (hs : Service.Alike R s t) (moves : List Move)
    (n : Node) {v w : World} (hw : R v w) :
    n.answers s moves v = (n.exchange e).answers t moves w ∧
      ExchangedAfter e R (n.left s moves v) ((n.exchange e).left t moves w) := by
  refine moves_related ?_ ?_ (x := (n, v)) (y := (n.exchange e, w)) ⟨rfl, hw⟩
  · rintro operation ⟨n, v⟩ ⟨m, w⟩ ⟨hn, hw⟩
    rw [← show n.exchange e = m from hn]
    exact perform_exchanged hR.toSharing (he.alike hR hs) operation n.madeOf_any hw
  · rintro effect - ⟨n, v⟩ ⟨m, w⟩ ⟨hn, hw⟩
    exact ⟨hn, Effect.performAll_coupled hR hs [effect] hw⟩

/-- Errors of callbacks count as failures.  Take a tree in any state and world, and the same tree in
the same world with every action of every tree answering failure, and every condition false, where
its callback gives an error, also in the trees that are still to be planted.  In all courses of
operations on the root and acts of the host, both give the same answers and are left in the same
state, in worlds that are the same but for warnings and notes of failure: the same other callbacks
are called and the same numbers are drawn, in the same order.  The journals differ in warnings
only. -/
theorem errors_count_as_failures (plans : Array TreePlan) (depth : Nat) (moves : List Move)
    (n : Node) (w : World) :
    let s := serve (plantFrom plans) depth
    let t := serve (plantFrom (plans.map (TreePlan.exchange .softening))) depth
    let soft := n.exchange .softening
    let after := n.left s moves w
    let softAfter := soft.left t moves (w.exchange .softening)
    n.answers s moves w = soft.answers t moves (w.exchange .softening) ∧
      after.1.exchange .softening = softAfter.1 ∧ after.2.SoftenedTo softAfter.2 ∧
      after.2.calmJournal = softAfter.2.calmJournal := by
  intro s t soft after softAfter
  have hservice := serve_exchanged World.tending_softenedTo Exchange.softening_faithful plans depth
  have hworld : w.SoftenedTo (w.exchange .softening) := .refl _
  rcases moves_exchanged World.tending_softenedTo.toCoupling Exchange.softening_faithful hservice
    moves n hworld with ⟨hanswers, hnode, hafter⟩
  exact ⟨hanswers, hnode, hafter, hafter.calmJournal_eq⟩

-- A selector goes on after an error as it does after a false answer; only the error is warned of.
example :
    let sensor := Leaf.condition "sensor" (.constant (.error ⟨"no signal", []⟩))
    let tree := composite (.ofKind .selector) [.leaf sensor, .leaf (.fixed "recover" .success)]
    let s := serve (plantFrom #[]) 0
    let w := World.start (.empty .start) (.empty (.seeded 0))
    let soft := tree.exchange .softening
    tree.answers s [.perform .tick] w = [.ticked .success] ∧
      soft.answers s [.perform .tick] w = [.ticked .success] ∧
      (tree.left s [.perform .tick] w).2.events.map Event.isWarning = [true, false, false] ∧
      (soft.left s [.perform .tick] w).2.events.map Event.isWarning = [false, false] := by
  intro sensor tree s w soft
  exact ⟨rfl, rfl, rfl, rfl⟩

end Node

end TickTree
