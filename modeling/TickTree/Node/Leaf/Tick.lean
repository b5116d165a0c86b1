import TickTree.Node.Leaf
import TickTree.Node.Offer

/-!
# Ticks of leaves

How leaves tick: what they ask, what they wait for, and what they report.

Main results:

- Definition `IdleWatch.tick`: the wait for an unbroken idle streak.
- Definition `Leaf.tick`: one tick of a leaf.
-/

namespace TickTree

/-- The answer of a bypass; without one the wait is not bypassed. -/
def IdleWatch.askBypass (s : Service) (bypass : Option (Supplier Bool)) (w : World) :
    Bool × World :=
  match bypass with
  | none => (false, w)
  | some bypass => bypass.get s w

/-- One tick of a wait for an idle streak.  The bypass is asked first; the clock is read before the
idle predicate is asked. -/
def IdleWatch.tick (s : Service) (watch : IdleWatch) (test : Supplier Bool)
    (bypass : Option (Supplier Bool)) (name : String) (w : World) : Ticked IdleWatch :=
  let bypassed := askBypass s bypass w
  if bypassed.1 then
    ⟨.success, watch.reset, bypassed.2⟩
  else
    let now := bypassed.2.now watch.clock
    let started := watch.started.getD now
    if watch.timeout < now - started then
      ⟨.failure, watch.reset, bypassed.2.report .debug s!"{name} timed out"⟩
    else
      let tested := test.get s bypassed.2
      if tested.1 then
        let since := watch.idleSince.getD now
        if watch.idleFor ≤ now - since then
          ⟨.success, watch.reset, tested.2⟩
        else
          ⟨.sleeping, { watch with started := some started, idleSince := some since }, tested.2⟩
      else
        ⟨.sleeping, { watch with started := some started, idleSince := none }, tested.2⟩

/-- One tick of a leaf. -/
def Leaf.tick (s : Service) (part : Leaf) (w : World) : Ticked Leaf :=
  match part with
  | .action name body =>
    match body.get s w with
    | (.ok status, w) => ⟨status, part, w.emit (.answered body.seat? status)⟩
    | (.error failure, w) =>
      let reason := failure.describe
      ⟨.failure, part, w.report .warn s!"{name}::tick() failed: {reason}"⟩
  | .condition name test =>
    match test.get s w with
    | (.ok true, w) => ⟨.success, part, w⟩
    | (.ok false, w) => ⟨.failure, part, w⟩
    | (.error failure, w) =>
      let reason := failure.describe
      ⟨.failure, part, w.report .warn s!"condition {name} raised an error: {reason}"⟩
  | .sleep timer =>
    match w.poll timer with
    | (true, timer, w) => ⟨.success, .sleep timer.disarm, w⟩
    | (false, timer, w) => ⟨.sleeping, .sleep timer, w⟩
  | .sleepUntil timer test =>
    let polled := w.poll timer
    let tested := test.get s polled.2.2
    let waiting := Leaf.sleepUntil polled.2.1 test
    if tested.1 then
      ⟨.success, waiting.reset, tested.2⟩
    else if polled.1 then
      ⟨.failure, waiting.reset, tested.2.report .debug s!"{waiting.name} timed out"⟩
    else
      ⟨.sleeping, waiting, tested.2⟩
  | .sleepUntilIdle watch test bypass =>
    (watch.tick s test bypass part.name w).map fun watch => .sleepUntilIdle watch test bypass
  | .probe name script _ =>
    let consulted := script.consult s (w.emit (.observed script.seat name .tick))
    ⟨consulted.1, part, consulted.2.emit (.answered (some script.seat) consulted.1)⟩
  | .countdown name count remaining =>
    match remaining with
    | 0 => ⟨.success, part, w⟩
    | remaining + 1 => ⟨.running, .countdown name count remaining, w⟩

end TickTree
