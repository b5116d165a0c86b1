import TickTree.Node.Offer
import TickTree.Node.Reference

/-!
# Ticks of references

A reference finds its target, makes the requests that this calls for, and has the status of the last
answer.

Main results:

- Definition `Reference.tick`: one tick of a reference.
-/

namespace TickTree

/-- Finds the target of a reference: a sub-tree without a target and a dynamic sub-tree ask the
supplier. -/
def Reference.resolve (s : Service) (r : Reference) (w : World) : Option TreeId × World :=
  if r.resolves then
    let w := match r.kind with
      | .sticky => w.report .debug s!"{r.name}::resolve()"
      | .dynamic => w
    let supplied := r.supplier.get s w
    s.find supplied.1 supplied.2
  else
    (r.held, w)

/-- Reports that nothing was found, or that a dynamic sub-tree has a new target. -/
def Reference.announce (r : Reference) (found : Option TreeId) (w : World) : World :=
  match found, r.kind with
  | none, _ => w.report .debug s!"{r.name} resolved to nothing"
  | some _, .sticky => w
  | some tree, .dynamic =>
    if r.switches tree then w.report .debug s!"{r.name} switched target tree" else w

/-- One tick of a reference: it has the status of its target, and fails without one. -/
def Reference.tick (s : Service) (r : Reference) (w : World) : Ticked Reference :=
  let resolved := r.resolve s w
  let w := r.announce resolved.1 resolved.2
  let sent := s.send (r.tickRequests resolved.1) .failure w
  ⟨sent.1, r.afterTick resolved.1, sent.2⟩

end TickTree
