import TickTree.Proofs.Reset.Continuation

/-!
# Worlds that agree

Two worlds agree when they have the same outside and the same first fault, and when their histories
are the same for all events of a certain sort.  Work that the two worlds do in the same way keeps
the agreement, and an event of another sort may happen in one of them alone.

Main results:

- Theorem `World.AgreeOn.emit_left`: an event of another sort may happen on one side.
- Theorem `World.AgreeOn.events_eq`: the events that count agree as well.
- Theorem `World.tending_agreeOn`: all work keeps an agreement of two worlds.
-/

namespace TickTree

namespace World

/-- An event of another sort adds nothing to the events of a sort. -/
theorem filter_history_emit {sort : Event → Bool} {event : Event} (h : sort event = false)
    (w : World) : (w.emit event).history.filter sort = w.history.filter sort :=
  List.filter_cons_of_neg (Bool.eq_false_iff.1 h)

/-- Two worlds agree on everything that work depends on, and on the events of a certain sort. -/
structure AgreeOn (sort : Event → Bool) (v w : World) : Prop where
  outside : v.SameOutside w
  fault : v.fault = w.fault
  events : v.history.filter sort = w.history.filter sort

variable {sort : Event → Bool} {v w : World}

theorem AgreeOn.refl (w : World) : w.AgreeOn sort w := ⟨rfl, rfl, rfl⟩

/-- An event on both sides. -/
theorem AgreeOn.emit (h : v.AgreeOn sort w) (event : Event) :
    (v.emit event).AgreeOn sort (w.emit event) :=
  ⟨h.outside, h.fault, by simp only [history_emit, List.filter_cons, h.events]⟩

/-- An event of another sort on one side. -/
theorem AgreeOn.emit_left (h : v.AgreeOn sort w) {event : Event} (hevent : sort event = false) :
    (v.emit event).AgreeOn sort w :=
  ⟨h.outside, h.fault, (filter_history_emit hevent v).trans h.events⟩

theorem AgreeOn.symm (h : v.AgreeOn sort w) : w.AgreeOn sort v :=
  ⟨h.outside.symm, h.fault.symm, h.events.symm⟩

/-- An event of another sort on the other side. -/
theorem AgreeOn.emit_right (h : v.AgreeOn sort w) {event : Event} (hevent : sort event = false) :
    v.AgreeOn sort (w.emit event) :=
  (h.symm.emit_left hevent).symm

/-- The events that count are the same for a sort to which all faults belong. -/
theorem AgreeOn.events_eq (h : v.AgreeOn sort w) (hsort : ∀ fault, sort (.broken fault) = true) :
    v.events.filter sort = w.events.filter sort := by
  have hfault : (fun event => !sort event || !Event.isFault event) =
      fun event => !event.isFault := by
    funext event
    cases event <;> simp [Event.isFault, hsort]
  have hcut : ∀ u : World, u.events.filter sort =
      (u.history.filter sort).reverse.takeWhile fun event => !event.isFault := by
    intro u
    rw [← List.filter_reverse, List.takeWhile_filter, hfault]
    rfl
  rw [hcut, hcut, h.events]

theorem AgreeOn.fail (h : v.AgreeOn sort w) (fault : Fault) :
    (v.fail fault).AgreeOn sort (w.fail fault) := by
  unfold World.fail
  rw [h.fault]
  split
  · exact h
  · refine ⟨h.outside, rfl, ?_⟩
    simp only [history_emit, List.filter_cons, h.events]

theorem AgreeOn.advance (h : v.AgreeOn sort w) (clock : ClockId) (step : Duration) :
    (v.advance clock step).AgreeOn sort (w.advance clock step) := by
  have houtside := tending_sameOutside.advance clock step h.outside
  have hclocks : v.clocks = w.clocks := congrArg Outside.clocks h.outside
  unfold World.advance at houtside ⊢
  rw [hclocks] at houtside ⊢
  split at houtside
  · exact ⟨houtside, h.fault, h.events⟩
  · exact h.fail _

/-- All work keeps the agreement. -/
theorem tending_agreeOn (sort : Event → Bool) : Tending (AgreeOn sort) where
  emit event h := h.emit event
  fail fault h := h.fail fault
  now clock h := tending_sameOutside.now clock h.outside
  advance clock step h := h.advance clock step
  setClock clock reading h :=
    ⟨tending_sameOutside.setClock clock reading h.outside, h.fault, h.events⟩
  draw draw take source h := by
    have hdrawn := tending_sameOutside.draw draw take source h.outside
    refine ⟨hdrawn.1, hdrawn.2, h.fault, ?_⟩
    simp only [drawWith, history_emit, List.filter_cons, h.events]
  countCall seat h :=
    have hcounted := tending_sameOutside.countCall seat h.outside
    ⟨hcounted.1, hcounted.2, h.fault, h.events⟩
  named name h := tending_sameOutside.named name h.outside
  found tree h := tending_sameOutside.found tree h.outside
  issue count h :=
    have hissued := tending_sameOutside.issue count h.outside
    ⟨hissued.1, hissued.2, h.fault, h.events⟩
  letLoose nodes h := ⟨tending_sameOutside.letLoose nodes h.outside, h.fault, h.events⟩
  addTree root h :=
    have hadded := tending_sameOutside.addTree root h.outside
    ⟨hadded.1, hadded.2, h.fault, h.events⟩
  tree tree h := tending_sameOutside.tree tree h.outside
  holdTree tree root h := ⟨tending_sameOutside.holdTree tree root h.outside, h.fault, h.events⟩
  putTree tree root h := ⟨tending_sameOutside.putTree tree root h.outside, h.fault, h.events⟩

end World

end TickTree
