import TickTree.Proofs.Cooldown.Watch
import TickTree.Proofs.Soundness

/-!
# Sound states of running trees

All nodes of a tree are sound when the tree is made, every operation leaves them sound, and they
stay sound while time passes.  So no index of a tick is beyond the children, no time between two
readings is cut off at zero, and no bounded count wraps around.

Main results:

- Theorem `Node.sound_tick`: a tick leaves all nodes of a tree sound.
- Theorem `Node.sound_perform`: so do the other operations.
- Theorem `Node.Sound.exact`: the arithmetic of sound nodes is exact.
- Theorem `Node.sound_of_reachableAt`: a running tree is sound at all times.
-/

namespace TickTree

/-- What holds of the fields of all nodes in a tree. -/
inductive Node.Sound (w : World) : Node → Prop
  | leaf {part : Leaf} (h : part.Sound w) : Sound w (.leaf part)
  | composite {part : Composite} {children : List Node} (h : part.Sound children.length)
    (hchildren : ∀ child ∈ children, Sound w child) : Sound w (.composite part children)
  | decorator {part : Decorator} {child : Option Node} (h : part.Sound w)
    (hchild : ∀ inner, child = some inner → Sound w inner) : Sound w (.decorator part child)
  | reference (part : Reference) : Sound w (.reference part)
  | embedded {tag : Option Tag} {root : Node} (h : Sound w root) : Sound w (.embedded tag root)

namespace Node

/-! ## Operations -/

/-- A sound tree stays sound while time passes. -/
theorem Sound.mono {v w : World} (hlater : v.Earlier w) {n : Node} (h : n.Sound v) : n.Sound w := by
  induction h with
  | leaf h => exact .leaf (h.mono hlater)
  | composite h _ ih => exact .composite h ih
  | decorator h _ ih => exact .decorator (h.mono hlater) ih
  | reference part => exact .reference part
  | embedded _ ih => exact .embedded ih

/-- First states are sound. -/
theorem sound_cleared (w : World) (n : Node) : n.cleared.Sound w := by
  induction n with
  | leaf part => exact .leaf (part.sound_reset w)
  | composite part children ih =>
    rw [cleared, clearedChildren_eq]
    refine .composite (part.sound_reset _) ?_
    intro child hchild
    rcases List.mem_map.1 hchild with ⟨old, hold, rfl⟩
    exact ih old hold
  | decorator part child ih =>
    rw [cleared, clearedChild_eq]
    refine .decorator (part.sound_reset w) ?_
    intro inner hinner
    rcases Option.map_eq_some_iff.1 hinner with ⟨old, hold, rfl⟩
    exact ih old hold
  | reference part => exact .reference _
  | embedded tag root ih => exact .embedded ih

/-- A finish leaves a sound tree sound. -/
theorem Sound.finish {w : World} {n : Node} (h : n.Sound w) (s : Service) :
    (n.finish s w).1.Sound w := by
  induction h with
  | leaf h => exact .leaf h
  | composite h hchildren => exact .composite h hchildren
  | decorator h hchild => exact .decorator h hchild
  | reference part => exact .reference _
  | embedded _ ih => exact .embedded ih

section

variable {s : Service} (hs : ∀ clock, s.Forward clock)
include hs

/-- A tick leaves all nodes of a tree sound.  A child that its parent ticks in the middle of the
tick is sound then, and so it is when the parent is done. -/
theorem sound_tick {n : Node} {w : World} (h : n.Sound w) :
    (n.tick s w).state.Sound (n.tick s w).world := by
  have hreset : ∀ (k : Node) (u v : World), (k.reset s u).1.Sound v := by
    intro k u v
    rw [fst_reset]
    exact k.sound_cleared v
  induction n generalizing w with
  | leaf part =>
    cases h with
    | leaf h => exact .leaf (Leaf.sound_tick hs h)
  | composite part children ih =>
    cases h with
    | composite h hchildren =>
      have hlength := length_offers s children
      have hpasses : ∀ o ∈ offers s children, ∀ u : World, u.Earlier (o.tick u).world := by
        intro o ho u
        rcases exists_of_mem_offers ho with ⟨child, hmem, rfl⟩
        exact child.earlier_perform hs .tick u
      have hall : AllHandled World.Earlier (reset s) (offers s children) w _ _ :=
        part.handled_tick World.passage_earlier (fun k u => k.earlier_perform hs .reset u) hpasses w
      have hstates := hall.keep (P := fun v k => k.Sound v)
        (by
          intro o ho v hpass
          rcases exists_of_mem_offers ho with ⟨child, hmem, rfl⟩
          exact (hchildren child hmem).mono hpass)
        (by
          intro o ho u v hstart hstop
          rcases exists_of_mem_offers ho with ⟨child, hmem, rfl⟩
          exact (ih child hmem ((hchildren child hmem).mono hstart)).mono hstop)
        fun k u v _ _ _ => hreset k u v
      simp only [tick]
      refine .composite ?_ hstates
      rw [← hlength] at h
      rw [← hall.2.length_eq]
      exact part.sound_tick (reset s) h w
  | decorator part child ih =>
    have hlater : w.Earlier ((decorator part child).tick s w).world :=
      (decorator part child).earlier_perform hs .tick w
    cases h with
    | decorator h hchild =>
      simp only [tick] at hlater ⊢
      refine .decorator (Decorator.sound_tick h hlater) ?_
      cases child with
      | none =>
        intro inner hinner
        simp only [offer, Decorator.tick_none] at hinner
        cases hinner
      | some old =>
        have hhandles : Decorator.Handles World.Earlier (reset s) part ⟨old, old.tick s⟩ w
            (part.tick s (reset s) name _ w) :=
          part.handles_tick World.passage_earlier (fun k u => k.earlier_perform hs .reset u)
            (fun u => old.earlier_perform hs .tick u) (fun supplier u => supplier.earlier_get hs u)
            name w
        rcases hhandles.child with ⟨left, hleft, hhandled⟩
        have hsound : left.Sound (part.tick s (reset s) name _ w).world :=
          hhandled.keep (P := fun v k => k.Sound v) (fun v hpass => (hchild old rfl).mono hpass)
            (fun u v hstart hstop => (ih old rfl ((hchild old rfl).mono hstart)).mono hstop)
            fun k u v _ _ _ => hreset k u v
        intro inner hinner
        simp only [offer] at hinner ⊢
        rw [hleft] at hinner
        cases hinner
        exact hsound
  | reference part =>
    simp only [tick]
    exact .reference _
  | embedded tag root ih =>
    cases h with
    | embedded h =>
      simp only [tick]
      exact .embedded (ih h)

/-- Every operation leaves all nodes of a tree sound. -/
theorem sound_perform {n : Node} {w : World} (h : n.Sound w) (operation : Operation) :
    (n.perform s operation w).2.1.Sound (n.perform s operation w).2.2 := by
  have hlater := n.earlier_perform hs operation w
  cases operation with
  | tick => exact sound_tick hs h
  | reset =>
    simp only [perform] at hlater ⊢
    rw [fst_reset]
    exact n.sound_cleared _
  | start =>
    simp only [perform, fst_start] at hlater ⊢
    exact h.mono hlater
  | finish => exact (h.finish s).mono hlater

end

end Node

/-! ## Exact arithmetic -/

/-- The time between two readings is not cut off at zero. -/
def Duration.IsElapsed (since now : Duration) : Prop :=
  since.nanos + (now - since).nanos = now.nanos

/-- The time since an earlier reading is not cut off. -/
theorem Duration.isElapsed_of_le {since now : Duration} (h : since ≤ now) :
    since.IsElapsed now := by
  have hnanos : since.nanos ≤ now.nanos := h
  rw [IsElapsed, nanos_sub]
  omega

/-- The wait in progress is measured exactly. -/
def Timer.Exact (w : World) (timer : Timer) : Prop :=
  ∀ armed, timer.armed = some armed → armed.started.IsElapsed (w.now timer.clock)

/-- What a leaf computes in a tick: the time since it began to wait. -/
def Leaf.Exact (w : World) : Leaf → Prop
  | sleep timer => timer.Exact w
  | sleepUntil timer _ => timer.Exact w
  | sleepUntilIdle watch _ _ =>
    (∀ start, watch.started = some start → start.IsElapsed (w.now watch.clock)) ∧
      ∀ since, watch.idleSince = some since → since.IsElapsed (w.now watch.clock)
  | _ => True

/-- What a composite with so many children computes in a tick: positions of children.  The cursor
may come to stand behind the last child, where nothing is ticked any more; the choice of a random
selector may not. -/
def Composite.Exact (count : Nat) (w : World) : Composite → Prop
  | chain kind name cursor => cursor ≤ count ∧
    ∀ children : List (Offer Node), children.length = count →
      (kind.pass name cursor (children.drop cursor) w).position ≤ count
  | randomSelector source selected => 0 < count → (choose source selected count w).1 < count
  | parallel _ _ => True

/-- What a decorator computes in a tick: the next count, the time since a reading, and what is left
of a period. -/
def Decorator.Exact (w : World) : Decorator → Prop
  | repetition limit count => 0 ≤ limit.toInt → (count + 1).toInt = count.toInt + 1
  | retry limit count => 0 < limit.toInt → (count + 1).toInt = count.toInt + 1
  | cooldown clock _ last => ∀ stamp, last = some stamp → stamp.IsElapsed (w.now clock) ∧
    ∀ period left, cooldownLeft last period (w.now clock) = some left →
      (w.now clock - stamp).IsElapsed period ∧ left = period - (w.now clock - stamp)
  | sleepUntilSuccess timer => timer.Exact w
  | _ => True

/-- What a node computes in a tick is meant as it is written. -/
def Node.Exact (w : World) : Node → Prop
  | leaf part => part.Exact w
  | composite part children => part.Exact children.length w
  | decorator part _ => part.Exact w
  | _ => True

theorem Timer.Sound.exact {w : World} {timer : Timer} (h : timer.Sound w) : timer.Exact w :=
  fun armed harmed => Duration.isElapsed_of_le (h armed harmed)

theorem Leaf.Sound.exact {w : World} {part : Leaf} (h : part.Sound w) : part.Exact w := by
  cases part with
  | sleep timer => exact Timer.Sound.exact h
  | sleepUntil timer test => exact Timer.Sound.exact h
  | sleepUntilIdle watch test bypass =>
    exact ⟨fun start hstart => Duration.isElapsed_of_le (h.started start hstart),
      fun since hsince => Duration.isElapsed_of_le (h.streak since hsince).1⟩
  | action name body => trivial
  | condition name test => trivial
  | probe name script hooks => trivial
  | countdown name count remaining => trivial

theorem Composite.Sound.exact {count : Nat} {part : Composite} (h : part.Sound count) (w : World) :
    part.Exact count w := by
  cases part with
  | chain kind name cursor =>
    have hcursor : cursor ≤ count := by
      rcases h with hzero | hless <;> omega
    refine ⟨hcursor, ?_⟩
    intro children hcount
    have hposition := kind.position_pass_le name cursor (children.drop cursor) w
    rw [List.length_drop] at hposition
    omega
  | randomSelector source selected => exact fun hcount => choose_lt h hcount
  | parallel success failure => trivial

theorem Decorator.Sound.exact {w : World} {part : Decorator} (h : part.Sound w) : part.Exact w := by
  cases part with
  | repetition limit count =>
    intro hlimit
    exact toInt_count_add_one (isBounded_of_sound h hlimit).2.2
  | retry limit count =>
    intro hlimit
    exact toInt_count_add_one (.inr (Int32.lt_iff_toInt_lt.2 (h hlimit).2))
  | cooldown clock period last =>
    intro stamp hstamp
    refine ⟨Duration.isElapsed_of_le (h stamp hstamp), ?_⟩
    intro supplied left hleft
    rw [hstamp] at hleft
    simp only [cooldownLeft] at hleft
    split at hleft
    next hblocked =>
      cases hleft
      exact ⟨Duration.isElapsed_of_le (Nat.le_of_lt hblocked), rfl⟩
    next => cases hleft
  | sleepUntilSuccess timer => exact Timer.Sound.exact h
  | inverter => trivial
  | successRate source percentage => trivial

namespace Node

/-- Every node in a sound tree is sound. -/
theorem Sound.at? {w : World} {n m : Node} (h : n.Sound w) {path : List Nat}
    (hm : n.at? path = some m) : m.Sound w := by
  induction path generalizing n with
  | nil =>
    cases hm
    exact h
  | cons i rest ih =>
    cases h with
    | leaf h => cases hm
    | composite h hchildren =>
      rcases Option.bind_eq_some_iff.1 hm with ⟨child, hchild, hm⟩
      exact ih (hchildren child (List.mem_of_getElem? hchild)) hm
    | decorator h hchild =>
      rcases Option.bind_eq_some_iff.1 hm with ⟨inner, hinner, hm⟩
      exact ih (hchild inner hinner) hm
    | reference part => cases hm
    | embedded h => exact ih h hm

/-- The arithmetic of a sound node is exact. -/
theorem Sound.exact {w : World} {n : Node} (h : n.Sound w) : n.Exact w := by
  cases h with
  | leaf h => exact h.exact
  | composite h hchildren => exact h.exact w
  | decorator h hchild => exact h.exact
  | reference part => trivial
  | embedded h => trivial

/-! ## Running trees -/

/-- The states that a node can reach, with the worlds in which it can reach them.  Requests may be
answered in any way that sets no clock back, and between two operations the world may change at will
as long as no clock is set back. -/
inductive ReachableAt (made : Node) : Node → World → Prop
  | made (w : World) : ReachableAt made made w
  | perform {n : Node} {w : World} (h : ReachableAt made n w) (s : Service)
    (hs : ∀ clock, s.Forward clock) (operation : Operation) :
    ReachableAt made (n.perform s operation w).2.1 (n.perform s operation w).2.2
  | wait {n : Node} {v w : World} (h : ReachableAt made n v) (hlater : v.Earlier w) :
    ReachableAt made n w

/-- A running tree is sound at all times.  Whatever operations are carried out on a tree as it was
made, with any answers of callbacks and suppliers and with clocks that do not go back: the cursor of
a sequence or a selector is 0 or a child, the choice of a random selector is a child, bounded counts
are below their limits, and no kept reading lies in the future.  Therefore what any of its nodes
computes in a tick, then or later, is meant as it is written. -/
theorem sound_of_reachableAt {made n : Node} {w : World} (hmade : made.IsNew)
    (h : ReachableAt made n w) :
    n.Sound w ∧
    ∀ path m v, n.at? path = some m → w.Earlier v → m.Exact v := by
  have hsound : n.Sound w := by
    induction h with
    | made w =>
      rw [← made.isNew_iff.1 hmade]
      exact made.sound_cleared w
    | perform _ s hs operation ih => exact sound_perform hs ih operation
    | wait _ hlater ih => exact ih.mono hlater
  refine ⟨hsound, ?_⟩
  intro path m v hm hlater
  exact ((hsound.at? hm).mono hlater).exact

/-- A retry that failed once of two times, within a sequence, while its second child waits. -/
theorem sound_of_reachableAt_retried :
    let w := World.start (.empty .start) (.empty (.seeded 0))
    let made := Node.composite (.named .sequence "both")
      [.decorator (.retried 2) (some (.leaf (.fixed "no" .failure))),
        .leaf (.sleep (.new .zero ⟨0, 0, defaultSpread⟩))]
    let s := serve (plantFrom #[]) 1
    let n := (made.perform s .tick w).2.1
    n.at? [0] = some (.decorator (.retry 2 1) (some (.leaf (.fixed "no" .failure)))) ∧
      n.Sound (made.perform s .tick w).2.2 := by
  intro w made s n
  have hnew : made.IsNew := by
    refine .composite (.chain _ _) ?_
    intro child hchild
    rcases List.mem_cons.1 hchild with rfl | hchild
    · exact .decorator (.retried 2) (.leaf (.action _ _))
    · rw [List.mem_singleton.1 hchild]
      exact .leaf (.sleep _ _)
  have hreached : ReachableAt made n (made.perform s .tick w).2.2 :=
    .perform (.made w) s (fun clock => serve_forward #[] 1 clock) .tick
  exact ⟨rfl, (sound_of_reachableAt hnew hreached).1⟩

end Node

end TickTree
