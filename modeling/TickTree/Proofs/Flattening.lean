import TickTree.Proofs.Duality.Course
import TickTree.Proofs.Embedding
import TickTree.Proofs.Reset.Completion

/-!
# Chains in chains

A sequence among the children of a sequence can be replaced by its own children, and so can a
selector among the children of a selector.  The inner chain resets its children as soon as it
completes, the flat chain only when it completes itself.  In between the states of these children
differ, but no child is ticked again before it is reset, and a reset leaves the same first states.

A reset of a tree without references does nothing that could be seen elsewhere, apart from what
probes observe.  So it makes no difference how often such children are reset.

Main results:

- Theorem `Chain.pass_append`: a pass over two lists of children.
- Theorem `Splice.exists_pass`: the passes of both chains stop at the same child.
- Theorem `Node.nested_chains_flatten`: a chain in a chain does what the flat chain does.
-/

namespace TickTree

/-! ## Passes over parts of the children -/

namespace Chain

variable {κ : Type}

/-- When the first children of a pass let it go on, it goes on with the others. -/
theorem pass_append (kind : Chain) (name : String) (position : Nat) (first others : List (Offer κ))
    (w : World) :
    kind.pass name position (first ++ others) w =
      let earlier := kind.pass name position first w
      let later := kind.pass name earlier.position others earlier.world
      if earlier.status = kind.passes then
        { later with states := earlier.states ++ later.states }
      else
        { earlier with states := earlier.states ++ others.map Offer.state } := by
  induction first generalizing position w with
  | nil => simp only [List.nil_append, pass, if_true]
  | cons child rest ih =>
    simp only [List.cons_append, pass]
    by_cases hgoes : (child.tick w).status = kind.passes
    · simp only [if_pos hgoes, ih]
      split
      · rfl
      · rfl
    · simp only [if_neg hgoes, List.map_append, List.cons_append]

/-- A pass that every child lets go on stops at the end. -/
theorem position_pass_of_passes {kind : Chain} {name : String} {position : Nat}
    {children : List (Offer κ)} {w : World}
    (h : (kind.pass name position children w).status = kind.passes) :
    (kind.pass name position children w).position = position + children.length := by
  induction children generalizing position w with
  | nil => rfl
  | cons child rest ih =>
    simp only [pass, List.length_cons] at h ⊢
    split at h
    next hgoes =>
      rw [if_pos hgoes]
      exact (ih h).trans (Nat.add_right_comm position 1 rest.length)
    next hstops => exact absurd h hstops

/-- The status that lets a chain go on is a completed one. -/
theorem isCompleted_passes (kind : Chain) : kind.passes.isCompleted = true := by
  cases kind <;> rfl

end Chain

/-! ## Worlds with the same work -/

/-- Two worlds agree on all work: on everything but log records and what probes observe besides
ticks. -/
abbrev World.SameWork : World → World → Prop := World.AgreeOn (Event.isWork [])

/-- Log records are no work. -/
theorem World.deaf_sameWork : World.Deaf World.SameWork := World.deaf_agreeOn fun _ _ => rfl

namespace Node

/-- A tree without references. -/
abbrev Apart (n : Node) : Prop := n.Standalone fun _ _ => True

section

variable {s : Service} {v w : World}

/-- Resets of trees without references are no work. -/
theorem sameWork_resetAll {nodes : List Node} (h : ∀ n ∈ nodes, n.Apart) (s : Service)
    (hw : v.SameWork w) : (resetAll (reset s) nodes v).2.SameWork w := by
  induction nodes generalizing v with
  | nil => exact hw
  | cons n rest ih =>
    have hfirst : (n.reset s v).2.SameWork w :=
      (h n List.mem_cons_self).perform_observes (P := fun u => u.SameWork w)
        (show Operation.reset ≠ .tick by decide) (fun _ _ _ hu => hu.emit_left rfl) s hw
    exact ih (fun n hn => h n (List.mem_cons_of_mem _ hn)) hfirst

/-- Resetting several nodes, and then others. -/
theorem snd_resetAll_append (s : Service) (nodes others : List Node) (w : World) :
    (resetAll (reset s) (nodes ++ others) w).2 =
      (resetAll (reset s) others (resetAll (reset s) nodes w).2).2 := by
  induction nodes generalizing w with
  | nil => rfl
  | cons n rest ih => exact ih (n.reset s w).2

/-- Whether trees refer to others can be seen from their first states. -/
theorem apart_of_map_cleared_eq {nodes others : List Node} (h : ∀ n ∈ nodes, n.Apart)
    (hsame : others.map cleared = nodes.map cleared) : ∀ n ∈ others, n.Apart := by
  intro n hn
  have hmem : n.cleared ∈ nodes.map cleared := hsame ▸ List.mem_map_of_mem hn
  rcases List.mem_map.1 hmem with ⟨m, hm, hcleared⟩
  exact (h m hm).of_cleared_eq hcleared.symm

variable (hs : Service.Alike World.SameWork s s)

include hs in
/-- Resetting the same nodes is the same work. -/
theorem resetAll_sameWork (nodes : List Node) (hw : v.SameWork w) :
    (resetAll (reset s) nodes v).2.SameWork (resetAll (reset s) nodes w).2 := by
  induction nodes generalizing v w with
  | nil => exact hw
  | cons n rest ih =>
    have hcoupling := (World.tending_agreeOn (Event.isWork [])).toCoupling
    exact ih (n.reset_coupled hcoupling (fun operation _ => hs.ask operation) hw).2

/-- Two passes over the same nodes did the same work, from a position each. -/
structure PassedAlike (p q : Nat) (x y : Pass Node) : Prop where
  status : x.status = y.status
  moved : x.position + q = y.position + p
  states : x.states = y.states
  world : x.world.SameWork y.world

include hs in
/-- The name of a chain and the place of its children in it make no difference to a pass. -/
theorem passedAlike (kind : Chain) (name former : String) (p q : Nat) (children : List Node)
    (hw : v.SameWork w) :
    PassedAlike p q (kind.pass name p (offers s children) v)
      (kind.pass former q (offers s children) w) := by
  have hcoupling := (World.tending_agreeOn (Event.isWork [])).toCoupling
  induction children generalizing p q v w with
  | nil => exact ⟨rfl, Nat.add_comm p q, rfl, hw⟩
  | cons child rest ih =>
    have htick := child.tick_coupled hcoupling hs hw
    simp only [offers, Chain.pass, htick.status, htick.state]
    split
    · have hlogged := World.deaf_sameWork.left .trace s!"{name} {kind.progress} {p + 1}"
        (World.deaf_sameWork.right .trace s!"{former} {kind.progress} {q + 1}" htick.world)
      rcases ih (p + 1) (q + 1) hlogged with ⟨hstatus, hmoved, hstates, hworld⟩
      exact ⟨hstatus, by simp only; omega, congrArg (List.cons _) hstates, hworld⟩
    · exact ⟨rfl, Nat.add_comm p q, rfl, htick.world⟩

end

/-- A tick of a chain is a pass from its cursor, and a reset if the pass ends the activation. -/
theorem tick_chain (s : Service) (kind : Chain) (name : String) (cursor : Nat)
    (children : List Node) (w : World) :
    let pass := kind.pass name cursor (offers s (children.drop cursor)) w
    let states := children.take cursor ++ pass.states
    (composite (.chain kind name cursor) children).tick s w =
      if pass.status.isCompleted then
        ⟨pass.status, composite (.chain kind name 0) (states.map cleared),
          (resetAll (reset s) states pass.world).2⟩
      else ⟨pass.status, composite (.chain kind name pass.position) states, pass.world⟩ := by
  have hbefore : ((offers s children).take cursor).map Offer.state = children.take cursor := by
    rw [List.map_take, states_offers]
  have hafter : (offers s children).drop cursor = offers s (children.drop cursor) := by
    rw [offers_eq, offers_eq, List.map_drop]
  simp only [tick, Composite.tick, Composite.settle, hbefore, hafter]
  split
  · simp only [Ticked.map, fst_resetAll, Composite.reset]
  · rfl

/-- What a chain comes to in a tick, beside a pass of another chain over the same children from the
cursor on: it gives the status of that pass, and the children have the same first states. -/
structure TurnAlike (kind : Chain) (name : String) (cursor q : Nat) (children : List Node)
    (t : Ticked Node) (x : Pass Node) : Prop where
  status : t.status = x.status
  world : t.world.SameWork x.world
  /-- The chain is left at its first child, with all children reset, or where the pass has
  stopped. -/
  state : (t.status.isCompleted = true ∧
      t.state = composite (.chain kind name 0) ((children.take cursor ++ x.states).map cleared)) ∨
    (t.status.isCompleted = false ∧ ∃ next ≤ children.length, x.position + cursor = q + next ∧
      t.state = composite (.chain kind name next) (children.take cursor ++ x.states))

/-- Lists with the same first states are equally long. -/
theorem length_eq_of_map_cleared_eq {nodes others : List Node}
    (h : others.map cleared = nodes.map cleared) : others.length = nodes.length := by
  simpa only [List.length_map] using congrArg List.length h

/-- First states keep their first states. -/
theorem map_cleared_cleared (nodes : List Node) :
    (nodes.map cleared).map cleared = nodes.map cleared := by
  rw [← clearedChildren_eq, ← clearedChildren_eq, clearedChildren_cleared]

/-- A pass keeps the first states of all children. -/
theorem map_cleared_pass (s : Service) (kind : Chain) (name : String) (position : Nat)
    (children : List Node) (w : World) :
    (kind.pass name position (offers s children) w).states.map cleared =
      children.map cleared := by
  have hall : AllHandled (fun _ _ => True) (reset s) (offers s children) w _ _ :=
    kind.handled_pass World.passage_true (fun _ _ _ => trivial) name position w
  refine (hall.views_eq cleared (fun o ho u => ?_) fun k u => ?_).trans ?_
  · rcases exists_of_mem_offers ho with ⟨child, -, rfl⟩
    exact cleared_tick s child u
  · rw [fst_reset, cleared_cleared]
  · rw [offers_eq, List.map_map]
    rfl

/-- So do all children of a chain together, those before its cursor included. -/
theorem map_cleared_take_pass (s : Service) (kind : Chain) (name : String) (cursor position : Nat)
    (children : List Node) (w : World) :
    (children.take cursor ++
        (kind.pass name position (offers s (children.drop cursor)) w).states).map cleared =
      children.map cleared := by
  rw [List.map_append, map_cleared_pass, ← List.map_append, List.take_append_drop]

/-- The chain whose children have no references ticks beside such a pass. -/
theorem turnAlike {s : Service} (hs : Service.Alike World.SameWork s s) (kind : Chain)
    (name former : String) {cursor : Nat} (q : Nat) {children : List Node}
    (hcursor : cursor ≤ children.length) (hapart : ∀ n ∈ children, n.Apart) {v w : World}
    (hw : v.SameWork w) :
    TurnAlike kind name cursor q children ((composite (.chain kind name cursor) children).tick s v)
      (kind.pass former q (offers s (children.drop cursor)) w) := by
  rcases passedAlike hs kind name former cursor q (children.drop cursor) hw with
    ⟨hstatus, hmoved, hstates, hworld⟩
  have hbound := kind.position_pass_le name cursor (offers s (children.drop cursor)) v
  rw [length_offers, List.length_drop] at hbound
  have hkept := map_cleared_take_pass s kind name cursor cursor children v
  rw [hstates] at hkept
  rw [tick_chain, hstates]
  split
  next hcompleted =>
    exact ⟨hstatus, sameWork_resetAll (apart_of_map_cleared_eq hapart hkept) s hworld,
      .inl ⟨hcompleted, rfl⟩⟩
  next hpending =>
    refine ⟨hstatus, hworld, .inr ⟨Bool.eq_false_iff.2 hpending, _, ?_, ?_, rfl⟩⟩
    · omega
    · omega

end Node

/-! ## A chain in a chain, and the flat chain -/

open Node (Apart cleared composite offers)

/-- The children of a chain, one of which is a chain itself, and those of the flat chain. -/
structure Splice where
  before : List Node
  /-- The child of the inner chain whose turn it is. -/
  cursor : Nat
  /-- The children of the inner chain. -/
  inner : List Node
  /-- The same children in the flat chain. -/
  flat : List Node
  after : List Node

namespace Splice

/-- The children of the outer chain. -/
def nested (kind : Chain) (name : String) (l : Splice) : List Node :=
  l.before ++ composite (.chain kind name l.cursor) l.inner :: l.after

/-- The children of the flat chain. -/
def flattened (l : Splice) : List Node := l.before ++ (l.flat ++ l.after)

/-- The children of the inner chain have no references, and they have the same first states in the
flat chain. -/
structure Sound (l : Splice) : Prop where
  apart : ∀ n ∈ l.inner, n.Apart
  same : l.flat.map cleared = l.inner.map cleared

/-- The inner chain has completed and was reset, and the others are as they were left. -/
def completed (l : Splice) (flat after : List Node) : Splice :=
  ⟨l.before, 0, flat.map cleared, flat, after⟩

/-- The inner chain is pending. -/
def pending (l : Splice) (cursor : Nat) (inner : List Node) : Splice :=
  ⟨l.before, cursor, inner, inner, l.after⟩

/-- A reset of the inner chain leaves first states. -/
theorem Sound.sound_completed {l : Splice} (hl : l.Sound) {flat : List Node}
    (hflat : flat.map cleared = l.inner.map cleared) (after : List Node) :
    (l.completed flat after).Sound :=
  ⟨Node.apart_of_map_cleared_eq hl.apart ((Node.map_cleared_cleared flat).trans hflat),
    (Node.map_cleared_cleared flat).symm⟩

/-- Where the outer and the flat chain stand when they are pending. -/
inductive Stand (l : Splice) (p q : Nat) : Prop
  /-- The inner chain has not completed: the states of its children are the same in the flat chain,
  and it stands at its first child unless it is its turn. -/
  | within (hsame : l.flat = l.inner) (hp : p ≤ l.before.length)
    (hcursor : l.cursor ≤ l.inner.length) (hturn : l.cursor = 0 ∨ p = l.before.length)
    (hq : q = p + l.cursor) : Stand l p q
  /-- The inner chain has completed and was reset. -/
  | beyond (i : Nat) (hcursor : l.cursor = 0) (hp : p = l.before.length + 1 + i)
    (hq : q = l.before.length + (l.flat.length + i)) : Stand l p q

/-- Passes of the outer and the flat chain end alike, and leave them as a splice says. -/
structure Leaves (l : Splice) (x y : Pass Node) : Prop where
  sound : l.Sound
  status : x.status = y.status
  world : x.world.SameWork y.world
  stand : x.status.isCompleted = false → l.Stand x.position y.position

/-- Passes that begin when it is the turn of the inner chain end alike, and leave the children
before it as they are. -/
structure LeavesFrom (kind : Chain) (name : String) (l left : Splice) (x y : Pass Node) : Prop where
  leaves : left.Leaves x y
  before : left.before = l.before
  nested : x.states = composite (.chain kind name left.cursor) left.inner :: left.after
  flattened : l.flat.take l.cursor ++ y.states = left.flat ++ left.after

section

variable {s : Service} (hs : Service.Alike World.SameWork s s) (kind : Chain)
  (outer name former : String) {v w : World}

include hs in
/-- The inner chain lets the pass go on: it has completed and was reset, and both chains go on
behind it. -/
theorem exists_pass_onward {l : Splice} (hl : l.Sound) (hsame : l.flat = l.inner) {q : Nat}
    {t : Ticked Node} {z : Pass Node} (hturn : Node.TurnAlike kind name l.cursor q l.inner t z)
    (hkept : (l.inner.take l.cursor ++ z.states).map cleared = l.inner.map cleared)
    (hgoes : t.status = kind.passes) (hend : z.position = l.before.length + l.inner.length) :
    let x := kind.pass outer (l.before.length + 1) (offers s l.after)
      (t.world.report .trace s!"{outer} {kind.progress} {l.before.length + 1}")
    let y := kind.pass former z.position (offers s l.after) z.world
    ∃ left : Splice, LeavesFrom kind name l left { x with states := t.state :: x.states }
      { y with states := z.states ++ y.states } := by
  intro x y
  rcases hturn.state with ⟨-, hstate⟩ | ⟨hpending, -⟩
  · have hlater := Node.passedAlike hs kind outer former (l.before.length + 1) z.position l.after
      (World.deaf_sameWork.left .trace s!"{outer} {kind.progress} {l.before.length + 1}"
        hturn.world)
    have hstart : l.before.length + 1 ≤ x.position := kind.le_position_pass outer _ _ _
    have hmoved : x.position + z.position = y.position + (l.before.length + 1) := hlater.moved
    have hcount := Node.length_eq_of_map_cleared_eq hkept
    refine ⟨l.completed (l.inner.take l.cursor ++ z.states) x.states,
      ⟨hl.sound_completed hkept _, hlater.status, hlater.world,
        fun _ => .beyond _ rfl (Nat.add_sub_of_le hstart).symm ?_⟩, rfl, ?_, ?_⟩
    · simp only [completed, hcount]
      omega
    · simp only [completed, hstate]
    · simp only [completed, hsame, x, y, hlater.states, List.append_assoc]
  · rw [hgoes, kind.isCompleted_passes] at hpending
    cases hpending

/-- The inner chain stops the pass, completed or pending. -/
theorem exists_pass_stopped {l : Splice} (hl : l.Sound) (hsame : l.flat = l.inner)
    {t : Ticked Node} {z : Pass Node}
    (hturn : Node.TurnAlike kind name l.cursor (l.before.length + l.cursor) l.inner t z)
    (hkept : (l.inner.take l.cursor ++ z.states).map cleared = l.inner.map cleared) :
    ∃ left : Splice,
      LeavesFrom kind name l left ⟨t.status, l.before.length, t.state :: l.after, t.world⟩
        { z with states := z.states ++ l.after } := by
  rcases hturn.state with ⟨hcompleted, hstate⟩ | ⟨-, next, hnext, hmoved, hstate⟩
  · refine ⟨l.completed (l.inner.take l.cursor ++ z.states) l.after,
      ⟨hl.sound_completed hkept _, hturn.status, hturn.world, fun hpending => ?_⟩, rfl, ?_, ?_⟩
    · rw [hcompleted] at hpending
      cases hpending
    · simp only [completed, hstate]
    · simp only [completed, hsame, List.append_assoc]
  · have hcount : (l.inner.take l.cursor ++ z.states).length = l.inner.length := by
      simpa only [List.length_map] using congrArg List.length hkept
    refine ⟨l.pending next (l.inner.take l.cursor ++ z.states),
      ⟨⟨Node.apart_of_map_cleared_eq hl.apart hkept, rfl⟩, hturn.status, hturn.world,
        fun _ => .within rfl (Nat.le_refl _) (hcount ▸ hnext) (.inr rfl) ?_⟩, rfl, ?_, ?_⟩
    · simp only [pending]
      omega
    · simp only [pending, hstate]
    · simp only [pending, hsame, List.append_assoc]

include hs in
/-- Passes that begin when it is the turn of the inner chain. -/
theorem exists_pass_inner {l : Splice} (hl : l.Sound) (hsame : l.flat = l.inner)
    (hcursor : l.cursor ≤ l.inner.length) (hw : v.SameWork w) :
    ∃ left : Splice, LeavesFrom kind name l left
      (kind.pass outer l.before.length
        (offers s (composite (.chain kind name l.cursor) l.inner :: l.after)) v)
      (kind.pass former (l.before.length + l.cursor)
        (offers s (l.flat.drop l.cursor ++ l.after)) w) := by
  have hturn := Node.turnAlike hs kind name former (l.before.length + l.cursor) hcursor hl.apart hw
  have hkept := Node.map_cleared_take_pass s kind former l.cursor (l.before.length + l.cursor)
    l.inner w
  simp only [hsame, Node.offers_append, Chain.pass_append, offers, Chain.pass]
  by_cases hgoes :
      ((composite (.chain kind name l.cursor) l.inner).tick s v).status = kind.passes
  · have hend := Chain.position_pass_of_passes (hturn.status.symm.trans hgoes)
    rw [Node.length_offers, List.length_drop] at hend
    rw [if_pos hgoes, if_pos (hturn.status ▸ hgoes)]
    exact exists_pass_onward hs kind outer name former hl hsame hturn hkept hgoes (by omega)
  · rw [if_neg hgoes, if_neg (hturn.status ▸ hgoes), Node.states_offers]
    exact exists_pass_stopped kind name hl hsame hturn hkept

/-- Where the outer chain stands when the inner one has not completed. -/
theorem nested_within {l : Splice} {p : Nat} (hp : p ≤ l.before.length) :
    (l.nested kind name).take p = l.before.take p ∧
      (l.nested kind name).drop p =
        l.before.drop p ++ composite (.chain kind name l.cursor) l.inner :: l.after :=
  ⟨List.take_append_of_le_length hp, List.drop_append_of_le_length hp⟩

/-- Where the flat chain stands then. -/
theorem flattened_within {l : Splice} {p : Nat} (hp : p ≤ l.before.length)
    (hcursor : l.cursor ≤ l.flat.length) (hturn : l.cursor = 0 ∨ p = l.before.length) :
    l.flattened.take (p + l.cursor) = l.before.take p ++ l.flat.take l.cursor ∧
      l.flattened.drop (p + l.cursor) =
        l.before.drop p ++ (l.flat.drop l.cursor ++ l.after) := by
  unfold flattened
  rcases hturn with hfirst | rfl
  · rw [hfirst, Nat.add_zero, List.take_append_of_le_length hp, List.drop_append_of_le_length hp]
    exact ⟨(List.append_nil _).symm, rfl⟩
  · rw [List.take_length_add_append, List.drop_length_add_append, List.take_length,
      List.drop_length, List.take_append_of_le_length hcursor,
      List.drop_append_of_le_length hcursor]
    exact ⟨rfl, rfl⟩

include hs in
/-- Passes that begin before the inner chain has completed. -/
theorem exists_pass_within {l : Splice} {p : Nat} (hl : l.Sound) (hsame : l.flat = l.inner)
    (hp : p ≤ l.before.length) (hcursor : l.cursor ≤ l.inner.length)
    (hturn : l.cursor = 0 ∨ p = l.before.length) (hw : v.SameWork w) :
    let x := kind.pass outer p (offers s ((l.nested kind name).drop p)) v
    let y := kind.pass former (p + l.cursor) (offers s (l.flattened.drop (p + l.cursor))) w
    ∃ left : Splice, left.Leaves x y ∧
      (l.nested kind name).take p ++ x.states = left.nested kind name ∧
      l.flattened.take (p + l.cursor) ++ y.states = left.flattened := by
  intro x y
  rcases nested_within kind name hp with ⟨hntake, hndrop⟩
  rcases flattened_within hp (hsame ▸ hcursor) hturn with ⟨hftake, hfdrop⟩
  have hpassed := Node.passedAlike hs kind outer former p (p + l.cursor) (l.before.drop p) hw
  have hbound := kind.position_pass_le outer p (offers s (l.before.drop p)) v
  have hend : (kind.pass outer p (offers s (l.before.drop p)) v).status = kind.passes → _ :=
    Chain.position_pass_of_passes
  rw [Node.length_offers, List.length_drop, Nat.add_sub_of_le hp] at hbound hend
  have hcount := Node.length_eq_of_map_cleared_eq
    (Node.map_cleared_take_pass s kind outer p p l.before v)
  have hnone : p = l.before.length → kind.pass outer p (offers s (l.before.drop p)) v =
      ⟨kind.passes, p, [], v⟩ := by
    intro hend
    rw [hend, List.drop_length]
    rfl
  simp only [x, y, hndrop, hfdrop, hntake, hftake, Node.offers_append s (l.before.drop p),
    Chain.pass_append]
  generalize kind.pass outer p (offers s (l.before.drop p)) v = c at *
  generalize kind.pass former (p + l.cursor) (offers s (l.before.drop p)) w = d at *
  have hmoved := hpassed.moved
  by_cases hgoes : c.status = kind.passes
  · -- Both come to the inner chain.
    have hswap : l.flat.take l.cursor ++ d.states = d.states ++ l.flat.take l.cursor := by
      rcases hturn with hfirst | hend
      · rw [hfirst, List.take_zero, List.append_nil, List.nil_append]
      · rw [← hpassed.states, hnone hend, List.append_nil, List.nil_append]
    have hplace : d.position = l.before.length + l.cursor := by
      have := hend hgoes
      omega
    rcases exists_pass_inner (l := { l with before := l.before.take p ++ c.states }) hs kind outer
      name former ⟨hl.apart, hl.same⟩ hsame hcursor hpassed.world with
      ⟨left, hleft, hbefore, hnested, hflat⟩
    rw [hcount] at hleft hnested hflat
    rw [if_pos hgoes, if_pos (hpassed.status ▸ hgoes), hend hgoes, hplace]
    refine ⟨left, ⟨hleft.sound, hleft.status, hleft.world, hleft.stand⟩, ?_, ?_⟩
    · simp only [nested, hbefore, hnested, List.append_assoc]
    · simp only [flattened, hbefore, ← hflat, hpassed.states, List.append_assoc]
      rw [← List.append_assoc (l.flat.take l.cursor), hswap, List.append_assoc]
  · -- Both stop before the inner chain.
    rw [if_neg hgoes, if_neg (hpassed.status ▸ hgoes)]
    have hfirst : l.cursor = 0 := by
      rcases hturn with hfirst | hend
      · exact hfirst
      · rw [hnone hend] at hgoes
        exact absurd rfl hgoes
    refine ⟨{ l with before := l.before.take p ++ c.states }, ⟨⟨hl.apart, hl.same⟩,
      hpassed.status, hpassed.world, fun _ => .within hsame ?_ hcursor (.inl hfirst) ?_⟩, ?_, ?_⟩
    · rw [hcount]
      exact hbound
    · simp only
      omega
    · simp only [nested, Node.states_offers, List.append_assoc]
    · simp only [flattened, Node.states_offers, hpassed.states, hfirst, List.take_zero,
        List.drop_zero, List.append_nil, List.append_assoc]

include hs in
/-- Passes that begin behind the inner chain. -/
theorem exists_pass_beyond {l : Splice} (hl : l.Sound) (hcursor : l.cursor = 0) (i : Nat)
    (hw : v.SameWork w) :
    let p := l.before.length + 1 + i
    let q := l.before.length + (l.flat.length + i)
    let x := kind.pass outer p (offers s ((l.nested kind name).drop p)) v
    let y := kind.pass former q (offers s (l.flattened.drop q)) w
    ∃ left : Splice, left.Leaves x y ∧
      (l.nested kind name).take p ++ x.states = left.nested kind name ∧
      l.flattened.take q ++ y.states = left.flattened := by
  intro p q x y
  have hplace : p = l.before.length + (i + 1) := by omega
  have hpassed := Node.passedAlike hs kind outer former p q (l.after.drop i) hw
  have hstart := kind.le_position_pass outer p (offers s (l.after.drop i)) v
  have hstart' : l.before.length + 1 ≤
      (kind.pass outer p (offers s (l.after.drop i)) v).position := by omega
  simp only [x, y, nested, flattened, hplace, q, List.drop_length_add_append,
    List.take_length_add_append, List.drop_succ_cons, List.take_succ_cons] at hpassed hstart' ⊢
  generalize kind.pass outer (l.before.length + (i + 1)) (offers s (l.after.drop i)) v = c at *
  have hmoved := hpassed.moved
  refine ⟨{ l with after := l.after.take i ++ c.states }, ⟨⟨hl.apart, hl.same⟩, hpassed.status,
    hpassed.world, fun _ => .beyond _ hcursor (Nat.add_sub_of_le hstart').symm ?_⟩, ?_, ?_⟩
  · simp only
    omega
  · simp only [List.cons_append, List.append_assoc]
  · simp only [hpassed.states, List.append_assoc]

include hs in
/-- The passes of both chains stop at the same child, wherever the chains stand. -/
theorem exists_pass {l : Splice} {p q : Nat} (hl : l.Sound) (hstand : l.Stand p q)
    (hw : v.SameWork w) :
    let x := kind.pass outer p (offers s ((l.nested kind name).drop p)) v
    let y := kind.pass former q (offers s (l.flattened.drop q)) w
    ∃ left : Splice, left.Leaves x y ∧
      (l.nested kind name).take p ++ x.states = left.nested kind name ∧
      l.flattened.take q ++ y.states = left.flattened := by
  cases hstand with
  | within hsame hp hcursor hturn hq =>
    subst hq
    exact exists_pass_within hs kind outer name former hl hsame hp hcursor hturn hw
  | beyond i hcursor hp hq =>
    subst hp
    subst hq
    exact exists_pass_beyond hs kind outer name former hl hcursor i hw

end

/-- Both chains have been reset. -/
def clear (l : Splice) : Splice :=
  ⟨l.before.map cleared, 0, l.inner.map cleared, l.inner.map cleared, l.after.map cleared⟩

theorem Sound.clear {l : Splice} (hl : l.Sound) : l.clear.Sound :=
  ⟨Node.apart_of_map_cleared_eq hl.apart (Node.map_cleared_cleared l.inner), rfl⟩

/-- Both chains begin at their first children. -/
theorem stand_clear (l : Splice) : l.clear.Stand 0 0 :=
  .within rfl (Nat.zero_le _) (Nat.zero_le _) (.inl rfl) rfl

theorem map_cleared_nested (kind : Chain) (name : String) (l : Splice) :
    (l.nested kind name).map cleared = l.clear.nested kind name := by
  simp only [nested, clear, List.map_append, List.map_cons, Node.cleared, Node.clearedChildren_eq,
    Composite.reset]

theorem Sound.map_cleared_flattened {l : Splice} (hl : l.Sound) :
    l.flattened.map cleared = l.clear.flattened := by
  simp only [flattened, Splice.clear, List.map_append, hl.same]

section

variable {s : Service} (hs : Service.Alike World.SameWork s s) (kind : Chain)
  (outer name former : String) {v w : World}

include hs in
/-- Resets of all children are the same work for both chains. -/
theorem Sound.resetAll_sameWork {l : Splice} (hl : l.Sound) (hw : v.SameWork w) :
    (resetAll (Node.reset s) (l.nested kind name) v).2.SameWork
      (resetAll (Node.reset s) l.flattened w).2 := by
  have hbefore := Node.resetAll_sameWork hs l.before hw
  have hflat := Node.apart_of_map_cleared_eq hl.apart hl.same
  have hnested := Node.sameWork_resetAll hl.apart s hbefore
  have hboth := (Node.sameWork_resetAll hflat s hnested.symm).symm
  have hafter := Node.resetAll_sameWork hs l.after hboth
  simp only [nested, flattened, Node.snd_resetAll_append]
  simpa only [resetAll, Node.reset, Node.resetChildren_eq] using hafter

/-- A chain in a chain and the flat chain, where a splice says, in worlds with the same work. -/
def Beside (x y : Node × World) : Prop :=
  ∃ l : Splice, ∃ p q, l.Sound ∧ l.Stand p q ∧
    x.1 = composite (.chain kind outer p) (l.nested kind name) ∧
    y.1 = composite (.chain kind former q) l.flattened ∧ x.2.SameWork y.2

/-- Both chains have been reset, and their worlds have the same work. -/
theorem Sound.beside_clear {l : Splice} (hl : l.Sound) (hw : v.SameWork w) :
    Beside kind outer name former
      (composite (.chain kind outer 0) ((l.nested kind name).map cleared), v)
      (composite (.chain kind former 0) (l.flattened.map cleared), w) :=
  ⟨l.clear, 0, 0, hl.clear, l.stand_clear, by rw [map_cleared_nested],
    by rw [hl.map_cleared_flattened], hw⟩

include hs in
/-- A tick of both chains gives the same status, and leaves them beside each other. -/
theorem tick_beside {l : Splice} {p q : Nat} (hl : l.Sound) (hstand : l.Stand p q)
    (hw : v.SameWork w) :
    let t := (composite (.chain kind outer p) (l.nested kind name)).tick s v
    let u := (composite (.chain kind former q) l.flattened).tick s w
    t.status = u.status ∧
      Beside kind outer name former (t.state, t.world) (u.state, u.world) := by
  rcases exists_pass hs kind outer name former hl hstand hw with ⟨left, hleft, hnested, hflat⟩
  simp only [Node.tick_chain, hnested, hflat, ← hleft.status]
  split
  next hcompleted =>
    refine ⟨rfl, hleft.sound.beside_clear kind outer name former ?_⟩
    exact hleft.sound.resetAll_sameWork hs kind name hleft.world
  next hpending =>
    exact ⟨rfl, left, _, _, hleft.sound, hleft.stand (Bool.eq_false_iff.2 hpending), rfl, rfl,
      hleft.world⟩

include hs in
/-- Every operation on both chains gives the same answer, and leaves them beside each other. -/
theorem perform_beside (operation : Operation) {x y : Node × World}
    (h : Beside kind outer name former x y) :
    (x.1.perform s operation x.2).1 = (y.1.perform s operation y.2).1 ∧
      Beside kind outer name former (x.1.perform s operation x.2).2
        (y.1.perform s operation y.2).2 := by
  rcases x with ⟨n, v⟩
  rcases y with ⟨m, w⟩
  rcases h with ⟨l, p, q, hl, hstand, rfl, rfl, hw⟩
  cases operation with
  | tick =>
    rcases tick_beside hs kind outer name former hl hstand hw with ⟨hstatus, hafter⟩
    exact ⟨congrArg Answer.ticked hstatus, hafter⟩
  | reset =>
    refine ⟨rfl, ?_⟩
    simp only [Node.perform, Node.reset, Node.resetChildren_eq, Node.fst_resetAll, Composite.reset]
    exact hl.beside_clear kind outer name former (hl.resetAll_sameWork hs kind name hw)
  | start => exact ⟨rfl, l, p, q, hl, hstand, rfl, rfl, hw⟩
  | finish => exact ⟨rfl, l, p, q, hl, hstand, rfl, rfl, hw⟩

end

end Splice

namespace Node

/-- A chain in a chain does what the flat chain does.  A sequence has another sequence among its
children, or a selector another selector; the children of the inner chain have no references.  In
the flat chain they stand in the place of the inner chain.  In every course of operations and acts
of the host, both give the same answers, and afterwards their worlds have the same clocks, random
sources, shared trees, numbers of calls and first fault.  The same work is done: the same callbacks
are called and the same numbers are drawn, in the same order. -/
theorem nested_chains_flatten (plans : Array TreePlan) (depth : Nat) (kind : Chain)
    (outer inner name : String) (before : List Node) {within : List Node} (after : List Node)
    (hwithin : ∀ n ∈ within, n.Apart) (moves : List Move) (w : World) :
    let s := serve (plantFrom plans) depth
    let nested := composite (.named kind outer)
      (before ++ [composite (.named kind inner) within] ++ after)
    let flat := composite (.named kind name) (before ++ within ++ after)
    nested.answers s moves w = flat.answers s moves w ∧
      (nested.left s moves w).2.AgreeOn (Event.isWork []) (flat.left s moves w).2 := by
  intro s nested flat
  have htending := World.tending_agreeOn (Event.isWork [])
  have hs : Service.Alike World.SameWork s s := serve_coupled htending plans depth
  let l : Splice := ⟨before, 0, within, within, after⟩
  have hbegin : Splice.Beside kind outer inner name (nested, w) (flat, w) := by
    refine ⟨l, 0, 0, ⟨hwithin, rfl⟩, ?_, ?_, ?_, .refl w⟩
    · exact .within rfl (Nat.zero_le _) (Nat.zero_le _) (.inl rfl) rfl
    · exact congrArg (composite _) (List.append_assoc before _ after)
    · exact congrArg (composite _) (List.append_assoc before within after)
  have hrelated : nested.answers s moves w = flat.answers s moves w ∧
      Splice.Beside kind outer inner name (nested.left s moves w) (flat.left s moves w) := by
    refine moves_related ?_ ?_ hbegin
    · exact fun operation _ _ h => Splice.perform_beside hs kind outer inner name operation h
    · rintro effect - x y ⟨l, p, q, hl, hstand, hx, hy, hw⟩
      exact ⟨l, p, q, hl, hstand, hx, hy,
        Effect.performAll_coupled htending.toCoupling hs [effect] hw⟩
  rcases hrelated with ⟨hanswers, _, _, _, -, -, -, -, hworld⟩
  exact ⟨hanswers, hworld⟩

/-- An inner sequence of an action that needs two calls and a wait of one tick stands before an
action that fails at first.  Both sequences begin again after the failure, and after a reset on the
way. -/
theorem nested_chains_flatten_workThenWait :
    let s := serve (plantFrom #[]) 0
    let w := World.start (.empty .start) (.empty (.seeded 0))
    let ready : Node := leaf (.infallible "ready" ⟨0, "ready", fun _ => ⟨[], .success⟩⟩)
    let work : Node := leaf (.infallible "work"
      ⟨1, "work", fun n => ⟨[], if n = 0 then .running else .success⟩⟩)
    let report : Node := leaf (.infallible "report"
      ⟨2, "report", fun n => ⟨[], if n = 0 then .failure else .success⟩⟩)
    let within := [work, leaf (.countdown "wait" 1 1)]
    let nested := composite (.named .sequence "outer")
      ([ready] ++ [composite (.named .sequence "inner") within] ++ [report])
    let flat := composite (.named .sequence "flat") ([ready] ++ within ++ [report])
    let moves := [.perform .tick, .perform .tick, .perform .tick, .perform .tick, .perform .reset,
      .perform .tick, .perform .tick]
    (∀ n ∈ within, n.Apart) ∧ nested.answers s moves w = flat.answers s moves w ∧
      flat.answers s moves w = [.ticked .running, .ticked .running, .ticked .failure,
        .ticked .running, .done, .ticked .running, .ticked .success] := by
  intro s w ready work report within nested flat moves
  have hwithin : ∀ n ∈ within, n.Apart := by
    intro n hn
    rcases List.mem_cons.1 hn with rfl | hn
    · exact .leaf trivial
    · rw [List.mem_singleton.1 hn]
      exact .leaf trivial
  have hflatten := nested_chains_flatten #[] 0 .sequence "outer" "inner" "flat" [ready] [report]
    hwithin moves w
  exact ⟨hwithin, hflatten.1, by decide +kernel⟩

end Node

end TickTree
