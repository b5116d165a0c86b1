import TickTree.Proofs.Reset.Continuation

/-!
# Completed activations

A composite that completes resets itself and all its children, and so do repetitions, retries and
waits for success; a leaf that completes forgets its wait.  So a completed activation leaves the
first state behind, and a reset that follows it has nothing to do.  Cooldowns and success rates are
different: they pass the status of their child on and keep both as they are.

Main results:

- Theorem `Composite.tick_of_completed`: a composite that completes leaves itself and its children
  reset.
- Theorem `Decorator.tick_of_completed`: so does a decorator that restarts its child.
- Theorem `Node.Orderly.cleared_tick_of_completed`: an orderly node that completes is left in its
  first state.
- Theorem `Node.completed_leaves_nothing`: a completed activation leaves nothing behind.
-/

namespace TickTree

/-! ## Leaves -/

/-- A leaf that asks the host or waits, and does not only observe the tree. -/
def Leaf.IsStandard : Leaf → Prop
  | probe _ _ _ => False
  | countdown _ _ _ => False
  | _ => True

/-- What kind a leaf is is not a matter of its state. -/
theorem Leaf.isStandard_reset (part : Leaf) : part.reset.IsStandard ↔ part.IsStandard := by
  cases part <;> rfl

/-- A wait for an idle streak that completes is forgotten. -/
theorem IdleWatch.tick_of_completed (s : Service) (watch : IdleWatch) (test : Supplier Bool)
    (bypass : Option (Supplier Bool)) (name : String) (w : World)
    (h : (watch.tick s test bypass name w).status.isCompleted = true) :
    (watch.tick s test bypass name w).state = watch.reset := by
  unfold IdleWatch.tick at h ⊢
  simp only [] at h ⊢
  split at h
  next hbypassed => rw [if_pos hbypassed]
  next hbypassed =>
    rw [if_neg hbypassed]
    split at h
    next hlate => rw [if_pos hlate]
    next hlate =>
      rw [if_neg hlate]
      split at h
      next hidle =>
        rw [if_pos hidle]
        split at h
        next hlong => rw [if_pos hlong]
        next => cases h
      next => cases h

/-- A leaf that completes is left in its first state. -/
theorem Leaf.tick_of_completed {part : Leaf} (hpart : part.IsStandard) (s : Service) (w : World)
    (h : (part.tick s w).status.isCompleted = true) :
    (part.tick s w).state.reset = (part.tick s w).state := by
  cases part with
  | action name body =>
    simp only [Leaf.tick]
    split <;> rfl
  | condition name test =>
    simp only [Leaf.tick]
    split <;> rfl
  | sleep timer =>
    rcases hpolled : w.poll timer with ⟨expired, polled, after⟩
    simp only [Leaf.tick, hpolled] at h ⊢
    cases expired with
    | true => rfl
    | false => cases h
  | sleepUntil timer test =>
    simp only [Leaf.tick] at h ⊢
    split at h
    next htested =>
      rw [if_pos htested]
      rfl
    next htested =>
      rw [if_neg htested]
      split at h
      next hexpired =>
        rw [if_pos hexpired]
        rfl
      next => cases h
  | sleepUntilIdle watch test bypass =>
    have hwatch := watch.tick_of_completed s test bypass _ w h
    simp only [Leaf.tick, Ticked.map, Leaf.reset, hwatch]
    rfl
  | probe name script hooks => exact hpart.elim
  | countdown name count remaining => exact hpart.elim

/-! ## Composites -/

section

variable {κ : Type} {reset : κ → World → κ × World}

/-- A composite that completes leaves itself and its children reset, whatever its children are.
Without children a random selector does nothing at all, so it must not have chosen a child. -/
theorem Composite.tick_of_completed {part : Composite} {children : List (Offer κ)}
    (hpart : children = [] → part.reset = part) (w : World)
    (h : (part.tick reset children w).status.isCompleted = true) :
    (part.tick reset children w).state.1 = part.reset ∧
      ∃ states v, (part.tick reset children w).state.2 = (resetAll reset states v).1 := by
  have hsettle : ∀ (left : Composite) (t : Ticked (List κ)), left.reset = part.reset →
      (settle reset left t).status.isCompleted = true →
      (settle reset left t).state.1 = part.reset ∧
        ∃ states v, (settle reset left t).state.2 = (resetAll reset states v).1 := by
    intro left t hleft hdone
    unfold settle at hdone ⊢
    split at hdone
    next hcompleted =>
      rw [if_pos hcompleted]
      exact ⟨hleft, t.state, t.world, rfl⟩
    next hpending => exact absurd hdone hpending
  cases part with
  | chain kind name cursor => exact hsettle _ _ rfl h
  | randomSelector source selected =>
    unfold Composite.tick at h ⊢
    simp only [] at h ⊢
    split at h
    next hempty =>
      rw [if_pos hempty]
      exact ⟨(hpart (List.isEmpty_iff.1 hempty)).symm, [], w, rfl⟩
    next hempty =>
      rw [if_neg hempty]
      exact hsettle _ _ rfl h
  | parallel success failure => exact hsettle _ _ rfl h

/-- A composite without children completes at once. -/
theorem Composite.isCompleted_tick_nil (part : Composite) (w : World) :
    (part.tick reset ([] : List (Offer κ)) w).status.isCompleted = true := by
  cases part with
  | chain kind name cursor => cases kind <;> simp [Composite.tick, Chain.pass, settle, Chain.passes,
      Status.isCompleted]
  | randomSelector source selected => rfl
  | parallel success failure => cases success <;> rfl

/-! ## Decorators -/

/-- A decorator that restarts its child when it completes: all but inverters, cooldowns and success
rates, which pass on what the child does. -/
def Decorator.Restarts : Decorator → Prop
  | repetition _ _ => True
  | retry _ _ => True
  | sleepUntilSuccess _ => True
  | _ => False

/-- What a decorator does on completion is not a matter of its state. -/
theorem Decorator.restarts_reset (part : Decorator) : part.reset.Restarts ↔ part.Restarts := by
  cases part <;> rfl

/-- What a tick leaves of a decorator and its child when the decorator has been restarted. -/
def Decorator.Restarted (reset : κ → World → κ × World) (part : Decorator)
    (t : Ticked (Decorator × Option κ)) : Prop :=
  t.state.1 = part.reset ∧ ∃ k v, t.state.2 = some (reset k v).1

/-- A repetition that completes is restarted. -/
theorem Decorator.tickRepetition_of_completed (limit count : Int32) (o : Offer κ) (w : World)
    (h : (tickRepetition reset limit count o w).status.isCompleted = true) :
    Restarted reset (.repetition limit count) (tickRepetition reset limit count o w) := by
  unfold tickRepetition at h ⊢
  simp only [] at h ⊢
  split at h
  next =>
    simp only [keep] at h
    split at h <;> cases h
  next hlimit =>
    rw [if_neg hlimit]
    cases hstatus : (o.tick w).status with
    | success =>
      simp only [hstatus] at h ⊢
      split at h
      next hlast =>
        rw [if_pos hlast]
        exact ⟨rfl, _, _, rfl⟩
      next => cases h
    | failure => exact ⟨rfl, _, _, rfl⟩
    | running =>
      simp only [hstatus] at h
      cases h
    | sleeping =>
      simp only [hstatus] at h
      cases h

/-- A retry that completes is restarted. -/
theorem Decorator.tickRetry_of_completed (limit count : Int32) (o : Offer κ) (w : World)
    (h : (tickRetry reset limit count o w).status.isCompleted = true) :
    Restarted reset (.retry limit count) (tickRetry reset limit count o w) := by
  unfold tickRetry at h ⊢
  simp only [] at h ⊢
  cases hstatus : (o.tick w).status with
  | success => exact ⟨rfl, _, _, rfl⟩
  | failure =>
    simp only [hstatus] at h ⊢
    split at h
    next hlast =>
      rw [if_pos hlast]
      exact ⟨rfl, _, _, rfl⟩
    next => cases h
  | running =>
    simp only [hstatus] at h
    cases h
  | sleeping =>
    simp only [hstatus] at h
    cases h

/-- A wait for success that completes is restarted. -/
theorem Decorator.tickSleepUntilSuccess_of_completed (timer : Timer) (o : Offer κ) (w : World)
    (h : (tickSleepUntilSuccess reset timer o w).status.isCompleted = true) :
    Restarted reset (.sleepUntilSuccess timer) (tickSleepUntilSuccess reset timer o w) := by
  have hpart : (sleepUntilSuccess (w.poll timer).2.1).reset = (sleepUntilSuccess timer).reset := by
    simp only [Decorator.reset, World.poll, Timer.disarm_poll]
  unfold tickSleepUntilSuccess at h ⊢
  simp only [] at h ⊢
  split at h
  next hsuccess =>
    rw [if_pos hsuccess]
    exact ⟨hpart, _, _, rfl⟩
  next hsuccess =>
    rw [if_neg hsuccess]
    split at h
    next hexpired =>
      rw [if_pos hexpired]
      exact ⟨hpart, _, _, rfl⟩
    next =>
      simp only [keep] at h
      split at h <;> cases h

/-- A decorator that restarts its child leaves itself and the child reset when it completes. -/
theorem Decorator.tick_of_completed {part : Decorator} (hpart : part.Restarts) (s : Service)
    (name : κ → String) (o : Offer κ) (w : World)
    (h : (part.tick s reset name (some o) w).status.isCompleted = true) :
    Restarted reset part (part.tick s reset name (some o) w) := by
  cases part with
  | repetition limit count => exact tickRepetition_of_completed limit count o w h
  | retry limit count => exact tickRetry_of_completed limit count o w h
  | sleepUntilSuccess timer => exact tickSleepUntilSuccess_of_completed timer o w h
  | inverter => exact hpart.elim
  | cooldown clock period last => exact hpart.elim
  | successRate source percentage => exact hpart.elim

end

/-! ## Nodes -/

namespace Node

/-- A node that clears up when it completes: a standard leaf, a composite, or a decorator that
restarts its child, reached through inverters and embedded trees.  Its children may be any nodes in
any states; a composite or a decorator without children is as its constructor makes it. -/
inductive Orderly : Node → Prop
  | leaf {part : Leaf} (h : part.IsStandard) : Orderly (.leaf part)
  | composite {part : Composite} {children : List Node} (h : children = [] → part.IsNew) :
    Orderly (.composite part children)
  | decorator {part : Decorator} {child : Option Node} (hpart : part.Restarts)
    (h : child = none → part.IsNew) : Orderly (.decorator part child)
  | inverter {child : Node} (h : Orderly child) : Orderly (.decorator .inverter (some child))
  | embedded {tag : Option Tag} {root : Node} (h : Orderly root) : Orderly (.embedded tag root)

/-- Resetting children one by one leaves their first states. -/
theorem fst_resetAll (s : Service) (states : List Node) (w : World) :
    (resetAll (reset s) states w).1 = states.map cleared := by
  rw [← resetChildren_eq, fst_resetChildren, clearedChildren_eq]

/-- A tick keeps a node orderly. -/
theorem Orderly.tick {n : Node} (h : n.Orderly) (s : Service) (w : World) :
    (n.tick s w).state.Orderly := by
  induction h generalizing w with
  | @leaf part h =>
    refine .leaf ?_
    rw [← Leaf.isStandard_reset, Leaf.reset_tick, Leaf.isStandard_reset]
    exact h
  | @composite part children h =>
    refine .composite fun hnone => ?_
    have hall := handled_children s part children w
    have hoffers : offers s children = [] := by
      rw [← List.length_eq_zero_iff, hall.2.length_eq, hnone]
      rfl
    have hempty : children = [] := by
      rwa [offers_eq, List.map_eq_nil_iff] at hoffers
    have hnew := (part.isNew_iff).1 (h hempty)
    rw [hoffers]
    have hdone : (part.tick (reset s) ([] : List (Offer Node)) w).status.isCompleted = true :=
      part.isCompleted_tick_nil w
    rw [(Composite.tick_of_completed (fun _ => hnew) w hdone).1, hnew]
    exact h hempty
  | @decorator part child hpart h =>
    cases child with
    | none => exact .decorator hpart h
    | some inner =>
      have hhandles := handled_child s part inner w
      rcases hhandles.child with ⟨left, hleft, -⟩
      simp only [Node.tick, offer, Ticked.map]
      refine .decorator ?_ ?_
      · rw [← Decorator.restarts_reset, hhandles.part, Decorator.restarts_reset]
        exact hpart
      · intro hnone
        rw [hleft] at hnone
        cases hnone
  | inverter h ih => exact .inverter (ih w)
  | embedded h ih => exact .embedded (ih w)

/-- The first state of an orderly node is orderly. -/
theorem Orderly.cleared {n : Node} (h : n.Orderly) : n.cleared.Orderly := by
  induction h with
  | leaf h => exact .leaf ((Leaf.isStandard_reset _).2 h)
  | @composite part children h =>
    exact .composite fun _ => (Composite.isNew_iff _).2 part.reset_reset
  | @decorator part child hpart h =>
    exact .decorator ((Decorator.restarts_reset part).2 hpart) fun _ =>
      (Decorator.isNew_iff _).2 part.reset_reset
  | inverter h ih => exact .inverter ih
  | embedded h ih => exact .embedded ih

/-- All operations keep a node orderly. -/
theorem Orderly.perform {n : Node} (h : n.Orderly) (s : Service) (operation : Operation)
    (w : World) : (n.perform s operation w).2.1.Orderly := by
  cases operation with
  | tick => exact h.tick s w
  | reset =>
    simp only [Node.perform, fst_reset]
    exact h.cleared
  | start =>
    simp only [Node.perform, fst_start]
    exact h
  | finish =>
    induction h with
    | leaf h => exact .leaf h
    | composite h => exact .composite h
    | decorator hpart h => exact .decorator hpart h
    | inverter h => exact .inverter h
    | embedded h ih => exact .embedded ih

/-- All states that an orderly node can reach are orderly. -/
theorem Orderly.of_reachable {made n : Node} (hmade : made.Orderly) (h : Reachable made n) :
    n.Orderly := by
  induction h with
  | made => exact hmade
  | perform s operation w _ ih => exact ih.perform s operation w

/-- An orderly node that completes is left in its first state. -/
theorem Orderly.cleared_tick_of_completed {n : Node} (h : n.Orderly) (s : Service) (w : World)
    (hdone : (n.tick s w).status.isCompleted = true) :
    (n.tick s w).state.cleared = (n.tick s w).state := by
  induction h generalizing w with
  | leaf h => exact congrArg Node.leaf (Leaf.tick_of_completed h s w hdone)
  | @composite part children h =>
    have hnew : offers s children = [] → part.reset = part := by
      intro hoffers
      rw [offers_eq, List.map_eq_nil_iff] at hoffers
      exact part.isNew_iff.1 (h hoffers)
    rcases Composite.tick_of_completed hnew w hdone with ⟨hpart, states, v, hstates⟩
    simp only [Node.tick, Ticked.map, Node.cleared, hpart, hstates, fst_resetAll,
      Composite.reset_reset, ← clearedChildren_eq, clearedChildren_cleared]
  | @decorator part child hrestarts h =>
    cases child with
    | none =>
      have hpart := part.isNew_iff.1 (h rfl)
      simp only [Node.tick, offer, Decorator.tick_none, Ticked.map, Node.cleared, clearedChild,
        hpart]
    | some inner =>
      rcases Decorator.tick_of_completed hrestarts s name _ w hdone with ⟨hpart, k, v, hchild⟩
      simp only [Node.tick, offer, Ticked.map, Node.cleared, hpart, hchild, fst_reset,
        Decorator.reset_reset, clearedChild, cleared_cleared]
  | @inverter child h ih =>
    have hchild := ih w ((Status.isCompleted_invert _).symm.trans hdone)
    exact congrArg (fun left => Node.decorator .inverter (some left)) hchild
  | @embedded tag root h ih => exact congrArg (Node.embedded tag) (ih w hdone)

/-- A completed activation leaves nothing behind.  The tree clears up when it completes, any
operations were carried out on it in any worlds, and then a tick gives success or failure.  It
leaves the first state.  So a reset that follows changes no node, and nothing outside the tree
either; and whatever is done next, the tree answers as it would after such a reset. -/
theorem completed_leaves_nothing (plans : Array TreePlan) (depth : Nat) {made n : Node}
    (hmade : made.Orderly) (hn : Reachable made n) (w : World)
    (hdone : (n.tick (serve (plantFrom plans) depth) w).status.isCompleted = true) :
    let s := serve (plantFrom plans) depth
    let t := n.tick s w
    let left := t.state.reset s t.world
    t.state = made.cleared ∧
    (∀ (other : Service) (v : World), (t.state.reset other v).1 = t.state) ∧
    left.2.clearHistory = t.world.clearHistory ∧
    ∀ moves : List Move, t.state.answers s moves t.world = left.1.answers s moves left.2 := by
  intro s t left
  have hcleared : t.state.cleared = t.state :=
    (hmade.of_reachable hn).cleared_tick_of_completed s w hdone
  have hstate : t.state = made.cleared := by
    rw [← hcleared, cleared_tick, cleared_of_reachable hn]
  have hreset : ∀ (other : Service) (v : World), (t.state.reset other v).1 = t.state := by
    intro other v
    rw [fst_reset, hcleared]
  have htargets : t.state.targets = [] := by
    rw [hstate]
    exact made.targets_cleared
  have hworld : left.2.clearHistory = t.world.clearHistory :=
    t.state.clearHistory_reset s htargets t.world
  refine ⟨hstate, hreset, hworld, fun moves => ?_⟩
  have houtside : t.world.SameOutside left.2 := (congrArg World.outside hworld).symm
  rw [t.state.answers_eq plans depth moves houtside, hreset]

/-- An action that always succeeds, under a cooldown that keeps the reading at its completion. -/
def stampedAction : Node :=
  decorator (.cooled (.constant Duration.max) .standard) (some (.leaf (.fixed "done" .success)))

/-- The cooldown by itself keeps its stamp; a sequence around it, under an inverter, leaves it
without one. -/
theorem completed_leaves_nothing_stamped :
    let s := serve (plantFrom #[]) 0
    let w := World.start (.empty .start) (.empty (.seeded 0))
    let made := decorator .inverter (some (composite (.ofKind .sequence) [stampedAction]))
    (stampedAction.tick s w).state.cleared ≠ (stampedAction.tick s w).state ∧
      (made.tick s w).status = .failure ∧ (made.tick s w).state = made := by
  intro s w made
  have hmade : made.Orderly := by
    refine .inverter (.composite fun hnone => ?_)
    cases hnone
  have hnothing := completed_leaves_nothing #[] 0 hmade .made w rfl
  refine ⟨?_, rfl, hnothing.1⟩
  intro hcleared
  injection hcleared with hpart
  injection hpart with hclock hperiod hlast
  cases hlast

end Node

end TickTree
