import TickTree.Proofs.Forest
import TickTree.Proofs.Handling
import TickTree.Proofs.Trace

/-!
# Where pending statuses come from

A parent that reports a pending status passes on what a child reported, with few exceptions: a
repetition or a retry reports that it runs between two rounds, a parallel node with two demanding
policies reports that it runs when its children disagree, and waiting nodes report that they
sleep.  In a tree without such nodes every pending status is first given by an action.

What a parent reports is compared with what its children reported in the same tick.  A property of
children stands for the latter: it holds of each child that reported the status.  A pending status
ends no activation, so no reset comes in between.

Main results:

- Theorem `mem_of_tally_eq`: unless both policies ask for all children, a parallel node reports a
  pending status only when a child did.
- Theorem `Composite.exists_of_status_tick`, `Decorator.exists_of_status_tick`: what composites and
  decorators pass on.
- Theorem `Node.exists_grants_of_status_tick`: in the trace of a tick that gives a pending status
  there is the action that gave it.
- Theorem `Node.pending_not_invented`: if no action answers with a pending status, no tick gives it.
-/

namespace TickTree

/-! ## Trees that pass statuses on -/

/-- The trait of library nodes that report a status only when it was reported to them, or when an
action answers with it. -/
def Trait.echoing (p : Status) : Trait where
  leaf
    | .action _ _ | .condition _ _ => True
    | .sleep _ | .sleepUntil _ _ | .sleepUntilIdle _ _ _ => p ≠ .sleeping
    | .probe _ _ _ | .countdown _ _ _ => False
  composite
    | .chain _ _ _ | .randomSelector _ _ => True
    | .parallel success failure => p = .running → success ≠ .requireAll ∨ failure ≠ .requireAll
  decorator
    | .inverter | .cooldown _ _ _ | .successRate _ _ => True
    | .repetition _ _ | .retry _ _ => p ≠ .running
    | .sleepUntilSuccess _ => p ≠ .sleeping
  reference _ := True
  leaf_reset part := by cases part <;> rfl
  composite_reset part := by cases part <;> rfl
  decorator_reset part := by cases part <;> rfl
  reference_letGo _ := Iff.rfl

/-- A completed status is not a pending one. -/
theorem Status.ne_pending {p status : Status} (hp : p.isPending = true)
    (hstatus : status.isPending = false) : status ≠ p := by
  rintro rfl
  exact Bool.false_ne_true (hstatus.symm.trans hp)

/-- The answer that a supplier gives in a world. -/
def Supplier.answer {α : Type} : Supplier α → World → α
  | .constant value, _ => value
  | .scripted callback, w => (callback.reply (w.calls.get callback.seat)).value

/-- What a supplier gives does not depend on how requests are answered. -/
theorem Supplier.fst_get {α : Type} (s : Service) (supplier : Supplier α) (w : World) :
    (supplier.get s w).1 = supplier.answer w := by
  cases supplier <;> rfl

/-- A moment from which a status may come: the turn of an action that answers with it, or a tree is
entered that may not pass statuses on faithfully. -/
inductive Moment.Grants (p : Status) : Moment → Prop
  | answered {name : String} {body : Supplier (Except Failure Status)} {w : World}
    (h : body.answer w = .ok p) : Grants p (.turn (.leaf (.action name body)) w)
  | entered {tree : TreeId} {root : Node} (h : ¬ root.MadeOf (.echoing p)) :
    Grants p (.entered tree root)

/-! ## Composites -/

section

variable {κ : Type} {p : Status} {P : κ → Prop} {children : List (Offer κ)}
  (h : ∀ o ∈ children, ∀ w, (o.tick w).status = p → P (o.tick w).state)
include h

/-- A pass ends with the status of a child, unless all children passed. -/
theorem Chain.exists_of_status_pass (kind : Chain) (hp : p ≠ kind.passes) (name : String)
    (position : Nat) (w : World) (hstatus : (kind.pass name position children w).status = p) :
    ∃ k ∈ (kind.pass name position children w).states, P k := by
  induction children generalizing position w with
  | nil => exact absurd hstatus.symm hp
  | cons child rest ih =>
    unfold pass at hstatus ⊢
    simp only [] at hstatus ⊢
    split at hstatus
    · rename_i hpasses
      rw [if_pos hpasses]
      rcases ih (fun o ho => h o (List.mem_cons_of_mem _ ho)) _ _ hstatus with ⟨k, hk, hP⟩
      exact ⟨k, List.mem_cons_of_mem _ hk, hP⟩
    · rename_i hstops
      rw [if_neg hstops]
      exact ⟨_, List.mem_cons_self, h child List.mem_cons_self w hstatus⟩

/-- Each child of a parallel node that reported the status is left as such. -/
theorem forall_mem_tickAll (w : World) : ∀ x ∈ (tickAll children w).1, x.1 = p → P x.2 := by
  induction children generalizing w with
  | nil => exact fun x hx => absurd hx List.not_mem_nil
  | cons child rest ih =>
    intro x hx
    rcases List.mem_cons.1 hx with rfl | hx
    · exact h child List.mem_cons_self w
    · exact ih (fun o ho => h o (List.mem_cons_of_mem _ ho)) _ x hx

/-- The one child that a random selector ticks gives the status, unless there is none. -/
theorem exists_of_status_tickAt (hp : p ≠ .failure) (position : Nat) (w : World)
    (hstatus : (tickAt position children w).status = p) :
    ∃ k ∈ (tickAt position children w).state, P k := by
  induction children generalizing position with
  | nil => cases position <;> exact absurd hstatus.symm hp
  | cons child rest ih =>
    cases position with
    | zero => exact ⟨_, List.mem_cons_self, h child List.mem_cons_self w hstatus⟩
    | succ position =>
      rcases ih (fun o ho => h o (List.mem_cons_of_mem _ ho)) position hstatus with ⟨k, hk, hP⟩
      exact ⟨k, List.mem_cons_of_mem _ hk, hP⟩

end

/-- A list of completed statuses without one that is counted consists of the other one. -/
theorem count_eq_length_of_completed {statuses : List Status}
    (hrunning : .running ∉ statuses) (hsleeping : .sleeping ∉ statuses) :
    statuses.count .success + statuses.count .failure = statuses.length := by
  induction statuses with
  | nil => rfl
  | cons status rest ih =>
    simp only [List.mem_cons, not_or] at hrunning hsleeping
    have hrest := ih hrunning.2 hsleeping.2
    cases status with
    | success => simp; omega
    | failure => simp; omega
    | running => exact absurd rfl hrunning.1
    | sleeping => exact absurd rfl hsleeping.1

/-- Unless both policies ask for all children, a parallel node reports a pending status only when a
child did.  With no pending child every child that did not succeed has failed, so a policy that asks
for one of them is met, or else the other one is. -/
theorem mem_of_tally_eq {success failure : Policy} {statuses : List Status} {p : Status}
    (hp : p.isPending = true)
    (hpolicies : p = .running → success ≠ .requireAll ∨ failure ≠ .requireAll)
    (h : tally success failure statuses = p) : p ∈ statuses := by
  by_contra hmem
  unfold tally at h
  split at h
  · split at h <;> subst h <;> cases hp
  rename_i hempty
  split at h
  · exact absurd h (Status.ne_pending hp rfl)
  rename_i hfailure
  split at h
  · exact absurd h (Status.ne_pending hp rfl)
  rename_i hsuccess
  split at h
  · rename_i hsleeps
    subst h
    exact hmem (List.count_pos_iff.1 hsleeps.2)
  · rename_i hsleeps
    subst h
    have hnone : statuses.count .running = 0 := List.count_eq_zero.2 hmem
    have hsleeping : .sleeping ∉ statuses :=
      fun hsleeping => hsleeps ⟨hnone, List.count_pos_iff.2 hsleeping⟩
    have hcount := count_eq_length_of_completed hmem hsleeping
    have hlength : 0 < statuses.length := List.length_pos_iff.2 fun h => hempty (by rw [h]; rfl)
    cases success with
    | requireOne =>
      cases failure <;> simp only [Policy.isMet, decide_eq_true_eq] at hfailure hsuccess <;> omega
    | requireAll =>
      cases failure with
      | requireOne =>
        simp only [Policy.isMet, decide_eq_true_eq] at hfailure hsuccess
        omega
      | requireAll => exact absurd (hpolicies rfl) (by decide)

namespace Composite

variable {κ : Type} {p : Status} {P : κ → Prop} {children : List (Offer κ)}

/-- A composite reports a pending status only when a child reported it. -/
theorem exists_of_status_tick (hp : p.isPending = true) {part : Composite}
    (hpart : (Trait.echoing p).composite part)
    (h : ∀ o ∈ children, ∀ w, (o.tick w).status = p → P (o.tick w).state)
    (reset : κ → World → κ × World) (w : World)
    (hstatus : (part.tick reset children w).status = p) :
    ∃ k ∈ (part.tick reset children w).state.2, P k := by
  have hfailure : p ≠ .failure := (Status.ne_pending hp rfl).symm
  have hkept : ∀ (left : Composite) (t : Ticked (List κ)), t.status = p →
      settle reset left t = ⟨t.status, (left, t.state), t.world⟩ := by
    intro left t ht
    exact settle_of_pending reset left (ht ▸ hp)
  cases part with
  | chain kind name cursor =>
    have hpasses : p ≠ kind.passes := by cases kind <;> exact (Status.ne_pending hp rfl).symm
    simp only [tick, status_settle] at hstatus ⊢
    rw [hkept _ _ hstatus]
    rcases Chain.exists_of_status_pass (fun o ho => h o (List.mem_of_mem_drop ho)) kind hpasses name
      cursor w hstatus with ⟨k, hk, hP⟩
    exact ⟨k, List.mem_append_right _ hk, hP⟩
  | randomSelector source selected =>
    simp only [tick] at hstatus ⊢
    split at hstatus
    · exact absurd hstatus.symm hfailure
    · rename_i hsome
      rw [status_settle] at hstatus
      rw [if_neg hsome, hkept _ _ hstatus]
      exact exists_of_status_tickAt h hfailure _ _ hstatus
  | parallel success failure =>
    simp only [tick, status_settle] at hstatus ⊢
    rw [hkept _ _ hstatus]
    rcases List.mem_map.1 (mem_of_tally_eq hp hpart hstatus) with ⟨x, hx, hreported⟩
    exact ⟨x.2, List.mem_map_of_mem hx, forall_mem_tickAll h w x hx hreported⟩

end Composite

/-! ## Decorators -/

namespace Decorator

variable {κ : Type} {p : Status} {P : κ → Prop} {o : Offer κ} {reset : κ → World → κ × World}
  (hp : p.isPending = true) (h : ∀ w, (o.tick w).status = p → P (o.tick w).state)
include hp h

/-- A repetition reports that it sleeps only when its child did. -/
theorem exists_of_status_tickRepetition (hrunning : p ≠ .running) (limit count : Int32) (w : World)
    (hstatus : (tickRepetition reset limit count o w).status = p) :
    ∃ k, (tickRepetition reset limit count o w).state.2 = some k ∧ P k := by
  unfold tickRepetition at hstatus ⊢
  simp only [] at hstatus ⊢
  split at hstatus
  · rename_i hlimit
    rw [if_pos hlimit]
    simp only [keep] at hstatus
    split at hstatus
    · rename_i hsleeps
      exact ⟨_, rfl, h w (hsleeps.trans hstatus)⟩
    · exact absurd hstatus.symm hrunning
  · rename_i hlimit
    rw [if_neg hlimit]
    split at hstatus
    · split at hstatus <;> subst hstatus
      · cases hp
      · exact absurd rfl hrunning
    · exact absurd hstatus (Status.ne_pending hp rfl)
    · exact ⟨_, rfl, h w hstatus⟩

/-- A retry reports that it sleeps only when its child did. -/
theorem exists_of_status_tickRetry (hrunning : p ≠ .running) (limit count : Int32) (w : World)
    (hstatus : (tickRetry reset limit count o w).status = p) :
    ∃ k, (tickRetry reset limit count o w).state.2 = some k ∧ P k := by
  unfold tickRetry at hstatus ⊢
  simp only [] at hstatus ⊢
  split at hstatus
  · exact absurd hstatus (Status.ne_pending hp rfl)
  · split at hstatus <;> subst hstatus
    · cases hp
    · exact absurd rfl hrunning
  · exact ⟨_, rfl, h w hstatus⟩

/-- A cooldown passes on the pending statuses of its child. -/
theorem exists_of_status_tickCooldown (s : Service) (name : κ → String) (clock : ClockId)
    (period : Supplier Duration) (last : Option Duration) (w : World)
    (hstatus : (tickCooldown s name clock period last o w).status = p) :
    ∃ k, (tickCooldown s name clock period last o w).state.2 = some k ∧ P k := by
  unfold tickCooldown at hstatus ⊢
  simp only [] at hstatus ⊢
  split at hstatus
  · exact absurd hstatus (Status.ne_pending hp rfl)
  · exact ⟨_, rfl, h _ hstatus⟩

/-- A success rate passes on the pending statuses of its child. -/
theorem exists_of_status_tickSuccessRate (s : Service) (name : κ → String) (source : SourceId)
    (percentage : Supplier Float32) (w : World)
    (hstatus : (tickSuccessRate s name source percentage o w).status = p) :
    ∃ k, (tickSuccessRate s name source percentage o w).state.2 = some k ∧ P k := by
  unfold tickSuccessRate at hstatus ⊢
  simp only [] at hstatus ⊢
  split at hstatus
  · exact absurd hstatus (Status.ne_pending hp rfl)
  · rename_i hruns
    rw [if_neg hruns]
    exact ⟨_, rfl, h _ hstatus⟩

/-- A wait for success reports that it runs only when its child did. -/
theorem exists_of_status_tickSleepUntilSuccess (hsleeping : p ≠ .sleeping) (timer : Timer)
    (w : World) (hstatus : (tickSleepUntilSuccess reset timer o w).status = p) :
    ∃ k, (tickSleepUntilSuccess reset timer o w).state.2 = some k ∧ P k := by
  have hchild : ∀ u, (resetFailed reset (o.tick u)).status = .running →
      p = .running → P (resetFailed reset (o.tick u)).state := by
    intro u hrun hp'
    subst hp'
    have hkept := resetFailed_of_running hrun
    rw [hkept] at hrun ⊢
    exact h u hrun
  unfold tickSleepUntilSuccess at hstatus ⊢
  simp only [] at hstatus ⊢
  split at hstatus
  · exact absurd hstatus (Status.ne_pending hp rfl)
  · rename_i hsuccess
    rw [if_neg hsuccess]
    split at hstatus
    · exact absurd hstatus (Status.ne_pending hp rfl)
    · rename_i hwaits
      rw [if_neg hwaits]
      simp only [keep] at hstatus
      split at hstatus
      · rename_i hrun
        exact ⟨_, rfl, hchild _ hrun hstatus.symm⟩
      · exact absurd hstatus.symm hsleeping

/-- A decorator reports a pending status only when its child reported it. -/
theorem exists_of_status_tick {part : Decorator} (hpart : (Trait.echoing p).decorator part)
    (s : Service) (name : κ → String) (w : World)
    (hstatus : (part.tick s reset name (some o) w).status = p) :
    ∃ k, (part.tick s reset name (some o) w).state.2 = some k ∧ P k := by
  cases part with
  | inverter =>
    have hchild : (o.tick w).status = p := by
      subst hstatus
      simp only [tick, keep] at hp ⊢
      cases hs : (o.tick w).status <;> rw [hs] at hp <;> first | rfl | cases hp
    exact ⟨_, rfl, h w hchild⟩
  | repetition limit count => exact exists_of_status_tickRepetition hp h hpart limit count w hstatus
  | retry limit count => exact exists_of_status_tickRetry hp h hpart limit count w hstatus
  | cooldown clock period last =>
    exact exists_of_status_tickCooldown hp h s name clock period last w hstatus
  | successRate source percentage =>
    exact exists_of_status_tickSuccessRate hp h s name source percentage w hstatus
  | sleepUntilSuccess timer =>
    exact exists_of_status_tickSleepUntilSuccess hp h hpart timer w hstatus

end Decorator

/-! ## Leaves, references and nodes -/

section

variable {s : Service} {asked : Asked} {p : Status} (hp : p.isPending = true)
include hp

/-- A leaf that passes statuses on gives a pending one only when it is an action that answers with
it. -/
theorem Leaf.answer_of_status_tick {part : Leaf} (hpart : (Trait.echoing p).leaf part) (w : World)
    (hstatus : (part.tick s w).status = p) :
    ∃ name body, part = .action name body ∧ body.answer w = .ok p := by
  cases part with
  | action name body =>
    refine ⟨name, body, rfl, ?_⟩
    rw [← Supplier.fst_get s]
    simp only [Leaf.tick] at hstatus
    rcases hget : body.get s w with ⟨answer, after⟩
    rw [hget] at hstatus
    cases answer with
    | ok status => exact congrArg Except.ok hstatus
    | error failure => exact absurd hstatus (Status.ne_pending hp rfl)
  | condition name test =>
    simp only [Leaf.tick] at hstatus
    split at hstatus <;> subst hstatus <;> cases hp
  | sleep timer =>
    simp only [Leaf.tick] at hstatus
    split at hstatus
    · exact absurd hstatus (Status.ne_pending hp rfl)
    · exact absurd hstatus.symm hpart
  | sleepUntil timer test =>
    simp only [Leaf.tick] at hstatus
    split at hstatus
    · exact absurd hstatus (Status.ne_pending hp rfl)
    · split at hstatus
      · exact absurd hstatus (Status.ne_pending hp rfl)
      · exact absurd hstatus.symm hpart
  | sleepUntilIdle watch test bypass =>
    simp only [Leaf.tick, Ticked.map, IdleWatch.tick] at hstatus
    split at hstatus
    · exact absurd hstatus (Status.ne_pending hp rfl)
    · split at hstatus
      · exact absurd hstatus (Status.ne_pending hp rfl)
      · split at hstatus
        · split at hstatus
          · exact absurd hstatus (Status.ne_pending hp rfl)
          · exact absurd hstatus.symm hpart
        · exact absurd hstatus.symm hpart
  | probe name script hooks => exact hpart.elim
  | countdown name count remaining => exact hpart.elim

/-- Requests end with a pending status only when one of them grants it. -/
theorem Service.exists_grants_of_send
    (hs : ∀ operation tree w, (s.ask operation tree w).1 = .ticked p →
      ∃ moment ∈ asked operation tree w, moment.Grants p)
    (requests : List Request) (last : Status) (w : World)
    (hstatus : (s.send requests last w).1 = p) :
    last = p ∨ ∃ moment ∈ s.traceSend asked requests w, moment.Grants p := by
  induction requests generalizing last w with
  | nil => exact .inl hstatus
  | cons request rest ih =>
    rcases request with ⟨operation, tree⟩
    rcases ih _ _ hstatus with hanswer | ⟨moment, hmoment, hgrants⟩
    · have hticked : (s.ask operation tree w).1 = .ticked p := by
        cases hasked : (s.ask operation tree w).1 with
        | ticked status =>
          rw [hasked] at hanswer
          exact congrArg Answer.ticked hanswer
        | refused =>
          rw [hasked] at hanswer
          exact absurd hanswer (Status.ne_pending hp rfl)
        | done =>
          rw [hasked] at hanswer
          exact absurd hanswer (Status.ne_pending hp rfl)
      rcases hs operation tree w hticked with ⟨moment, hmoment, hgrants⟩
      exact .inr ⟨moment, List.mem_append_left _ hmoment, hgrants⟩
    · exact .inr ⟨moment, List.mem_append_right _ hmoment, hgrants⟩

namespace Node

/-- In the trace of a tick that gives a pending status there is the moment that granted it. -/
theorem exists_grants_of_status_tick
    (hs : ∀ operation tree w, (s.ask operation tree w).1 = .ticked p →
      ∃ moment ∈ asked operation tree w, moment.Grants p)
    {n : Node} (hn : n.MadeOf (.echoing p)) (w : World) (hstatus : (n.tick s w).status = p) :
    ∃ moment ∈ n.trace s asked w, moment.Grants p := by
  induction n generalizing w with
  | leaf part =>
    cases hn with
    | leaf hpart =>
      rcases part.answer_of_status_tick hp hpart w hstatus with ⟨name, body, rfl, hanswer⟩
      exact ⟨_, List.mem_cons_self, .answered hanswer⟩
  | composite part children ih =>
    cases hn with
    | composite hpart hchildren =>
      have hreported : ∀ o ∈ tracedOffers s asked children, ∀ w, (o.tick w).status = p →
          ∃ moment ∈ (o.tick w).state.2, moment.Grants p := by
        intro o ho w hstatus
        rw [tracedOffers_eq] at ho
        rcases List.mem_map.1 ho with ⟨child, hchild, rfl⟩
        exact ih child hchild (hchildren child hchild) w hstatus
      rw [← tick_traced asked] at hstatus
      rcases part.exists_of_status_tick (P := fun k => ∃ moment ∈ k.2, moment.Grants p) hp hpart
        hreported _ w hstatus with ⟨k, hk, moment, hmoment, hgrants⟩
      rw [trace]
      exact ⟨moment, List.mem_cons_of_mem _ (List.mem_flatMap.2 ⟨k, hk, hmoment⟩), hgrants⟩
  | decorator part child ih =>
    cases hn with
    | decorator hpart hchild =>
      cases child with
      | none =>
        exact absurd hstatus (Status.ne_pending hp rfl)
      | some inner =>
        have hreported : ∀ w, ((tracedOffer s inner (inner.trace s asked)).tick w).status = p →
            ∃ moment ∈ ((tracedOffer s inner (inner.trace s asked)).tick w).state.2,
              moment.Grants p :=
          fun w hstatus => ih inner rfl (hchild inner rfl) w hstatus
        rw [← tick_traced_child asked] at hstatus
        rcases Decorator.exists_of_status_tick (P := fun k => ∃ moment ∈ k.2, moment.Grants p) hp
          hreported hpart s _ w hstatus with ⟨k, hk, moment, hmoment, hgrants⟩
        rw [trace]
        refine ⟨moment, List.mem_append_right _ (List.mem_cons_of_mem _ ?_), hgrants⟩
        exact List.mem_flatMap.2 ⟨k, Option.mem_toList.2 hk, hmoment⟩
  | reference part =>
    rcases Service.exists_grants_of_send hp hs _ _ _ hstatus with
      hfailed | ⟨moment, hmoment, hgrants⟩
    · exact absurd hfailed (Status.ne_pending hp rfl)
    · rw [trace]
      exact ⟨moment, List.mem_cons_of_mem _ (List.mem_append_right _ hmoment), hgrants⟩
  | embedded tag root ih =>
    cases hn with
    | embedded hroot =>
      rw [trace]
      exact ih hroot w hstatus

end Node

/-- In the trace of a request that gives a pending status there is the moment that granted it. -/
theorem serve_exists_grants (plant : PlanId → World → Option TreeId × World) (depth : Nat)
    (operation : Operation) (tree : TreeId) (w : World)
    (hanswer : ((serve plant depth).ask operation tree w).1 = .ticked p) :
    ∃ moment ∈ serveTrace plant depth operation tree w, moment.Grants p := by
  induction depth generalizing operation tree w with
  | zero => cases hanswer
  | succ depth ih =>
    rcases serve_ask_cases plant (depth + 1) operation tree w with
      ⟨further, root, hdepth, hfree, hasked⟩ | hasked | ⟨-, hasked⟩
    · cases hdepth
      rw [hasked] at hanswer
      cases operation with
      | tick =>
        simp only [serveTrace, hfree]
        by_cases hroot : root.MadeOf (.echoing p)
        · have hstatus := Answer.ticked.inj hanswer
          rcases Node.exists_grants_of_status_tick hp ih hroot _ hstatus with
            ⟨moment, hmoment, hgrants⟩
          exact ⟨moment, List.mem_cons_of_mem _ hmoment, hgrants⟩
        · exact ⟨_, List.mem_cons_self, .entered hroot⟩
      | reset => cases hanswer
      | start => cases hanswer
      | finish => cases hanswer
    · rw [hasked] at hanswer
      cases hanswer
    · rw [hasked] at hanswer
      cases hanswer

end

/-- Pending statuses are never invented.  Take a node made of library nodes, in any state, and a
status that leaves an activation open: running, with no repetition, no retry, and no parallel node
that asks for all children by both policies; or sleeping, with no node that waits for time.  Shared
trees that are entered from references in the tick are to be made in the same way.  If no action
answers with the status when it has its turn, the tick does not give the status. -/
theorem Node.pending_not_invented (plant : PlanId → World → Option TreeId × World) (depth : Nat)
    {p : Status} (hp : p.isPending = true) {n : Node} (hn : n.MadeOf (.echoing p)) (w : World)
    (hentered : ∀ tree root,
      .entered tree root ∈ n.trace (serve plant depth) (serveTrace plant depth) w →
      root.MadeOf (.echoing p))
    (hanswers : ∀ name body u,
      .turn (.leaf (.action name body)) u ∈
        n.trace (serve plant depth) (serveTrace plant depth) w →
      body.answer u ≠ .ok p) :
    (n.tick (serve plant depth) w).status ≠ p := by
  intro hstatus
  rcases exists_grants_of_status_tick hp (serve_exists_grants hp plant depth) hn w hstatus with
    ⟨moment, hmoment, hgrants⟩
  cases hgrants with
  | answered hanswer => exact hanswers _ _ _ hmoment hanswer
  | entered hroot => exact hroot (hentered _ _ hmoment)

/-- A sub-tree passes on that its target sleeps; the target is a parallel node one of whose policies
asks for one child, so it does not run although its children disagree. -/
theorem Node.pending_not_invented_parallel :
    let tired := Node.leaf (.fixed "tired" .sleeping)
    let broken := Node.leaf (.fixed "broken" .failure)
    let root := Node.composite (.parallel .requireOne .requireAll) [tired, broken]
    let n := Node.reference (.toTree "watched" 0)
    let w := ((World.start (.empty .start) (.empty (.seeded 0))).addTree root).2
    let s := serve (plantFrom #[]) 1
    let trace := n.trace s (serveTrace (plantFrom #[]) 1) w
    Status.running.isPending = true ∧ n.MadeOf (.echoing .running) ∧
      (∀ tree root, .entered tree root ∈ trace → root.MadeOf (.echoing .running)) ∧
      (∀ name body u, .turn (.leaf (.action name body)) u ∈ trace →
        body.answer u ≠ .ok .running) ∧
      (n.tick s w).status ≠ .running ∧ (n.tick s w).status = .sleeping := by
  intro tired broken root n w s trace
  have htrace : ∃ u₀ u₁ u₂ u₃, trace =
      [.turn n u₀, .entered 0 root, .turn root u₁, .turn tired u₂, .turn broken u₃] :=
    ⟨_, _, _, _, rfl⟩
  rcases htrace with ⟨u₀, u₁, u₂, u₃, htrace⟩
  have hn : n.MadeOf (.echoing .running) := .reference trivial
  have hentered : ∀ tree root, .entered tree root ∈ trace → root.MadeOf (.echoing .running) := by
    intro tree found hfound
    simp only [htrace, List.mem_cons, List.not_mem_nil, or_false, reduceCtorEq, false_or,
      Moment.entered.injEq] at hfound
    rw [hfound.2]
    refine .composite (fun _ => .inl (by decide)) fun child hchild => ?_
    rcases List.mem_pair.1 hchild with rfl | rfl <;> exact .leaf trivial
  have hanswers : ∀ name body u, .turn (.leaf (.action name body)) u ∈ trace →
      body.answer u ≠ .ok .running := by
    intro name body u hturn
    simp only [htrace, List.mem_cons, List.not_mem_nil, or_false, reduceCtorEq, false_or,
      Moment.turn.injEq, n, root, tired, broken, Leaf.fixed, Node.leaf.injEq, Leaf.action.injEq,
      false_and] at hturn
    rcases hturn with ⟨⟨-, rfl⟩, -⟩ | ⟨⟨-, rfl⟩, -⟩ <;> simp [Supplier.answer]
  have hstatus := pending_not_invented (plantFrom #[]) 1 rfl hn w hentered hanswers
  exact ⟨rfl, hn, hentered, hanswers, hstatus, rfl⟩

end TickTree
