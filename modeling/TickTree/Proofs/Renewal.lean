import TickTree.Proofs.Cooldown
import TickTree.Proofs.Progress
import TickTree.Proofs.Reset.Completion

/-!
# Renewal of completed nodes

A node that has completed is not ticked again before it has been reset.  Inverters, cooldowns and
success rates pass a completion on without resetting anything; so the duty to reset lies with the
nearest node above that ends or repeats its activation, perhaps many ticks later.  Until then the
place of the completed node has been passed: a sequence or selector above it has gone on to a later
child, and comes back only through a reset.

Main results:

- Theorem `Composite.renews_tick`: a serial composite has passed a child, or it can be ticked again.
- Theorem `Decorator.renews_tick`: a decorator that goes on or restarts has a child to tick again.
- Theorem `Node.renewed_watch`: what one tick of a tree means for the next turn of a node in it.
-/

namespace TickTree

/-! ## Serial trees -/

/-- A repetition without a limit. -/
def Decorator.isEndless : Decorator → Bool
  | repetition limit _ => decide (limit < 0)
  | _ => false

/-- The trait of parts that tick one child at a time and repeat it within limits, and are no
references. -/
def Trait.serial : Trait where
  leaf _ := True
  composite part := part.IsSerial
  decorator part := part.isEndless = false
  reference _ := False
  leaf_reset _ := Iff.rfl
  composite_reset := Composite.isSerial_reset
  decorator_reset part := by cases part <;> exact Iff.rfl
  reference_letGo _ := Iff.rfl

/-- A tree without parallel nodes, repetitions without a limit, and references. -/
abbrev Node.Serial (n : Node) : Prop := n.MadeOf .serial

/-- A node that resets its children when it completes. -/
def Node.Restarts : Node → Prop
  | composite _ _ => True
  | decorator part _ => part.Restarts
  | _ => False

/-! ## Parents -/

/-- A sequence or selector has gone on to a child after the one at a position. -/
def Composite.hasPassed (position : Nat) : Composite → Bool
  | chain _ _ cursor => decide (position < cursor)
  | _ => false

/-- A child as its parent sees it, with what was done to it so far.  What was done is fitting, and
what a tick does is fitting if the child was ready for it; a child that is still at work or that was
reset is ready. -/
structure Offer.Renewed {κ : Type} (reset : κ → World → κ × World) (Fit Ready : κ → Prop)
    (o : Offer κ) : Prop where
  idle : Fit o.state
  tick : Ready o.state → ∀ u, Fit (o.tick u).state
  pending : Ready o.state → ∀ u, (o.tick u).status.isCompleted = false → Ready (o.tick u).state
  fit : ∀ k u, Fit k → Fit (reset k u).1
  ready : ∀ k u, Ready (reset k u).1

section

variable {κ : Type} {reset : κ → World → κ × World} {Fit Ready : κ → Prop} {o : Offer κ}

/-- A pass that is not over has passed a child, or leaves it ready. -/
theorem Chain.renews_pass (ho : o.Renewed reset Fit Ready) (hready : Ready o.state) (kind : Chain)
    (name : String) (position : Nat) {children : List (Offer κ)} {i : Nat}
    (hi : children[i]? = some o) (w : World) :
    let pass := kind.pass name position children w
    ∃ k, pass.states[i]? = some k ∧ Fit k ∧
      (pass.status.isCompleted = false → position + i < pass.position ∨ Ready k) := by
  induction children generalizing i position w with
  | nil => simp at hi
  | cons child rest ih =>
    unfold Chain.pass
    simp only []
    split
    next hpasses =>
      let logged := (child.tick w).world.report .trace s!"{name} {kind.progress} {position + 1}"
      cases i with
      | zero =>
        cases hi
        have hon := kind.le_position_pass name (position + 1) rest logged
        exact ⟨_, rfl, ho.tick hready w, fun _ => .inl (Nat.lt_of_succ_le hon)⟩
      | succ i =>
        rcases ih (position + 1) hi logged with ⟨k, hk, hfit, hnext⟩
        refine ⟨k, hk, hfit, fun hpending => (hnext hpending).imp_left fun hpassed => ?_⟩
        rw [Nat.add_right_comm] at hpassed
        exact hpassed
    next hpasses =>
      cases i with
      | zero =>
        cases hi
        exact ⟨_, rfl, ho.tick hready w, fun hpending => .inr (ho.pending hready w hpending)⟩
      | succ i =>
        have hrest : rest[i]? = some o := hi
        refine ⟨o.state, ?_, ho.idle, fun _ => .inr hready⟩
        simp only [List.getElem?_cons_succ, List.getElem?_map, hrest, Option.map_some]

/-- Ticking one child leaves every child ready that is still at work or was not ticked. -/
theorem renews_tickAt (ho : o.Renewed reset Fit Ready) (hready : Ready o.state) (position : Nat)
    {children : List (Offer κ)} {i : Nat} (hi : children[i]? = some o) (w : World) :
    ∃ k, (tickAt position children w).state[i]? = some k ∧ Fit k ∧
      ((tickAt position children w).status.isCompleted = false → Ready k) := by
  induction children generalizing i position with
  | nil => simp at hi
  | cons child rest ih =>
    cases position with
    | zero =>
      cases i with
      | zero =>
        cases hi
        exact ⟨_, rfl, ho.tick hready w, ho.pending hready w⟩
      | succ i =>
        have hrest : rest[i]? = some o := hi
        refine ⟨o.state, ?_, ho.idle, fun _ => hready⟩
        simp only [tickAt, Ticked.map, List.getElem?_cons_succ, List.getElem?_map, hrest,
          Option.map_some]
    | succ position =>
      cases i with
      | zero =>
        cases hi
        exact ⟨o.state, rfl, ho.idle, fun _ => hready⟩
      | succ i => exact ih position hi

/-- When an activation ends, every child is ready again. -/
theorem Composite.renews_settle (ho : o.Renewed reset Fit Ready) (part : Composite)
    {t : Ticked (List κ)} {i : Nat}
    (h : ∃ k, t.state[i]? = some k ∧ Fit k ∧
      (t.status.isCompleted = false → part.hasPassed i = true ∨ Ready k)) :
    let settled := settle reset part t
    ∃ k, settled.state.2[i]? = some k ∧ Fit k ∧
      (settled.state.1.hasPassed i = true ∨ Ready k) := by
  rcases h with ⟨k, hk, hfit, hnext⟩
  unfold settle
  split
  next hcompleted =>
    let u := (resetAll reset (t.state.take i) t.world).2
    have hreached : (resetAll reset t.state t.world).1[i]? = some (reset k u).1 :=
      (reaches_resetAll World.passage_true (fun _ _ => trivial) hk t.world).2.2
    exact ⟨_, hreached, ho.fit k u hfit, .inr (ho.ready k u)⟩
  next hpending => exact ⟨k, hk, hfit, hnext (Bool.eq_false_iff.2 hpending)⟩

/-- A serial composite has passed a child, or the child can be ticked again. -/
theorem Composite.renews_tick {part : Composite} (hpart : part.IsSerial)
    (ho : o.Renewed reset Fit Ready) {children : List (Offer κ)} {i : Nat}
    (hi : children[i]? = some o) (h : part.hasPassed i = true ∨ Ready o.state) (w : World) :
    let t := part.tick reset children w
    ∃ k, t.state.2[i]? = some k ∧ Fit k ∧ (t.state.1.hasPassed i = true ∨ Ready k) := by
  cases part with
  | chain kind name cursor =>
    apply renews_settle ho
    by_cases hpassed : i < cursor
    · refine ⟨o.state, ?_, ho.idle, fun _ => .inl (decide_eq_true ?_)⟩
      · have hlength : i < (children.take cursor).length := by
          have hbelow := (List.getElem?_eq_some_iff.1 hi).1
          rw [List.length_take]
          omega
        rw [List.getElem?_append_left (by rwa [List.length_map]), List.getElem?_map,
          List.getElem?_take_of_lt hpassed, hi, Option.map_some]
      · exact Nat.lt_of_lt_of_le hpassed (kind.le_position_pass name cursor _ w)
    · have hready : Ready o.state := h.resolve_left fun hpast => hpassed (of_decide_eq_true hpast)
      have hdrop : (children.drop cursor)[i - cursor]? = some o := by
        rw [List.getElem?_drop, Nat.add_sub_cancel' (Nat.le_of_not_lt hpassed), hi]
      have hbefore : ((children.take cursor).map Offer.state).length = cursor := by
        have hbelow := (List.getElem?_eq_some_iff.1 hi).1
        rw [List.length_map, List.length_take]
        omega
      rcases kind.renews_pass ho hready name cursor hdrop w with ⟨k, hk, hfit, hnext⟩
      refine ⟨k, ?_, hfit, fun hpending => (hnext hpending).imp_left fun hgone => ?_⟩
      · rw [List.getElem?_append_right (by omega), hbefore, hk]
      · rw [Nat.add_sub_cancel' (Nat.le_of_not_lt hpassed)] at hgone
        exact decide_eq_true hgone
  | randomSelector source selected =>
    have hready : Ready o.state := h.resolve_left Bool.false_ne_true
    have hnonempty : children.isEmpty = false := by
      cases children with
      | nil => simp at hi
      | cons first rest => rfl
    simp only [Composite.tick, hnonempty]
    apply renews_settle ho
    rcases renews_tickAt ho hready (choose source selected children.length w).1 hi
      (choose source selected children.length w).2 with ⟨k, hk, hfit, hnext⟩
    exact ⟨k, hk, hfit, fun hpending => .inr (hnext hpending)⟩
  | parallel success failure => exact hpart.elim

/-! ### Decorators -/

/-- A repetition with a limit leaves its child ready. -/
theorem Decorator.renews_tickRepetition (ho : o.Renewed reset Fit Ready)
    (hready : Ready o.state) {limit : Int32} (hlimit : ¬ limit < 0) (count : Int32) (w : World) :
    ∃ k, (tickRepetition reset limit count o w).state.2 = some k ∧ Fit k ∧ Ready k := by
  have hfit := ho.tick hready w
  have hpending := ho.pending hready w
  have hreset : Fit (reset (o.tick w).state (o.tick w).world).1 ∧
      Ready (reset (o.tick w).state (o.tick w).world).1 := ⟨ho.fit _ _ hfit, ho.ready _ _⟩
  unfold tickRepetition
  simp only [if_neg hlimit]
  cases hstatus : (o.tick w).status with
  | success =>
    simp only []
    split
    · exact ⟨_, rfl, hreset⟩
    · exact ⟨_, rfl, hreset⟩
  | failure => exact ⟨_, rfl, hreset⟩
  | running => exact ⟨_, rfl, hfit, hpending (by rw [hstatus]; rfl)⟩
  | sleeping => exact ⟨_, rfl, hfit, hpending (by rw [hstatus]; rfl)⟩

/-- A retry leaves its child ready. -/
theorem Decorator.renews_tickRetry (ho : o.Renewed reset Fit Ready) (hready : Ready o.state)
    (limit count : Int32) (w : World) :
    ∃ k, (tickRetry reset limit count o w).state.2 = some k ∧ Fit k ∧ Ready k := by
  have hfit := ho.tick hready w
  have hpending := ho.pending hready w
  have hreset : ∀ u, Fit (reset (o.tick w).state u).1 ∧ Ready (reset (o.tick w).state u).1 :=
    fun u => ⟨ho.fit _ _ hfit, ho.ready _ _⟩
  unfold tickRetry
  simp only []
  cases hstatus : (o.tick w).status with
  | success => exact ⟨_, rfl, hreset _⟩
  | failure =>
    simp only []
    split
    · exact ⟨_, rfl, hreset _⟩
    · exact ⟨_, rfl, hreset _⟩
  | running => exact ⟨_, rfl, hfit, hpending (by rw [hstatus]; rfl)⟩
  | sleeping => exact ⟨_, rfl, hfit, hpending (by rw [hstatus]; rfl)⟩

/-- A wait for success leaves its child ready. -/
theorem Decorator.renews_tickSleepUntilSuccess (ho : o.Renewed reset Fit Ready)
    (hready : Ready o.state) (timer : Timer) (w : World) :
    ∃ k, (tickSleepUntilSuccess reset timer o w).state.2 = some k ∧ Fit k ∧ Ready k := by
  let t := o.tick (w.poll timer).2.2
  have hfit : Fit t.state := ho.tick hready _
  have hpending := ho.pending hready (w.poll timer).2.2
  have hfailed : Fit (resetFailed reset t).state ∧
      (t.status ≠ .success → Ready (resetFailed reset t).state) := by
    unfold resetFailed
    split
    next hfailure => exact ⟨ho.fit _ _ hfit, fun _ => ho.ready _ _⟩
    next hfailure =>
      refine ⟨hfit, fun hsuccess => hpending ?_⟩
      cases hstatus : t.status with
      | success => exact absurd hstatus hsuccess
      | failure => exact absurd hstatus hfailure
      | running => rfl
      | sleeping => rfl
  unfold tickSleepUntilSuccess
  simp only []
  split
  next hsuccess => exact ⟨_, rfl, ho.fit _ _ hfit, ho.ready _ _⟩
  next hsuccess =>
    split
    · exact ⟨_, rfl, ho.fit _ _ hfailed.1, ho.ready _ _⟩
    · exact ⟨_, rfl, hfailed.1, hfailed.2 hsuccess⟩

/-- A decorator that goes on, and one that restarts its child, leaves the child ready. -/
theorem Decorator.renews_tick {part : Decorator} (hpart : part.isEndless = false)
    (ho : o.Renewed reset Fit Ready) (hready : Ready o.state) (s : Service) (name : κ → String)
    (w : World) :
    let t := part.tick s reset name (some o) w
    ∃ k, t.state.2 = some k ∧ Fit k ∧
      (t.status.isCompleted = false ∨ part.Restarts → Ready k) := by
  -- Parts that never reset their child leave it ready only while it is at work.
  have hkept : ∀ {u : World} {status : Status} (left : Decorator) {p : Prop},
      (p → (o.tick u).status.isCompleted = false) →
      ∃ k, (keep left status (o.tick u)).state.2 = some k ∧ Fit k ∧ (p → Ready k) :=
    fun left _ hp => ⟨_, rfl, ho.tick hready _, fun h => ho.pending hready _ (hp h)⟩
  cases part with
  | inverter =>
    refine hkept .inverter fun h => ?_
    have hpending := h.resolve_right id
    rwa [Decorator.tick, keep, Status.isCompleted_invert] at hpending
  | repetition limit count =>
    rcases renews_tickRepetition ho hready (of_decide_eq_false hpart) count w with
      ⟨k, hk, hfit, hnext⟩
    exact ⟨k, hk, hfit, fun _ => hnext⟩
  | retry limit count =>
    rcases renews_tickRetry ho hready limit count w with ⟨k, hk, hfit, hnext⟩
    exact ⟨k, hk, hfit, fun _ => hnext⟩
  | cooldown clock period last =>
    simp only [Decorator.tick, tickCooldown]
    split
    · refine ⟨o.state, rfl, ho.idle, fun h => ?_⟩
      exact hready
    · exact hkept _ fun h => h.resolve_right id
  | successRate source percentage =>
    simp only [Decorator.tick, tickSuccessRate]
    split
    · exact ⟨o.state, rfl, ho.idle, fun _ => hready⟩
    · exact hkept _ fun h => h.resolve_right id
  | sleepUntilSuccess timer =>
    rcases renews_tickSleepUntilSuccess ho hready timer w with ⟨k, hk, hfit, hnext⟩
    exact ⟨k, hk, hfit, fun _ => hnext⟩

end

/-! ## Records -/

/-- A watched node that was done or not is done after a record: it has completed and was not reset
since. -/
def Activity.leavesDone (done : Bool) (a : Activity) : Bool :=
  if a.wasReset then false
  else match a.turn with
    | some turn => turn.status.isCompleted
    | none => done

/-- A watched node that is done has no turn. -/
def Activity.Fits (done : Bool) (a : Activity) : Prop := a.turn.isSome = true → done = false

namespace Node

/-- No tick reaches a place before the tree is reset above it: a sequence or selector on the way has
passed it, or there is no such place. -/
def hasPassed : (path : List Nat) → Node → Bool
  | [], _ => false
  | i :: rest, composite part children =>
    part.hasPassed i || (children[i]?.map (hasPassed rest)).getD true
  | _ :: rest, decorator _ child => (child.map (hasPassed rest)).getD true
  | _ :: rest, embedded _ root => hasPassed rest root
  | _ :: _, leaf _ => true
  | _ :: _, reference _ => true

/-- A watched node that is done after all that happened stands at a place that has been passed. -/
def Ready (path : List Nat) (done : Bool) (k : Node × Activity) : Prop :=
  k.2.leavesDone done = true → k.1.hasPassed path = true

/-- A place that is missing counts as passed. -/
theorem hasPassed_of_at? {path : List Nat} {n : Node} (h : n.at? path = none) :
    n.hasPassed path = true := by
  induction path generalizing n with
  | nil => cases h
  | cons i rest ih =>
    cases n with
    | leaf part => rfl
    | composite part children =>
      simp only [at?] at h
      simp only [hasPassed]
      cases hchild : children[i]? with
      | none => simp
      | some child =>
        rw [hchild] at h
        simp [ih h]
    | decorator part child =>
      cases child with
      | none => rfl
      | some inner => exact ih (n := inner) h
    | reference part => rfl
    | embedded tag root => exact ih (n := root) h

variable {s : Service} {path : List Nat} {done : Bool}

/-- A reset that reaches the watched node makes it ready; where there is none, the place counts as
passed. -/
theorem ready_watchedReset (k : Node × Activity) (w : World) :
    Ready path done (watchedReset s path k w).1 := by
  intro hdone
  rcases hplace : k.1.at? path with _ | m
  · apply hasPassed_of_at?
    show (k.1.reset s w).1.at? path = none
    rw [fst_reset, at?_cleared, hplace, Option.map_none]
  · have hreset := wasReset_watchedReset s hplace w
    rw [Activity.leavesDone, if_pos hreset] at hdone
    cases hdone

/-- A child that keeps the discipline when it is watched is renewed by its parent's resets. -/
theorem renewed_offer {child : Node}
    (h : (done = true → child.hasPassed path = true) → ∀ w,
      (child.watch s path w).state.2.Fits done ∧
        ((child.watch s path w).status.isCompleted = false →
          Ready path done (child.watch s path w).state)) :
    Offer.Renewed (watchedReset s path) (fun k => k.2.Fits done) (Ready path done)
      (child.watched s path) where
  idle hturn := absurd hturn Bool.false_ne_true
  tick hready u := (h hready u).1
  pending hready u := (h hready u).2
  fit _ _ hfit := hfit
  ready := ready_watchedReset

/-- What one tick of a serial tree means for the next turn of a node in it: the node has no turn
while it is done, and unless the tick completes the tree, its next turn will find it renewed.  A
tree that restarts renews it also on completion. -/
theorem renewed_watch (s : Service) (path : List Nat) (done : Bool) {n : Node} (hn : n.Serial)
    (hready : done = true → n.hasPassed path = true) (w : World) :
    (n.watch s path w).state.2.Fits done ∧
      ((n.watch s path w).status.isCompleted = false ∨ (path ≠ [] ∧ n.Restarts) →
        Ready path done (n.watch s path w).state) := by
  induction path generalizing n w with
  | nil =>
    have hfresh : done = false := Bool.eq_false_iff.2 fun hdone => Bool.false_ne_true (hready hdone)
    refine ⟨fun _ => hfresh, fun h hdone => ?_⟩
    rcases h with hpending | ⟨hpath, -⟩
    · have hcompleted : (n.watch s [] w).status.isCompleted = true := hdone
      rw [hpending] at hcompleted
      exact absurd hcompleted Bool.false_ne_true
    · exact absurd rfl hpath
  | cons i rest ih =>
    have hquiet : Activity.quiet.Fits done := fun hturn => absurd hturn Bool.false_ne_true
    cases hn with
    | leaf _ => exact ⟨hquiet, fun _ _ => rfl⟩
    | reference h => exact h.elim
    | @composite part children hpart hchildren =>
      simp only [watch_composite, Ticked.map]
      cases hchild : children[i]? with
      | none =>
        have hall := handled_watched s.passes_true part children rest w
        rw [hall.no_child (getElem?_watched_of_none hchild rest)]
        refine ⟨hquiet, fun _ _ => ?_⟩
        simp only [hasPassed, List.getElem?_map, Option.map_none, Option.getD_none, Bool.or_true,
          hall.no_child (getElem?_watched_of_none hchild rest)]
      | some child =>
        have hserial : child.Serial := hchildren child (List.mem_of_getElem? hchild)
        have hrenewed := renewed_offer (s := s) fun h w =>
          ⟨(ih hserial h w).1, fun hpending => (ih hserial h w).2 (.inl hpending)⟩
        have hstart : part.hasPassed i = true ∨ Ready rest done (child, .quiet) := by
          by_cases hpast : part.hasPassed i = true
          · exact .inl hpast
          · refine .inr fun hdone => ?_
            have hchildPassed := hready hdone
            simpa only [hasPassed, Bool.eq_false_iff.2 hpast, hchild, Bool.false_or,
              Option.map_some, Option.getD_some] using hchildPassed
        rcases part.renews_tick hpart hrenewed (getElem?_watched hchild rest) hstart w with
          ⟨k, hk, hfit, hnext⟩
        rw [hk]
        refine ⟨hfit, fun _ hdone => ?_⟩
        simp only [hasPassed, List.getElem?_map, hk, Option.map_some, Option.getD_some,
          Bool.or_eq_true]
        exact hnext.imp_right fun hk => hk hdone
    | @decorator part child hpart hchild =>
      cases child with
      | none => exact ⟨hquiet, fun _ _ => rfl⟩
      | some inner =>
        have hserial := hchild inner rfl
        have hrenewed := renewed_offer (s := s) fun h w =>
          ⟨(ih hserial h w).1, fun hpending => (ih hserial h w).2 (.inl hpending)⟩
        rcases Decorator.renews_tick hpart hrenewed hready s (fun k => k.1.name) w with
          ⟨k, hk, hfit, hnext⟩
        simp only [watch_decorator, Ticked.map, hk, Option.map_some, Option.getD_some]
        exact ⟨hfit, fun h hdone => hnext (h.imp_right And.right) hdone⟩
    | @embedded tag root hroot =>
      rcases ih hroot hready w with ⟨hfit, hnext⟩
      exact ⟨hfit, fun h => hnext (.inl (h.resolve_right fun hrestarts => hrestarts.2))⟩

end Node

end TickTree
