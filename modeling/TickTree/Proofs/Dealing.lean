import TickTree.Proofs.Duality.Crown

/-!
# What parents do with their children

In the course of an operation a parent ticks and resets children, one after the other, and between
that it may prepare itself, choose a child and write log records.  These dealings are listed here,
for children of any kind, and doing them one after the other is all that the parent does to its
children and to the world.  So what is said of the list is said of the parent: a child that is not
in the list is left alone, and one that is there is ticked or reset just so often and in this order.

Main results:

- Theorem `Composite.leadAll_dealings`: the dealings of a composite are what its tick does.
- Theorem `Decorator.leadAll_dealings`: the dealings of a decorator are what its tick does.
-/

namespace TickTree

variable {κ : Type}

/-- A unit as its parent sees it. -/
def Units.offer (u : Units κ) (k : κ) : Offer κ := ⟨k, u.tick k⟩

/-- What a decorator does before it turns to its child: it asks its supplier, draws a number, polls
its timer. -/
def Decorator.prepared (s : Service) : Decorator → World → World
  | cooldown _ period _, w => (period.get s w).2
  | successRate source percentage, w => ((percentage.get s w).2.unit source).2
  | sleepUntilSuccess timer, w => (w.poll timer).2.2
  | _, w => w

/-! ## Dealings -/

/-- Something that a parent does in the course of an operation. -/
inductive Dealing where
  /-- Ticks the child at a position, which gives a status. -/
  | tick (position : Nat) (status : Status)
  /-- Resets the child at a position. -/
  | reset (position : Nat)
  /-- Draws the position of a child. -/
  | choose (source : SourceId) (bound position : Nat)
  /-- Does what a decorator does before it turns to its child. -/
  | prepare (part : Decorator)
  /-- Writes a log record. -/
  | report (level : Level) (message : String)

namespace Dealing

/-- The dealing is with a child. -/
def isHandling : Dealing → Bool
  | tick _ _ => true
  | reset _ => true
  | _ => false

/-- The child that is ticked in a dealing, with the status that it gives. -/
def tick? : Dealing → Option (Nat × Status)
  | tick position status => some (position, status)
  | _ => none

variable (s : Service) (u : Units κ)

/-- With children in these states, in one world, the dealing turns out as it says, and it leads to
the other states and the other world. -/
def Leads : Dealing → List κ × World → List κ × World → Prop
  | tick position status, x, y => ∃ k, x.1[position]? = some k ∧ (u.tick k x.2).status = status ∧
      y = (x.1.set position (u.tick k x.2).state, (u.tick k x.2).world)
  | reset position, x, y => ∃ k, x.1[position]? = some k ∧
      y = (x.1.set position (u.reset k x.2).1, (u.reset k x.2).2)
  | choose source bound position, x, y => x.2.index bound source = (position, y.2) ∧ y.1 = x.1
  | prepare part, x, y => y = (x.1, part.prepared s x.2)
  | report level message, x, y => y = (x.1, x.2.report level message)

/-- Dealings lead from some states and a world to others when they are done one after the other. -/
def LeadAll : List Dealing → List κ × World → List κ × World → Prop
  | [], x, y => x = y
  | dealing :: rest, x, z => ∃ y, dealing.Leads s u x y ∧ LeadAll rest y z

variable {s u}

theorem LeadAll.append {first second : List Dealing} {x y z : List κ × World}
    (h : LeadAll s u first x y) (h' : LeadAll s u second y z) :
    LeadAll s u (first ++ second) x z := by
  induction first generalizing x with
  | nil =>
    cases h
    exact h'
  | cons dealing rest ih =>
    rcases h with ⟨after, hdealing, hrest⟩
    exact ⟨after, hdealing, ih hrest⟩

/-- A tick of the child that comes after some others. -/
theorem leads_tick (before rest : List κ) (k : κ) (w : World) :
    (tick before.length (u.tick k w).status).Leads s u (before ++ k :: rest, w)
      (before ++ (u.tick k w).state :: rest, (u.tick k w).world) := by
  refine ⟨k, by simp, rfl, ?_⟩
  simp

/-- A reset of the child that comes after some others. -/
theorem leads_reset (before rest : List κ) (k : κ) (w : World) :
    (reset before.length).Leads s u (before ++ k :: rest, w)
      (before ++ (u.reset k w).1 :: rest, (u.reset k w).2) := by
  refine ⟨k, by simp, ?_⟩
  simp

/-- A tick of an only child. -/
theorem leads_tick_only (k : κ) (w : World) :
    (tick 0 (u.tick k w).status).Leads s u ([k], w) ([(u.tick k w).state], (u.tick k w).world) :=
  leads_tick [] [] k w

/-- A reset of an only child. -/
theorem leads_reset_only (k : κ) (w : World) :
    (reset 0).Leads s u ([k], w) ([(u.reset k w).1], (u.reset k w).2) :=
  leads_reset [] [] k w

/-- Resets of so many children in order. -/
def resets (count : Nat) : List Dealing := (List.range count).map reset

/-- What is done with the children after a status: they are reset when it ends the activation. -/
def ending (status : Status) (count : Nat) : List Dealing :=
  if status.isCompleted then resets count else []

/-- In a list of dealings only those with children count as ticks. -/
theorem filterMap_tick?_filter (dealings : List Dealing) :
    (dealings.filter isHandling).filterMap tick? = dealings.filterMap tick? := by
  rw [List.filterMap_filter]
  refine List.filterMap_congr ?_
  intro dealing _
  cases dealing <;> rfl

/-- Resets are no ticks. -/
@[simp] theorem filterMap_tick?_ending (status : Status) (count : Nat) :
    (ending status count).filterMap tick? = [] := by
  unfold ending resets
  split
  · rw [List.filterMap_map]
    exact List.filterMap_eq_nil_iff.2 fun _ _ => rfl
  · rfl

/-- What is done when an activation ends is done with the children. -/
@[simp] theorem filter_isHandling_ending (status : Status) (count : Nat) :
    (ending status count).filter isHandling = ending status count := by
  unfold ending resets
  split
  · simp [isHandling]
  · rfl

/-- Resetting all children is a list of resets. -/
theorem leadAll_resets (children : List κ) (w : World) :
    LeadAll s u (resets children.length) (children, w) (resetAll u.reset children w) := by
  suffices h : ∀ (before rest : List κ) (w : World),
      LeadAll s u ((List.range' before.length rest.length).map reset) (before ++ rest, w)
        (before ++ (resetAll u.reset rest w).1, (resetAll u.reset rest w).2) by
    rw [resets, List.range_eq_range']
    exact h [] children w
  intro before rest w
  induction rest generalizing before w with
  | nil => rfl
  | cons k rest ih =>
    have hrest := ih (before ++ [(u.reset k w).1]) (u.reset k w).2
    simp only [List.length_append, List.length_singleton, List.append_assoc,
      List.singleton_append] at hrest
    exact ⟨_, leads_reset before rest k w, hrest⟩

/-- The children are reset when a status ends the activation. -/
theorem leadAll_ending (part : Composite) (t : Ticked (List κ)) :
    LeadAll s u (ending t.status t.state.length) (t.state, t.world)
      ((Composite.settle u.reset part t).state.2, (Composite.settle u.reset part t).world) := by
  unfold ending Composite.settle
  split
  · exact leadAll_resets t.state t.world
  · rfl

end Dealing

/-! ## Composites -/

open Dealing (LeadAll)

/-- The dealings of a pass through children, the first of which has a position. -/
def Chain.dealings (u : Units κ) (kind : Chain) (name : String) :
    (position : Nat) → List κ → World → List Dealing
  | _, [], _ => []
  | position, k :: rest, w =>
    let t := u.tick k w
    if t.status = kind.passes then
      let next := position + 1
      let message := s!"{name} {kind.progress} {next}"
      .tick position t.status :: .report .trace message ::
        dealings u kind name next rest (t.world.report .trace message)
    else
      [.tick position t.status]

/-- The dealings of ticking all children, the first of which has a position. -/
def tickAllDealings (u : Units κ) : (position : Nat) → List κ → World → List Dealing
  | _, [], _ => []
  | position, k :: rest, w =>
    let t := u.tick k w
    .tick position t.status :: tickAllDealings u (position + 1) rest t.world

/-- The dealings of ticking the child at a position. -/
def tickAtDealings (u : Units κ) (position : Nat) (children : List κ) (w : World) : List Dealing :=
  match children[position]? with
  | none => []
  | some k => [.tick position (u.tick k w).status]

/-- The dealings of selecting a child for an activation. -/
def chooseDealings (source : SourceId) (selected : Option Nat) (bound : Nat) (w : World) :
    List Dealing :=
  match selected with
  | some _ => []
  | none => [.choose source bound (w.index bound source).1]

/-- The dealings of a composite in one tick. -/
def Composite.dealings (u : Units κ) (part : Composite) (children : List κ) (w : World) :
    List Dealing :=
  let status := (part.tick u.reset (children.map u.offer) w).status
  match part with
  | .chain kind name cursor =>
    kind.dealings u name cursor (children.drop cursor) w ++ Dealing.ending status children.length
  | .randomSelector source selected =>
    if children.isEmpty then
      []
    else
      let chosen := choose source selected children.length w
      chooseDealings source selected children.length w ++
        tickAtDealings u chosen.1 children chosen.2 ++ Dealing.ending status children.length
  | .parallel _ _ => tickAllDealings u 0 children w ++ Dealing.ending status children.length

section

variable {s : Service} {u : Units κ}

@[simp] theorem Units.map_state_offer (children : List κ) :
    (children.map u.offer).map Offer.state = children := by
  rw [List.map_map]
  exact List.map_id _

/-- The dealings of a pass are what it does. -/
theorem Chain.leadAll_dealings (kind : Chain) (name : String) (before rest : List κ) (w : World) :
    let pass := kind.pass name before.length (rest.map u.offer) w
    LeadAll s u (kind.dealings u name before.length rest w) (before ++ rest, w)
      (before ++ pass.states, pass.world) := by
  induction rest generalizing before w with
  | nil => rfl
  | cons k rest ih =>
    have htick := Dealing.leads_tick (s := s) (u := u) before rest k w
    simp only [List.map_cons, Chain.pass, dealings, Units.offer]
    split
    · have hrest := ih (before ++ [(u.tick k w).state])
        ((u.tick k w).world.report .trace s!"{name} {kind.progress} {before.length + 1}")
      simp only [List.length_append, List.length_singleton, List.append_assoc,
        List.singleton_append] at hrest
      exact ⟨_, htick, _, rfl, hrest⟩
    · refine ⟨_, htick, ?_⟩
      rw [Units.map_state_offer]
      rfl

/-- The dealings of ticking all children are what it does. -/
theorem leadAll_tickAllDealings (before rest : List κ) (w : World) :
    let all := tickAll (rest.map u.offer) w
    LeadAll s u (tickAllDealings u before.length rest w) (before ++ rest, w)
      (before ++ all.1.map Prod.snd, all.2) := by
  induction rest generalizing before w with
  | nil => rfl
  | cons k rest ih =>
    have hrest := ih (before ++ [(u.tick k w).state]) (u.tick k w).world
    simp only [List.length_append, List.length_singleton, List.append_assoc,
      List.singleton_append] at hrest
    exact ⟨_, Dealing.leads_tick before rest k w, hrest⟩

/-- Ticking at a position changes the child there, if there is one. -/
theorem tickAt_offer (position : Nat) (children : List κ) (w : World) :
    tickAt position (children.map u.offer) w =
      match children[position]? with
      | none => ⟨.failure, children, w⟩
      | some k =>
        ⟨(u.tick k w).status, children.set position (u.tick k w).state, (u.tick k w).world⟩ := by
  induction children generalizing position with
  | nil => cases position <;> rfl
  | cons k rest ih =>
    cases position with
    | zero =>
      rw [List.map_cons, tickAt, Units.map_state_offer]
      rfl
    | succ position =>
      rw [List.map_cons, tickAt, ih, List.getElem?_cons_succ]
      cases rest[position]? <;> rfl

/-- The dealings of ticking one child are what it does. -/
theorem leadAll_tickAtDealings (position : Nat) (children : List κ) (w : World) :
    let t := tickAt position (children.map u.offer) w
    LeadAll s u (tickAtDealings u position children w) (children, w) (t.state, t.world) := by
  simp only [tickAt_offer, tickAtDealings]
  cases hk : children[position]? with
  | none => rfl
  | some k => exact ⟨_, ⟨k, hk, rfl, rfl⟩, rfl⟩

/-- Selecting a child for an activation may take a draw. -/
theorem leadAll_chooseDealings (source : SourceId) (selected : Option Nat) (bound : Nat)
    (children : List κ) (w : World) :
    LeadAll s u (chooseDealings source selected bound w) (children, w)
      (children, (choose source selected bound w).2) := by
  cases selected with
  | some position => rfl
  | none => exact ⟨(children, (w.index bound source).2), ⟨rfl, rfl⟩, rfl⟩

/-- A tick of a composite keeps the number of children. -/
theorem Composite.length_state_tick (part : Composite) (children : List κ) (w : World) :
    (part.tick u.reset (children.map u.offer) w).state.2.length = children.length := by
  have hall : AllHandled (fun _ _ => True) u.reset (children.map u.offer) w _ _ :=
    part.handled_tick World.passage_true (fun _ _ => trivial) (fun _ _ _ => trivial) w
  rw [← hall.2.length_eq, List.length_map]

/-- Ending an activation keeps the number of children. -/
theorem Composite.length_state_settle (part : Composite) (t : Ticked (List κ)) :
    (settle u.reset part t).state.2.length = t.state.length := by
  unfold settle
  split
  · exact length_resetAll u.reset t.state t.world
  · rfl

/-- The dealings of a composite are what its tick does. -/
theorem Composite.leadAll_dealings (part : Composite) (children : List κ) (w : World) :
    let t := part.tick u.reset (children.map u.offer) w
    LeadAll s u (part.dealings u children w) (children, w) (t.state.2, t.world) := by
  have hlength := part.length_state_tick (u := u) children w
  have hend : ∀ (left : Composite) (t : Ticked (List κ)) {dealings : List Dealing},
      (settle u.reset left t).state.2.length = children.length →
      LeadAll s u dealings (children, w) (t.state, t.world) →
      LeadAll s u (dealings ++ Dealing.ending (settle u.reset left t).status children.length)
        (children, w) ((settle u.reset left t).state.2, (settle u.reset left t).world) := by
    intro left t dealings hlength h
    rw [status_settle, ← hlength, length_state_settle]
    exact h.append (Dealing.leadAll_ending left t)
  cases part with
  | chain kind name cursor =>
    refine hend _ ⟨_, _, _⟩ hlength ?_
    rw [← List.map_drop, ← List.map_take, Units.map_state_offer]
    by_cases hcursor : cursor ≤ children.length
    · have hpass := kind.leadAll_dealings (s := s) (u := u) name (children.take cursor)
        (children.drop cursor) w
      rw [List.length_take, Nat.min_eq_left hcursor, List.take_append_drop] at hpass
      exact hpass
    · have hbeyond : children.length ≤ cursor := Nat.le_of_not_le hcursor
      simp only [List.drop_eq_nil_of_le hbeyond, List.take_of_length_le hbeyond, Chain.dealings,
        Chain.pass, List.map_nil, List.append_nil]
      rfl
  | randomSelector source selected =>
    simp only [tick, List.isEmpty_map] at hlength
    simp only [dealings, tick, List.isEmpty_map]
    cases hempty : children.isEmpty with
    | true =>
      rw [List.isEmpty_iff.1 hempty]
      rfl
    | false =>
      rw [hempty] at hlength
      simp only [Bool.false_eq_true, if_false, List.length_map] at hlength ⊢
      exact hend _ (tickAt _ _ _) hlength
        ((leadAll_chooseDealings source selected children.length children w).append
          (leadAll_tickAtDealings _ children _))
  | parallel success failure =>
    exact hend _ ⟨_, _, _⟩ hlength (leadAll_tickAllDealings [] children w)

end

/-! ## Decorators -/

/-- The dealings of a decorator in one tick. -/
def Decorator.dealings (s : Service) (u : Units κ) (name : κ → String) (part : Decorator)
    (child : Option κ) (w : World) : List Dealing :=
  match child with
  | none => []
  | some k =>
    match part with
    | .inverter => [.tick 0 (u.tick k w).status]
    | .repetition limit _ =>
      let t := u.tick k w
      .tick 0 t.status :: if limit < 0 then [] else Dealing.ending t.status 1
    | .retry limit count =>
      let t := u.tick k w
      let attempts := (count + 1).toInt
      .tick 0 t.status ::
        if t.status = .failure ∧ 0 < limit ∧ limit ≤ count + 1 then
          [.report .debug s!"Retry gave up after {attempts} attempts", .reset 0]
        else
          Dealing.ending t.status 1
    | .cooldown clock period last =>
      let supplied := period.get s w
      match cooldownLeft last supplied.1 (supplied.2.now clock) with
      | some left =>
        let blocked := name k
        let millis := left.millis
        [.prepare part, .report .debug s!"Cooldown blocked {blocked}, {millis}ms left"]
      | none => [.prepare part, .tick 0 (u.tick k supplied.2).status]
    | .successRate source percentage =>
      let supplied := percentage.get s w
      let drawn := supplied.2.unit source
      if chance supplied.1 ≤ Source.unitValue drawn.1 then
        let skipped := name k
        [.prepare part, .report .debug s!"SuccessRate skipped {skipped}"]
      else
        [.prepare part, .tick 0 (u.tick k drawn.2).status]
    | .sleepUntilSuccess timer =>
      let polled := w.poll timer
      let t := u.tick k polled.2.2
      let waiting := (Decorator.sleepUntilSuccess polled.2.1).name
      .prepare part :: .tick 0 t.status ::
        if t.status = .success then
          [.reset 0]
        else
          (if t.status = .failure then [.reset 0] else []) ++
            if polled.1 then [.report .debug s!"{waiting} timed out", .reset 0] else []

section

open Dealing (leads_tick_only leads_reset_only)

variable {s : Service} {u : Units κ}

/-- The dealings of a repetition are what its tick does. -/
theorem Decorator.leadAll_tickRepetition (limit count : Int32) (k : κ) (w : World)
    (name : κ → String) :
    let t := tickRepetition u.reset limit count (u.offer k) w
    LeadAll s u ((Decorator.repetition limit count).dealings s u name (some k) w) ([k], w)
      (t.state.2.toList, t.world) := by
  refine ⟨_, leads_tick_only k w, ?_⟩
  simp only [tickRepetition, Units.offer]
  split
  · rfl
  · rcases u.tick k w with ⟨status, state, world⟩
    cases status with
    | success =>
      simp only []
      split
      · exact ⟨_, leads_reset_only state world, rfl⟩
      · exact ⟨_, leads_reset_only state world, rfl⟩
    | failure => exact ⟨_, leads_reset_only state world, rfl⟩
    | running => rfl
    | sleeping => rfl

/-- The dealings of a retry are what its tick does. -/
theorem Decorator.leadAll_tickRetry (limit count : Int32) (k : κ) (w : World)
    (name : κ → String) :
    let t := tickRetry u.reset limit count (u.offer k) w
    LeadAll s u ((Decorator.retry limit count).dealings s u name (some k) w) ([k], w)
      (t.state.2.toList, t.world) := by
  refine ⟨_, leads_tick_only k w, ?_⟩
  simp only [tickRetry, Units.offer]
  rcases u.tick k w with ⟨status, state, world⟩
  cases status with
  | success => exact ⟨_, leads_reset_only state world, rfl⟩
  | failure =>
    simp only [true_and]
    split
    · exact ⟨_, rfl, _, leads_reset_only state _, rfl⟩
    · exact ⟨_, leads_reset_only state world, rfl⟩
  | running => rfl
  | sleeping => rfl

/-- A child that failed is reset. -/
theorem Decorator.leadAll_resetFailed (t : Ticked κ) :
    let left := resetFailed u.reset t
    LeadAll s u (if t.status = .failure then [.reset 0] else []) ([t.state], t.world)
      ([left.state], left.world) := by
  unfold resetFailed
  split
  · exact ⟨_, leads_reset_only t.state t.world, rfl⟩
  · rfl

/-- The dealings of a wait for success are what its tick does. -/
theorem Decorator.leadAll_tickSleepUntilSuccess (timer : Timer) (k : κ) (w : World)
    (name : κ → String) :
    let t := tickSleepUntilSuccess u.reset timer (u.offer k) w
    LeadAll s u ((Decorator.sleepUntilSuccess timer).dealings s u name (some k) w) ([k], w)
      (t.state.2.toList, t.world) := by
  let t := u.tick k (w.poll timer).2.2
  refine ⟨_, rfl, _, leads_tick_only k _, ?_⟩
  unfold tickSleepUntilSuccess
  by_cases hsuccess : t.status = .success
  · simp only [Units.offer, t, hsuccess, if_true]
    exact ⟨_, leads_reset_only t.state t.world, rfl⟩
  · simp only [Units.offer, t, hsuccess, if_false]
    refine (leadAll_resetFailed t).append ?_
    split
    · exact ⟨_, rfl, _, leads_reset_only _ _, rfl⟩
    · rfl

/-- The dealings of a decorator are what its tick does. -/
theorem Decorator.leadAll_dealings (name : κ → String) (part : Decorator) (child : Option κ)
    (w : World) :
    let t := part.tick s u.reset name (child.map u.offer) w
    LeadAll s u (part.dealings s u name child w) (child.toList, w)
      (t.state.2.toList, t.world) := by
  cases child with
  | none => rfl
  | some k =>
    cases part with
    | inverter => exact ⟨_, leads_tick_only k w, rfl⟩
    | repetition limit count => exact leadAll_tickRepetition limit count k w name
    | retry limit count => exact leadAll_tickRetry limit count k w name
    | cooldown clock period last =>
      simp only [dealings, Option.map_some, tick, tickCooldown]
      cases cooldownLeft last (period.get s w).1 ((period.get s w).2.now clock) with
      | some left => exact ⟨_, rfl, _, rfl, rfl⟩
      | none => exact ⟨_, rfl, _, leads_tick_only k _, rfl⟩
    | successRate source percentage =>
      simp only [dealings, Option.map_some, tick, tickSuccessRate]
      split
      · exact ⟨_, rfl, _, rfl, rfl⟩
      · exact ⟨_, rfl, _, leads_tick_only k _, rfl⟩
    | sleepUntilSuccess timer => exact leadAll_tickSleepUntilSuccess timer k w name

end

end TickTree
