import TickTree.Proofs.Cooldown.Watch

/-!
# Cooldowns inside trees

A cooldown keeps the reading at the latest completion of its child, its stamp.  Enclosing nodes can
take the stamp away: whoever resets its children resets the cooldown as well.  In between the stamp
only moves forward, so the child of a cooldown rests for the whole period after each completion
unless an enclosing node resets the cooldown.

Main results:

- Theorem `Node.gated_watch`: what one tick of a tree does to a cooldown and its child.
- Theorem `Regular.rest`: a regular course of the child keeps the period.
- Theorem `Node.cooldown_limits`: a cooldown limits its child wherever it stands, between resets.
-/

namespace TickTree

/-! ## One tick of the tree -/

/-- The stamp of a cooldown after one tick of its tree. -/
def Activity.stamp (clock : ClockId) (last : Option Duration) (a : Activity) : Option Duration :=
  if a.wasReset then none
  else match a.turn with
    | some turn => if turn.status.isCompleted then some (turn.after.now clock) else last
    | none => last

/-- What happened to the child of a cooldown was let through by the cooldown. -/
def Activity.Gated (clock : ClockId) (period : Duration) (last : Option Duration)
    (a : Activity) : Prop :=
  ∀ turn, a.turn = some turn → cooldownLeft last period (turn.before.now clock) = none

/-- A tree with a cooldown at a place. -/
def Node.Cooled (path : List Nat) (clock : ClockId) (period : Duration)
    (last : Option Duration) (n : Node) : Prop :=
  ∃ child, n.at? path = some (.decorator (.cooldown clock (.constant period) last) (some child))

/-- The record of one tick fits the cooldown that the tick leaves behind. -/
structure Node.GatedAt (path : List Nat) (clock : ClockId) (period : Duration)
    (last : Option Duration) (k : Node × Activity) : Prop where
  cooled : k.1.Cooled path clock period (k.2.stamp clock last)
  gated : k.2.Gated clock period last

namespace Node

variable {path : List Nat} {clock : ClockId} {period : Duration} {last : Option Duration}
  {s : Service}

/-- A cooldown whose child has no turn keeps its stamp. -/
theorem GatedAt.quiet {n : Node} (h : n.Cooled path clock period last) :
    GatedAt path clock period last (n, .quiet) :=
  ⟨h, fun _ hturn => nomatch hturn⟩

/-- A reset of the tree reaches the child of the cooldown, and takes the stamp away. -/
theorem GatedAt.reset {k : Node × Activity} (h : GatedAt path clock period last k) (u : World) :
    GatedAt path clock period last (watchedReset s (path ++ [0]) k u).1 := by
  rcases h with ⟨⟨child, hchild⟩, hgated⟩
  have hplace : k.1.at? (path ++ [0]) = some child := by
    rw [at?_append, hchild]
    rfl
  refine ⟨⟨child.cleared, ?_⟩, hgated⟩
  rw [Activity.stamp, if_pos (wasReset_watchedReset s hplace u)]
  show (k.1.reset s u).1.at? path = _
  rw [fst_reset, at?_cleared, hchild]
  rfl

/-- A child on the path that is handled by its parent has a fitting record. -/
theorem GatedAt.of_handled {child : Node} {v w : World} {k : Node × Activity}
    (hcooled : child.Cooled path clock period last)
    (hwatch : ∀ u, GatedAt path clock period last (child.watch s (path ++ [0]) u).state)
    (h : Handled (fun _ _ => True) (watchedReset s (path ++ [0]))
      (child.watched s (path ++ [0])) v w k) :
    GatedAt path clock period last k :=
  h.keep (P := fun _ k => GatedAt path clock period last k) (fun _ _ => .quiet hcooled)
    (fun u _ _ _ => hwatch u) fun _ u _ _ hk _ => hk.reset u

/-- What one tick of a cooldown does to its child. -/
theorem gated_watch_cooldown (child : Node) (w : World) :
    GatedAt [] clock period last
      ((decorator (.cooldown clock (.constant period) last) (some child)).watch s [0] w).state := by
  simp only [watch, Option.map_some, Decorator.tick, Decorator.tickCooldown, Supplier.get]
  cases hleft : cooldownLeft last period (w.now clock) with
  | some left => exact .quiet ⟨child, rfl⟩
  | none =>
    refine ⟨⟨_, rfl⟩, ?_⟩
    intro turn hturn
    cases hturn
    exact hleft

/-- What one tick of a tree does to a cooldown and its child: the child is only ticked when the
stamp lets it, and afterwards the stamp is what the record of the tick says. -/
theorem gated_watch {n : Node} (hn : n.Cooled path clock period last) (w : World) :
    GatedAt path clock period last (n.watch s (path ++ [0]) w).state := by
  induction path generalizing n w with
  | nil =>
    rcases hn with ⟨child, hchild⟩
    cases hchild
    exact gated_watch_cooldown child w
  | cons i rest ih =>
    rcases hn with ⟨target, htarget⟩
    cases n with
    | leaf part => cases htarget
    | composite part children =>
      rcases Option.bind_eq_some_iff.1 htarget with ⟨child, hchild, hcooled⟩
      have hall := handled_watched s.passes_true part children (rest ++ [0]) w
      rcases hall.child (getElem?_watched hchild (rest ++ [0])) with ⟨k, hk, hhandled⟩
      rcases GatedAt.of_handled ⟨target, hcooled⟩ (ih ⟨target, hcooled⟩) hhandled with
        ⟨⟨child', hchild'⟩, hgated⟩
      simp only [List.cons_append, watch_composite, Ticked.map, hk, Option.map_some,
        Option.getD_some]
      refine ⟨⟨child', ?_⟩, hgated⟩
      simp only [at?, List.getElem?_map, hk, Option.map_some, Option.bind_some]
      exact hchild'
    | decorator part child =>
      rcases Option.bind_eq_some_iff.1 htarget with ⟨inner, rfl, hcooled⟩
      rcases (handles_watched s.passes_true part inner (rest ++ [0]) w).child with
        ⟨k, hk, hhandled⟩
      rcases GatedAt.of_handled ⟨target, hcooled⟩ (ih ⟨target, hcooled⟩) hhandled with
        ⟨⟨child', hchild'⟩, hgated⟩
      simp only [List.cons_append, watch_decorator, Ticked.map, hk, Option.map_some,
        Option.getD_some]
      exact ⟨⟨child', hchild'⟩, hgated⟩
    | reference part => cases htarget
    | embedded tag root =>
      rcases ih ⟨target, htarget⟩ w with ⟨⟨child', hchild'⟩, hgated⟩
      exact ⟨⟨child', hchild'⟩, hgated⟩

end Node

/-! ## Courses -/

/-- A course of the child of a cooldown in which every tick was let through and no clock went
back, beginning at a reading and with a stamp. -/
inductive Regular (clock : ClockId) (period : Duration) :
    Duration → Option Duration → List Activity → Prop
  | nil (since : Duration) (last : Option Duration) : Regular clock period since last []
  | cons {v w : World} {since : Duration} {last : Option Duration} {a : Activity}
    {rest : List Activity} (hsince : since ≤ v.now clock) (hgated : a.Gated clock period last)
    (hvw : v.Before clock w)
    (hturn : ∀ turn, a.turn = some turn → turn.Within (World.Before clock) v w)
    (hrest : Regular clock period (w.now clock) (a.stamp clock last) rest) :
    Regular clock period since last (a :: rest)

namespace Regular

variable {clock : ClockId} {period since : Duration} {last : Option Duration}

/-- The end of a regular course is regular. -/
theorem of_append {first second : List Activity}
    (h : Regular clock period since last (first ++ second)) :
    ∃ since' last', Regular clock period since' last' second := by
  induction first generalizing since last with
  | nil => exact ⟨since, last, h⟩
  | cons a rest ih =>
    cases h with
    | cons _ _ _ _ hrest => exact ih hrest

/-- While the stamp is not taken away, the child is not ticked before the period has passed. -/
theorem rest_of_stamp {between after : List Activity} {second : Activity} {again : Turn}
    {stamp : Duration}
    (h : Regular clock period since (some stamp) (between ++ second :: after))
    (hstamp : stamp ≤ since) (hbetween : ∀ a ∈ between, a.wasReset = false)
    (hagain : second.turn = some again) :
    stamp.nanos + period.nanos ≤ (again.before.now clock).nanos := by
  induction between generalizing since stamp with
  | nil =>
    cases h with
    | @cons v w _ _ _ _ hsince hgated _ hturn _ =>
      have hgate := hgated again hagain
      have hbegins : v.now clock ≤ again.before.now clock := (hturn again hagain).begins
      rw [Duration.le_def] at hstamp hsince hbegins
      simp only [cooldownLeft] at hgate
      split at hgate
      · cases hgate
      · rename_i hrested
        rw [Duration.lt_def, Duration.nanos_sub] at hrested
        omega
  | cons a rest ih =>
    have hrest' := fun b hb => hbetween b (List.mem_cons_of_mem _ hb)
    cases h with
    | @cons v w _ _ _ _ hsince _ hvw hwithin hrest =>
      have hkept : a.wasReset = false := hbetween a List.mem_cons_self
      rw [List.append_eq] at hrest
      rcases hturn : a.turn with _ | turn
      · simp only [Activity.stamp, hkept, hturn] at hrest
        exact ih hrest (Nat.le_trans hstamp (Nat.le_trans hsince hvw)) hrest'
      · have hturned := hwithin turn hturn
        have hends : turn.after.now clock ≤ w.now clock := hturned.ends
        have hlasts : turn.before.now clock ≤ turn.after.now clock := hturned.lasts
        have hbegins : v.now clock ≤ turn.before.now clock := hturned.begins
        by_cases hcompleted : turn.status.isCompleted
        · simp only [Activity.stamp, hkept, hturn, hcompleted, if_true] at hrest
          have hlater := ih hrest hends hrest'
          rw [Duration.le_def] at hstamp hsince hbegins hlasts
          omega
        · simp only [Activity.stamp, hkept, hturn, hcompleted] at hrest
          exact ih hrest (Nat.le_trans hstamp (Nat.le_trans hsince hvw)) hrest'

/-- A regular course keeps the period: after a completion the child is not ticked before the period
has passed, unless the cooldown is reset in between. -/
theorem rest {before between after : List Activity} {first second : Activity} {done again : Turn}
    (h : Regular clock period since last (before ++ first :: (between ++ second :: after)))
    (hdone : first.turn = some done) (hcompleted : done.status.isCompleted = true)
    (hkept : ∀ a ∈ first :: between, a.wasReset = false) (hagain : second.turn = some again) :
    (done.after.now clock).nanos + period.nanos ≤ (again.before.now clock).nanos := by
  rcases h.of_append with ⟨since', last', hcourse⟩
  cases hcourse with
  | cons _ _ _ hwithin hrest =>
    have hfirst : first.wasReset = false := hkept first List.mem_cons_self
    simp only [Activity.stamp, hfirst, hdone, hcompleted, if_true] at hrest
    exact hrest.rest_of_stamp (hwithin done hdone).ends
      (fun a ha => hkept a (List.mem_cons_of_mem _ ha)) hagain

end Regular

/-! ## Runs of a tree -/

namespace Node

/-- Ticks a root once in each of some worlds, and records what happens at a place. -/
def watchAll (s : Service) (path : List Nat) : Node → List World → List Activity
  | _, [] => []
  | n, w :: rest =>
    let t := n.watch s path w
    t.state.2 :: watchAll s path t.state.1 rest

/-- A clock does not go back between the ticks of a root: what happens between them is up to the
host. -/
def Timely (s : Service) (clock : ClockId) : Node → List World → Prop
  | _, [] => True
  | n, w :: rest =>
    (∀ next, rest.head? = some next → (n.tick s w).world.Before clock next) ∧
      Timely s clock (n.tick s w).state rest

/-- A timely run of a tree is a regular course of the child of a cooldown in it. -/
theorem regular_watchAll {path : List Nat} {clock : ClockId} {period since : Duration}
    {last : Option Duration} {s : Service} (hs : s.Forward clock) {n : Node}
    (hn : n.Cooled path clock period last) (worlds : List World) (hworlds : n.Timely s clock worlds)
    (hsince : ∀ w, worlds.head? = some w → since ≤ w.now clock) :
    Regular clock period since last (n.watchAll s (path ++ [0]) worlds) := by
  induction worlds generalizing n since last with
  | nil => exact .nil since last
  | cons w rest ih =>
    rcases hworlds with ⟨hnext, hrest⟩
    rcases gated_watch (s := s) hn w with ⟨hcooled, hgated⟩
    rw [← fst_state_watch s (path ++ [0])] at hrest
    rw [← world_watch s (path ++ [0])] at hnext
    have hrecord := recorded_watch hs.passes (path ++ [0]) n w
    exact .cons (hsince w rfl) hgated hrecord.pass hrecord.turn (ih hcooled hrest hnext)

/-- Where all enclosing nodes spare their children, no tick of a run resets the cooldown. -/
theorem wasReset_watchAll {path : List Nat} {clock : ClockId} {period : Duration}
    {last : Option Duration} {s : Service} {n : Node}
    (hn : n.Cooled path clock period last) (hspared : n.sparedAlong path = true)
    (worlds : List World) : ∀ a ∈ n.watchAll s (path ++ [0]) worlds, a.wasReset = false := by
  induction worlds generalizing n last with
  | nil => exact fun a ha => absurd ha List.not_mem_nil
  | cons w rest ih =>
    rcases gated_watch (s := s) hn w with ⟨hcooled, -⟩
    have hstill : (n.watch s (path ++ [0]) w).state.1.sparedAlong path = true := by
      rw [← sparedAlong_cleared, cleared_watch, sparedAlong_cleared, hspared]
    intro a ha
    cases ha with
    | head =>
      have hlast : ∀ (m : Node) (u : World), n.at? path = some m →
          (m.watch s [0] u).state.2.wasReset = false := by
        intro m u hm
        rcases hn with ⟨child, hchild⟩
        rw [hchild] at hm
        cases hm
        simp only [watch, Option.map_some, Decorator.tick, Decorator.tickCooldown]
        split <;> rfl
      exact n.wasReset_watch s path [0] hspared hlast w
    | tail _ ha => exact ih hcooled hstill a ha

/-- A cooldown limits its child wherever it stands, between resets.  In every run of ticks of the
root during which the clock does not go back, the child of a cooldown is not ticked before the
period has passed since a completion, unless an enclosing node has reset the cooldown in between;
and where all enclosing nodes spare their children, this never happens. -/
theorem cooldown_limits (plans : Array TreePlan) (depth : Nat) {path : List Nat}
    {clock : ClockId} {period : Duration} {last : Option Duration} {child n : Node}
    (hn : n.at? path = some (.decorator (.cooldown clock (.constant period) last) (some child)))
    (worlds : List World) (hworlds : n.Timely (serve (plantFrom plans) depth) clock worlds)
    {before between after : List Activity} {first second : Activity} {done again : Turn}
    (hcourse : n.watchAll (serve (plantFrom plans) depth) (path ++ [0]) worlds =
      before ++ first :: (between ++ second :: after))
    (hdone : first.turn = some done) (hcompleted : done.status.isCompleted = true)
    (hagain : second.turn = some again) :
    ((∃ a ∈ first :: between, a.wasReset = true) ∨
      (done.after.now clock).nanos + period.nanos ≤ (again.before.now clock).nanos) ∧
    (n.sparedAlong path = true →
      (done.after.now clock).nanos + period.nanos ≤ (again.before.now clock).nanos) := by
  have hs := serve_forward plans depth clock
  have hregular := regular_watchAll hs ⟨child, hn⟩ worlds hworlds
    fun w _ => (show Duration.zero ≤ w.now clock from Nat.zero_le _)
  rw [hcourse] at hregular
  have hrest : (∀ a ∈ first :: between, a.wasReset = false) →
      (done.after.now clock).nanos + period.nanos ≤ (again.before.now clock).nanos :=
    fun hkept => hregular.rest hdone hcompleted hkept hagain
  constructor
  · by_cases hreset : ∃ a ∈ first :: between, a.wasReset = true
    · exact Or.inl hreset
    · apply Or.inr
      apply hrest
      intro a ha
      cases hkept : a.wasReset with
      | false => rfl
      | true => exact absurd ⟨a, ha, hkept⟩ hreset
  · intro hspared
    apply hrest
    intro a ha
    have hmember : a ∈ n.watchAll (serve (plantFrom plans) depth) (path ++ [0]) worlds := by
      rw [hcourse, List.mem_append]
      apply Or.inr
      rw [← List.cons_append, List.mem_append]
      exact Or.inl ha
    exact wasReset_watchAll ⟨child, hn⟩ hspared worlds a hmember

/-- An action that always succeeds, under a cooldown of one second. -/
def cooledAction : Node :=
  decorator (.cooled (.constant ⟨nanosPerSecond, by decide⟩) .standard)
    (some (.leaf (.infallible "p" ⟨0, "p", fun _ => ⟨[], .success⟩⟩)))

/-- By itself the action rests for a second. -/
theorem cooldown_limits_alone :
    let s := serve (plantFrom #[]) 1
    let w := World.start (.empty .start) (.empty (.seeded 0))
    let later := (cooledAction.tick s w).world.setClock 0 ⟨nanosPerSecond, by decide⟩
    ∃ done again, (cooledAction.watchAll s [0] [w, later]).map Activity.turn =
      [some done, some again] ∧
      (done.after.now 0).nanos + nanosPerSecond ≤ (again.before.now 0).nanos := by
  intro s w later
  have htimely : cooledAction.Timely s 0 [w, later] := by
    refine ⟨?_, ?_, trivial⟩
    · intro next hnext
      cases hnext
      exact World.now_le_now_setClock 0 0 _ _
    · intro next hnext
      cases hnext
  have hplace : cooledAction.at? [] = some cooledAction := rfl
  have hcourse : cooledAction.watchAll s [0] [w, later] = [] ++ _ :: ([] ++ _ :: []) := rfl
  refine ⟨_, _, rfl, ?_⟩
  exact (cooldown_limits #[] 1 hplace [w, later] htimely hcourse rfl rfl rfl).2 rfl

/-- In a selector the action does not rest: the selector resets it as soon as it has succeeded. -/
theorem cooldown_reset_by_selector :
    let s := serve (plantFrom #[]) 1
    let n := composite (.ofKind .selector) [cooledAction]
    let w := World.start (.empty .start) (.empty (.seeded 0))
    let worlds := [w, (n.tick s w).world]
    n.Timely s 0 worlds ∧
    ¬ ∀ (before between after : List Activity) (first second : Activity) (done again : Turn),
      n.watchAll s [0, 0] worlds = before ++ first :: (between ++ second :: after) →
      first.turn = some done → done.status.isCompleted = true → second.turn = some again →
      (done.after.now 0).nanos + nanosPerSecond ≤ (again.before.now 0).nanos := by
  intro s n w worlds
  refine ⟨⟨?_, ?_, trivial⟩, ?_⟩
  · intro next hnext
    cases hnext
    exact .refl 0 _
  · intro next hnext
    cases hnext
  · intro h
    have hrested := h [] [] [] _ _ _ _ rfl rfl rfl rfl
    exact absurd hrested (by decide)

end Node

end TickTree
