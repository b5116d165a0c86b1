import Mathlib.Data.List.DropRight
import TickTree.Proofs.Dealing.Chronicle

/-!
# Unbroken streaks

A wait for an idle streak keeps two readings: that of the first tick of its activation, and that of
the tick at which the idle streak began which is still unbroken.  Both follow from what the ticks of
the activation have found, which is a list of looks: the second one is the reading at the beginning
of the longest row of idle looks at its end.

Main results:

- Theorem `Look.idleSince_eq_some_iff`: where an unbroken streak begins.
- Theorem `Leaf.watching_run`: a wait for an idle streak keeps these two readings.
- Theorem `Leaf.idle_streak_measured`: what a tick of a wait for an idle streak does.
-/

namespace TickTree

/-! ## Looks -/

/-- What a wait for an idle streak finds in a world: whether it is bypassed, the reading after that
was asked, and whether the host is idle. -/
structure Look where
  bypassed : Bool
  time : Duration
  idle : Bool

/-- Looks at a world in the order in which a tick does. -/
def IdleWatch.look (s : Service) (watch : IdleWatch) (test : Supplier Bool)
    (bypass : Option (Supplier Bool)) (w : World) : Look :=
  let asked := askBypass s bypass w
  ⟨asked.1, asked.2.now watch.clock, (test.get s asked.2).1⟩

namespace Look

/-- The reading at the earliest look such that it and all later ones were idle. -/
def idleSince (looks : List Look) : Option Duration :=
  (looks.rtakeWhile idle).head?.map time

/-- An idle look goes on with the streak or begins one, and any other look breaks it. -/
theorem idleSince_concat (looks : List Look) (look : Look) :
    idleSince (looks ++ [look]) =
      if look.idle then some ((idleSince looks).getD look.time) else none := by
  unfold idleSince
  rw [List.rtakeWhile_concat]
  split
  · cases looks.rtakeWhile idle <;> rfl
  · rfl

/-- Idle looks after one that was not idle are the streak. -/
theorem rtakeWhile_idle_append {earlier streak : List Look}
    (hidle : ∀ look ∈ streak, look.idle = true)
    (hbroken : ∀ look ∈ earlier.getLast?, look.idle = false) :
    (earlier ++ streak).rtakeWhile idle = streak := by
  induction streak using List.reverseRecOn with
  | nil =>
    rw [List.append_nil, List.rtakeWhile_eq_nil_iff]
    intro hearlier
    rw [hbroken _ (List.getLast_mem_getLast? hearlier)]
    exact Bool.false_ne_true
  | append_singleton streak look ih =>
    rw [← List.append_assoc, List.rtakeWhile_concat_pos _ _ _ (hidle look (by simp))]
    rw [ih fun other hother => hidle other (List.mem_append_left _ hother)]

/-- A streak that is unbroken begins at an idle look after which all looks were idle, and before
which none was made or the last one was not idle. -/
theorem idleSince_eq_some_iff {looks : List Look} {since : Duration} :
    idleSince looks = some since ↔
      ∃ earlier first later, looks = earlier ++ first :: later ∧ first.time = since ∧
        (∀ look ∈ first :: later, look.idle = true) ∧
        ∀ look ∈ earlier.getLast?, look.idle = false := by
  constructor
  · intro h
    rcases Option.map_eq_some_iff.1 h with ⟨first, hfirst, hsince⟩
    rcases List.head?_eq_some_iff.1 hfirst with ⟨later, hstreak⟩
    refine ⟨looks.rdropWhile idle, first, later, ?_, hsince, ?_, ?_⟩
    · rw [← hstreak, List.rdropWhile_append_rtakeWhile]
    · rw [← hstreak]
      exact fun look hlook => List.mem_rtakeWhile_imp hlook
    · intro look hlook
      rcases List.mem_getLast?_eq_getLast hlook with ⟨hne, rfl⟩
      exact Bool.eq_false_iff.2 (List.rdropWhile_last_not idle looks hne)
  · rintro ⟨earlier, first, later, rfl, rfl, hidle, hbroken⟩
    rw [idleSince, rtakeWhile_idle_append hidle hbroken]
    rfl

/-- A streak does not begin in the future. -/
theorem getD_idleSince_le {looks : List Look} {now : Duration}
    (h : ∀ look ∈ looks, look.time ≤ now) : (idleSince looks).getD now ≤ now := by
  cases hsince : idleSince looks with
  | none => exact Nat.le_refl _
  | some since =>
    rcases idleSince_eq_some_iff.1 hsince with ⟨earlier, first, later, rfl, rfl, -, -⟩
    exact h first (List.mem_append_right _ List.mem_cons_self)

/-- After some earlier looks there is one that is idle, and the streak in which it stands has lasted
for so long. -/
def HasLasted (idleFor : Duration) (earlier : List Look) (here : Look) : Prop :=
  here.idle = true ∧ ∀ since ∈ idleSince (earlier ++ [here]),
    since.nanos + idleFor.nanos ≤ here.time.nanos

instance (idleFor : Duration) (earlier : List Look) (here : Look) :
    Decidable (here.HasLasted idleFor earlier) :=
  inferInstanceAs (Decidable (_ ∧ ∀ since ∈ idleSince (earlier ++ [here]), _))

/-- A look comes too late when the activation began more than the timeout before it. -/
def IsLate (timeout : Duration) (earlier : List Look) (here : Look) : Prop :=
  (earlier.headD here).time.nanos + timeout.nanos < here.time.nanos

instance (timeout : Duration) (earlier : List Look) (here : Look) :
    Decidable (here.IsLate timeout earlier) :=
  inferInstanceAs (Decidable (_ < _))

/-- For an idle look only the streak before it matters. -/
theorem hasLasted_iff {idleFor : Duration} {earlier : List Look} {here : Look}
    (hidle : here.idle = true) (hpast : ∀ look ∈ earlier, look.time ≤ here.time) :
    here.HasLasted idleFor earlier ↔
      idleFor ≤ here.time - (idleSince earlier).getD here.time := by
  have hsince : ((idleSince earlier).getD here.time).nanos ≤ here.time.nanos :=
    getD_idleSince_le hpast
  unfold HasLasted
  rw [idleSince_concat, if_pos hidle, Duration.le_def, Duration.nanos_sub]
  simp only [hidle, Option.mem_some_iff, forall_eq', true_and]
  omega

end Look

namespace IdleWatch

variable (watch : IdleWatch)

/-- A watch in whose activation there were some looks. -/
def after (looks : List Look) : IdleWatch :=
  { watch with started := looks.head?.map Look.time, idleSince := Look.idleSince looks }

/-- The first look of an activation gives its start, and each look goes on with a streak or breaks
it. -/
theorem after_concat (earlier : List Look) (here : Look) :
    watch.after (earlier ++ [here]) =
      { watch with
        started := some ((watch.after earlier).started.getD here.time)
        idleSince := if here.idle then some ((watch.after earlier).idleSince.getD here.time)
          else none } := by
  unfold after
  rw [Look.idleSince_concat]
  cases earlier <;> rfl

section

variable (s : Service) (test : Supplier Bool) (bypass : Option (Supplier Bool)) (name : String)

/-- What a tick of a watch comes to when it looks, after some earlier looks in its activation.  With
the bypass it succeeds, and nothing else is asked; past the timeout it fails, and the host is not
asked whether it is idle.  Otherwise that is asked once, and the tick succeeds when the streak has
lasted long enough. -/
def verdict (earlier : List Look) (w : World) : Ticked IdleWatch :=
  let here := watch.look s test bypass w
  let asked := askBypass s bypass w
  let tested := test.get s asked.2
  if here.bypassed then ⟨.success, watch.after [], asked.2⟩
  else if here.IsLate watch.timeout earlier then
    ⟨.failure, watch.after [], asked.2.report .debug s!"{name} timed out"⟩
  else if here.HasLasted watch.idleFor earlier then ⟨.success, watch.after [], tested.2⟩
  else ⟨.sleeping, watch.after (earlier ++ [here]), tested.2⟩

/-- A tick ends the activation, or it adds a look without the bypass to it. -/
theorem verdict_cases (earlier : List Look) (w : World) :
    let here := watch.look s test bypass w
    let t := watch.verdict s test bypass name earlier w
    (t.status.isCompleted = true ∧ t.state = watch.after []) ∨
      (here.bypassed = false ∧ t =
        ⟨.sleeping, watch.after (earlier ++ [here]), (test.get s (askBypass s bypass w).2).2⟩) := by
  unfold verdict
  simp only []
  split
  · exact .inl ⟨rfl, rfl⟩
  · rename_i hbypassed
    split
    · exact .inl ⟨rfl, rfl⟩
    · split
      · exact .inl ⟨rfl, rfl⟩
      · exact .inr ⟨Bool.eq_false_iff.2 hbypassed, rfl⟩

/-- A tick of a watch that has not looked into the future gives the verdict. -/
theorem tick_after {earlier : List Look} {w : World}
    (hpast : ∀ look ∈ earlier, look.time ≤ (watch.look s test bypass w).time) :
    (watch.after earlier).tick s test bypass name w =
      watch.verdict s test bypass name earlier w := by
  let here := watch.look s test bypass w
  have hstarted : (watch.after earlier).started.getD here.time = (earlier.headD here).time := by
    cases earlier <;> rfl
  have hlate : watch.timeout < here.time - (watch.after earlier).started.getD here.time ↔
      here.IsLate watch.timeout earlier := by
    rw [hstarted, Duration.lt_def, Duration.nanos_sub, Look.IsLate]
    omega
  simp only [verdict, after_concat]
  refine ite_congr rfl (fun _ => rfl) fun _ => ?_
  refine ite_congr (propext hlate) (fun _ => rfl) fun _ => ?_
  cases hidle : here.idle with
  | false =>
    have hbroken : ¬ here.idle = true := Bool.eq_false_iff.1 hidle
    exact (if_neg hbroken).trans (if_neg fun h => hbroken h.1).symm
  | true =>
    refine (if_pos hidle).trans ?_
    exact ite_congr (propext (Look.hasLasted_iff hidle hpast).symm) (fun _ => rfl) fun _ => rfl

end

end IdleWatch

/-! ## Leaves in runs -/

namespace Leaf

/-- Carries out an operation on a leaf. -/
def conduct (s : Service) : Conduct Leaf
  | .tick, part, w =>
    let t := part.tick s w
    (⟨.tick, .ticked t.status, []⟩, t.state, t.world)
  | .reset, part, w => (⟨.reset, .done, []⟩, part.reset, part.observe .reset w)
  | operation, part, w => (⟨operation, .done, []⟩, part, part.observe operation w)

/-- A leaf of a tree is conducted so. -/
theorem perform_leaf (s : Service) (operation : Operation) (part : Leaf) (w : World) :
    let step := conduct s operation part w
    (Node.leaf part).perform s operation w = (step.1.answer, .leaf step.2.1, step.2.2) := by
  cases operation with
  | tick =>
    simp only [Node.perform, Node.tick]
    rfl
  | reset =>
    simp only [Node.perform, Node.reset]
    rfl
  | start => rfl
  | finish => rfl

/-- No leaf moves a clock back. -/
theorem forward_conduct {s : Service} {clock : ClockId} (hs : s.Forward clock) :
    (conduct s).Forward clock := by
  intro operation part w
  have hbefore := Node.before_perform hs operation (.leaf part) w
  rwa [perform_leaf] at hbefore

/-- What the ticks of the current activation of a wait for an idle streak have found. -/
def looks (s : Service) (watch : IdleWatch) (test : Supplier Bool) (bypass : Option (Supplier Bool))
    (history : List Occasion) : List Look :=
  (Occasion.waits history).map (watch.look s test bypass)

section

variable {s : Service} {watch : IdleWatch} {test : Supplier Bool} {bypass : Option (Supplier Bool)}
  {history : List Occasion} {x : Leaf} {v w : World}

/-- Where a wait for an idle streak stands after a history that has left a world. -/
structure Watching (s : Service) (watch : IdleWatch) (test : Supplier Bool)
    (bypass : Option (Supplier Bool)) (history : List Occasion) (x : Leaf) (v : World) : Prop where
  /-- What it has stored is a matter of the looks in the activation. -/
  state : x = .sleepUntilIdle (watch.after (looks s watch test bypass history)) test bypass
  /-- A look with the bypass would have ended the activation. -/
  unbypassed : ∀ look ∈ looks s watch test bypass history, look.bypassed = false
  past : ∀ look ∈ looks s watch test bypass history, look.time ≤ v.now watch.clock

/-- At the beginning of an activation there are no looks. -/
theorem watching_nil (hx : x = .sleepUntilIdle (watch.after []) test bypass)
    (hwaits : Occasion.waits history = []) : Watching s watch test bypass history x v := by
  have hlooks : looks s watch test bypass history = [] := by
    rw [looks, hwaits]
    rfl
  refine ⟨hlooks ▸ hx, ?_, ?_⟩
  · rw [hlooks]
    exact fun look hlook => absurd hlook List.not_mem_nil
  · rw [hlooks]
    exact fun look hlook => absurd hlook List.not_mem_nil

/-- A tick looks after all earlier looks. -/
theorem Watching.le_time (h : Watching s watch test bypass history x v)
    (hs : s.Forward watch.clock) (hw : v.Before watch.clock w) :
    ∀ look ∈ looks s watch test bypass history, look.time ≤ (watch.look s test bypass w).time := by
  have hasked : w.Before watch.clock (IdleWatch.askBypass s bypass w).2 := by
    cases bypass with
    | none => exact .refl _ w
    | some bypass => exact bypass.before_get hs w
  exact fun look hlook => Nat.le_trans (h.past look hlook) (hw.trans hasked)

/-- A tick gives the verdict on what it finds. -/
theorem Watching.tick_eq (h : Watching s watch test bypass history x v)
    (hs : s.Forward watch.clock) (hw : v.Before watch.clock w) :
    let t := watch.verdict s test bypass x.name (looks s watch test bypass history) w
    conduct s .tick x w =
      (⟨.tick, .ticked t.status, []⟩, .sleepUntilIdle t.state test bypass, t.world) := by
  rw [h.state]
  simp only [conduct, tick, watch.tick_after s test bypass _ (h.le_time hs hw)]
  rfl

/-- One more tick. -/
theorem Watching.tick (h : Watching s watch test bypass history x v) (hs : s.Forward watch.clock)
    (hw : v.Before watch.clock w) :
    let step := conduct s .tick x w
    Watching s watch test bypass (history ++ [⟨step.1, w⟩]) step.2.1 step.2.2 := by
  intro step
  have hstep := h.tick_eq hs hw
  have hwaits := Occasion.waits_tick history (o := ⟨step.1, w⟩)
    (congrArg (fun step => step.1.operation) hstep)
  rcases watch.verdict_cases s test bypass x.name (looks s watch test bypass history) w with
    ⟨hcompleted, hstate⟩ | ⟨hbypassed, hverdict⟩
  · have hends : step.1.ends = true := (congrArg (fun step => step.1.ends) hstep).trans hcompleted
    rw [hends] at hwaits
    refine watching_nil ?_ hwaits
    rw [← hstate]
    exact congrArg (fun step => step.2.1) hstep
  · rw [hverdict] at hstep
    have hends : step.1.ends = false := congrArg (fun step => step.1.ends) hstep
    have hlooks : looks s watch test bypass (history ++ [⟨step.1, w⟩]) =
        looks s watch test bypass history ++ [watch.look s test bypass w] := by
      rw [looks, hwaits, hends]
      exact List.map_append
    refine ⟨?_, ?_, ?_⟩
    · rw [hlooks]
      exact congrArg (fun step => step.2.1) hstep
    · rw [hlooks, List.forall_mem_append, List.forall_mem_singleton]
      exact ⟨h.unbypassed, hbypassed⟩
    · have hleft : (watch.look s test bypass w).time ≤ step.2.2.now watch.clock := by
        rw [show step.2.2 = _ from congrArg (fun step => step.2.2) hstep]
        exact test.before_get hs _
      rw [hlooks, List.forall_mem_append, List.forall_mem_singleton]
      exact ⟨fun look hlook => Nat.le_trans (h.le_time hs hw look hlook) hleft, hleft⟩

/-- Starting and finishing change nothing, but time may have passed. -/
theorem Watching.idle (h : Watching s watch test bypass history x v) (hw : v.Before watch.clock w)
    {operation : Operation} (htick : operation ≠ .tick) (hreset : operation ≠ .reset)
    (found : World) :
    Watching s watch test bypass (history ++ [⟨⟨operation, .done, []⟩, found⟩]) x w := by
  have hlooks : looks s watch test bypass (history ++ [⟨⟨operation, .done, []⟩, found⟩]) =
      looks s watch test bypass history := by
    rw [looks, Occasion.waits_idle history htick hreset]
    rfl
  refine ⟨?_, ?_, ?_⟩
  · rw [hlooks]
    exact h.state
  · rw [hlooks]
    exact h.unbypassed
  · rw [hlooks]
    exact fun look hlook => Nat.le_trans (h.past look hlook) hw

/-- In every run a wait for an idle streak stands where its history says. -/
theorem watching_run (hs : s.Forward watch.clock)
    (h : (conduct s).Chronicle watch.clock (.sleepUntilIdle (watch.after []) test bypass) history x
      v) :
    Watching s watch test bypass history x v := by
  induction h with
  | begins v => exact watching_nil rfl rfl
  | @next history x v _ operation w hw ih =>
    have hleft : v.Before watch.clock (conduct s operation x w).2.2 :=
      hw.trans (forward_conduct hs operation x w)
    cases operation with
    | tick => exact ih.tick hs hw
    | reset =>
      refine watching_nil ?_ ?_
      · rw [ih.state]
        rfl
      · rw [Occasion.waits_concat]
        rfl
    | start => exact ih.idle hleft (by decide) (by decide) w
    | finish => exact ih.idle hleft (by decide) (by decide) w

/-- A wait for an idle streak measures an unbroken streak.  In every run in which the clock does not
go back, it holds the reading of the first look of the activation and that at which the unbroken
streak began, and each tick gives the verdict on what it finds; none of the earlier looks was
bypassed.  When a tick ends the activation, or a reset does, it holds neither reading any more. -/
theorem idle_streak_measured {config : Config} (hs : s.Forward config.clock)
    (idleFor timeout : Duration)
    (h : (conduct s).Chronicle config.clock
      (.sleepUntilIdle (.new idleFor timeout config) test bypass) history x v)
    (hw : v.Before config.clock w) :
    let watch := IdleWatch.new idleFor timeout config
    let earlier := looks s watch test bypass history
    let t := watch.verdict s test bypass x.name earlier w
    x = .sleepUntilIdle (watch.after earlier) test bypass ∧
      (∀ look ∈ earlier, look.bypassed = false) ∧
      conduct s .tick x w =
        (⟨.tick, .ticked t.status, []⟩, .sleepUntilIdle t.state test bypass, t.world) ∧
      (t.status.isCompleted = true → t.state = watch) ∧
      (conduct s .reset x w).2.1 = .sleepUntilIdle watch test bypass := by
  intro watch earlier t
  have hwatching : Watching s watch test bypass history x v := watching_run hs h
  refine ⟨hwatching.state, hwatching.unbypassed, hwatching.tick_eq hs hw, ?_, ?_⟩
  · intro hcompleted
    rcases watch.verdict_cases s test bypass x.name earlier w with ⟨-, hstate⟩ | ⟨-, hverdict⟩
    · exact hstate
    · rw [show t = _ from hverdict] at hcompleted
      cases hcompleted
  · rw [hwatching.state]
    rfl

end

/-- A host that is always idle, for a streak of one second within a timeout of one second: a second
later both limits are met exactly, and the tick succeeds. -/
theorem idle_streak_measured_exactly :
    let s := serve (plantFrom #[]) 1
    let config := Config.standard
    let limit : Duration := ⟨nanosPerSecond, by decide⟩
    let made := Leaf.sleepUntilIdle (.new limit limit config) (.constant true) none
    let w := World.start (.empty .start) (.empty (.seeded 0))
    let first := conduct s .tick made w
    let later := first.2.2.setClock config.clock limit
    first.2.2.Before config.clock later ∧ first.1.answer = .ticked .sleeping ∧
      (conduct s .tick first.2.1 later).1.answer = .ticked .success := by
  intro s config limit made w first later
  have hs : s.Forward config.clock := serve_forward #[] 1 _
  have hlater : first.2.2.Before config.clock later := World.now_le_now_setClock _ _ _ _
  have hbegins : (conduct s).Chronicle config.clock made [] made w := .begins w
  have hnext : (conduct s).Chronicle config.clock made [⟨first.1, w⟩] first.2.1 first.2.2 :=
    hbegins.next .tick (.refl _ w)
  rcases idle_streak_measured hs limit limit hbegins (.refl _ w) with ⟨-, -, hfirst, -⟩
  rcases idle_streak_measured hs limit limit hnext hlater with ⟨-, -, hsecond, -⟩
  refine ⟨hlater, ?_, ?_⟩
  · exact (congrArg (fun step => step.1.answer) hfirst).trans rfl
  · refine (congrArg (fun step => step.1.answer) hsecond).trans ?_
    decide +kernel

end Leaf

end TickTree
