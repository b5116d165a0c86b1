import TickTree.Proofs.Cooldown.Clock
import TickTree.Proofs.Dealing.Episode

/-!
# Gates that open on time

A cooldown lets its child run when the period that has just been supplied has passed since the
latest completion, and blocks it otherwise.  Its stamp has to be the reading right after that
completion, and this is a matter of the whole run: the clock may move during the tick of the child,
while the supplier is asked, and between operations.  While the child is at work a constant period
cannot close the gate again, because it was open when the child was ticked last and time only goes
on.

Main results:

- Theorem `cooldownLeft_eq_none_iff`: when nothing is left of a cooldown.
- Theorem `Decorator.exists_cooling`: the stamp of a cooldown is the reading at the latest
  completion since the last reset.
- Theorem `Decorator.gate_opens_on_time`: what a tick of a cooldown does.
-/

namespace TickTree

variable {κ : Type}

open Dealing (LeadAll)

/-! ## Runs in time -/

/-- An episode, and the world that it leaves. -/
structure TimedEpisode where
  episode : Episode
  left : World

/-- Operations are carried out one after the other, each in a world in which a clock reads no less
than in the one that the operation before it has left: with this history they lead to a state and a
world. -/
inductive Conduct.Timeline {σ : Type} (c : Conduct σ) (clock : ClockId) (x : σ) :
    List TimedEpisode → σ → World → Prop
  | begins (v : World) : c.Timeline clock x [] x v
  | next {history : List TimedEpisode} {y : σ} {v : World} (h : c.Timeline clock x history y v)
      (operation : Operation) {w : World} (hw : v.Before clock w) :
      c.Timeline clock x (history ++ [⟨(c operation y w).1, (c operation y w).2.2⟩])
        (c operation y w).2.1 (c operation y w).2.2

namespace TimedEpisode

/-- The child has completed in the episode. -/
def completes (v : TimedEpisode) : Bool := v.episode.ticks.any fun t => t.2.isCompleted

/-- The reading of a clock right after the latest episode since the last reset in which the child
has completed. -/
def latest (clock : ClockId) (history : List TimedEpisode) : Option Duration :=
  ((history.reverse.takeWhile fun v => v.episode.operation ≠ .reset).find? completes).map
    fun v => v.left.now clock

/-- The latest tick or reset was a tick that has left the child at work. -/
def underway (history : List TimedEpisode) : Bool :=
  match history.reverse.find? fun v =>
    v.episode.operation = .tick ∨ v.episode.operation = .reset with
  | some v => v.episode.ticks.any fun t => t.2.isPending
  | none => false

variable (clock : ClockId) (history : List TimedEpisode) {v : TimedEpisode}

/-- A reset forgets all completions. -/
theorem latest_reset (h : v.episode.operation = .reset) : latest clock (history ++ [v]) = none := by
  rw [latest, List.reverse_append, List.reverse_singleton, List.singleton_append,
    List.takeWhile_cons_of_neg (by simpa using h)]
  rfl

/-- An episode in which the child completes is the latest one. -/
theorem latest_completes (h : v.episode.operation ≠ .reset) (hcompletes : v.completes = true) :
    latest clock (history ++ [v]) = some (v.left.now clock) := by
  rw [latest, List.reverse_append, List.reverse_singleton, List.singleton_append,
    List.takeWhile_cons_of_pos (by simpa using h), List.find?_cons_of_pos hcompletes]
  rfl

/-- Other episodes change nothing. -/
theorem latest_quiet (h : v.episode.operation ≠ .reset) (hquiet : v.completes = false) :
    latest clock (history ++ [v]) = latest clock history := by
  rw [latest, List.reverse_append, List.reverse_singleton, List.singleton_append,
    List.takeWhile_cons_of_pos (by simpa using h),
    List.find?_cons_of_neg (by rw [hquiet]; exact Bool.false_ne_true)]
  rfl

/-- A tick or reset tells whether the child is at work. -/
theorem underway_handled (h : v.episode.operation = .tick ∨ v.episode.operation = .reset) :
    underway (history ++ [v]) = v.episode.ticks.any fun t => t.2.isPending := by
  rw [underway, List.reverse_append, List.reverse_singleton, List.singleton_append,
    List.find?_cons_of_pos (by simpa using h)]

/-- Starting and finishing do not. -/
theorem underway_idle (h : ¬ (v.episode.operation = .tick ∨ v.episode.operation = .reset)) :
    underway (history ++ [v]) = underway history := by
  rw [underway, List.reverse_append, List.reverse_singleton, List.singleton_append,
    List.find?_cons_of_neg (by simpa using h)]
  rfl

end TimedEpisode

/-! ## The gate -/

/-- Nothing is left of a cooldown when the period has passed since the stamp, which is not after
now. -/
theorem cooldownLeft_eq_none_iff {last : Option Duration} {period now : Duration}
    (hpast : ∀ stamp ∈ last, stamp ≤ now) :
    cooldownLeft last period now = none ↔
      ∀ stamp ∈ last, stamp.nanos + period.nanos ≤ now.nanos := by
  cases last with
  | none =>
    refine iff_of_true rfl fun stamp hstamp => ?_
    cases hstamp
  | some stamp =>
    have hbefore : stamp.nanos ≤ now.nanos := hpast stamp rfl
    have hgate : now - stamp < period ↔ now.nanos < stamp.nanos + period.nanos := by
      rw [Duration.lt_def, Duration.nanos_sub]
      omega
    simp only [cooldownLeft, hgate, Option.mem_some_iff, forall_eq']
    split
    · rename_i hblocked
      exact iff_of_false (Option.some_ne_none _) (Nat.not_le.2 hblocked)
    · rename_i hopen
      exact iff_of_true rfl (Nat.le_of_not_lt hopen)

/-- In a world a period has passed since the latest completion in a history, if there is one. -/
def TimedEpisode.Due (clock : ClockId) (history : List TimedEpisode) (period : Duration)
    (w : World) : Prop :=
  ∀ stamp ∈ latest clock history, stamp.nanos + period.nanos ≤ (w.now clock).nanos

/-- What is due stays due. -/
theorem TimedEpisode.Due.mono {clock : ClockId} {history : List TimedEpisode} {period : Duration}
    {v w : World} (h : Due clock history period v) (hw : v.Before clock w) :
    Due clock history period w :=
  fun stamp hstamp => Nat.le_trans (h stamp hstamp) hw

namespace Decorator

open TimedEpisode (latest underway Due)

/-- Where a cooldown stands after a history that has left a world. -/
structure Cooling (clock : ClockId) (period : Supplier Duration) (history : List TimedEpisode)
    (x : Decorator × Option κ) (v : World) (child : κ) : Prop where
  state : x = (.cooldown clock period (latest clock history), some child)
  past : ∀ stamp ∈ latest clock history, stamp ≤ v.now clock
  /-- A constant period is over as long as the child is at work. -/
  awake : underway history = true → ∀ value, period = .constant value → Due clock history value v

/-- What a tick of a cooldown with a stamp comes to that lets the child run: it is ticked once, and
a completion is stamped with the reading right after it. -/
structure Opening (clock : ClockId) (period : Supplier Duration) (last : Option Duration)
    (t : Ticked κ) (step : Episode × (Decorator × Option κ) × World) : Prop where
  operation : step.1.operation = .tick
  answer : step.1.answer = .ticked t.status
  dealings : step.1.dealings = [.prepare (.cooldown clock period last), .tick 0 t.status]
  state : step.2.1 =
    (.cooldown clock period (if t.status.isCompleted then some (t.world.now clock) else last),
      some t.state)
  world : step.2.2 = t.world

/-- What a tick of a cooldown with a stamp comes to that blocks the child, when asking the supplier
has led to a world: it fails, and neither the child nor the stamp changes. -/
structure Blocking (clock : ClockId) (period : Supplier Duration) (last : Option Duration)
    (child : κ) (w : World) (step : Episode × (Decorator × Option κ) × World) : Prop where
  operation : step.1.operation = .tick
  answer : step.1.answer = .ticked .failure
  state : step.2.1 = (.cooldown clock period last, some child)
  report : ∃ message,
    step.1.dealings = [.prepare (.cooldown clock period last), .report .debug message] ∧
      step.2.2 = w.report .debug message

section

variable (s : Service) (u : Units κ) (name : κ → String) {clock : ClockId}
  {period : Supplier Duration} {last : Option Duration}

/-- When nothing is left of the cooldown the child runs. -/
theorem opening_tick (child : κ) {w : World}
    (h : cooldownLeft last (period.get s w).1 ((period.get s w).2.now clock) = none) :
    Opening clock period last (u.tick child (period.get s w).2)
      (conduct s u name .tick (.cooldown clock period last, some child) w) := by
  simp only [conduct, dealings, tick, Option.map_some, tickCooldown, h]
  exact ⟨rfl, rfl, rfl, rfl, rfl⟩

/-- As long as something is left of it the child is blocked. -/
theorem blocking_tick (child : κ) {w : World}
    (h : cooldownLeft last (period.get s w).1 ((period.get s w).2.now clock) ≠ none) :
    Blocking clock period last child (period.get s w).2
      (conduct s u name .tick (.cooldown clock period last, some child) w) := by
  rcases Option.ne_none_iff_exists'.1 h with ⟨left, hleft⟩
  simp only [conduct, dealings, tick, Option.map_some, tickCooldown, hleft]
  exact ⟨rfl, rfl, rfl, _, rfl, rfl⟩

end

section

variable {clock : ClockId} {period : Supplier Duration} {last : Option Duration}
  {history : List TimedEpisode} {x : Decorator × Option κ} {v w : World} {child : κ} {t : Ticked κ}
  {step : Episode × (Decorator × Option κ) × World}

theorem Opening.ticks (h : Opening clock period last t step) :
    step.1.ticks = [(0, t.status)] := by
  rw [Episode.ticks, h.dealings]
  rfl

theorem Blocking.ticks (h : Blocking clock period last child w step) : step.1.ticks = [] := by
  rcases h.report with ⟨message, hdealings, -⟩
  rw [Episode.ticks, hdealings]
  rfl

/-- Nothing is left of the cooldown exactly when the period that is supplied has passed since the
latest completion. -/
theorem Cooling.due_iff (h : Cooling clock period history x v child) {now : World}
    (hnow : v.Before clock now) (value : Duration) :
    cooldownLeft (latest clock history) value (now.now clock) = none ↔
      Due clock history value now :=
  cooldownLeft_eq_none_iff fun stamp hstamp => Nat.le_trans (h.past stamp hstamp) hnow

/-- Episodes in which the child does not complete keep the stamp. -/
theorem Cooling.quiet (h : Cooling clock period history x v child) {timed : TimedEpisode}
    {child' : κ} {y : Decorator × Option κ}
    (hy : y = (.cooldown clock period (latest clock history), some child'))
    (hoperation : timed.episode.operation ≠ .reset) (hquiet : timed.completes = false)
    (hleft : v.Before clock timed.left)
    (hawake : underway (history ++ [timed]) = true → ∀ value, period = .constant value →
      Due clock history value timed.left) :
    Cooling clock period (history ++ [timed]) y timed.left child' := by
  have hlatest := TimedEpisode.latest_quiet clock history hoperation hquiet
  refine ⟨hlatest ▸ hy, ?_, ?_⟩
  · rw [hlatest]
    exact fun stamp hstamp => Nat.le_trans (h.past stamp hstamp) hleft
  · unfold Due
    rw [hlatest]
    exact hawake

/-- After a tick that lets the child run the stamp is again the latest completion. -/
theorem Cooling.opened (h : Cooling clock period history x v child)
    (hstep : Opening clock period (latest clock history) t step) (hw : v.Before clock t.world)
    (hdue : ∀ value, period = .constant value → Due clock history value t.world) :
    Cooling clock period (history ++ [⟨step.1, step.2.2⟩]) step.2.1 step.2.2 t.state := by
  have hoperation : step.1.operation ≠ .reset := by
    rw [hstep.operation]
    decide
  have hcompletes : TimedEpisode.completes ⟨step.1, step.2.2⟩ = t.status.isCompleted := by
    rw [TimedEpisode.completes, hstep.ticks, List.any_cons, List.any_nil, Bool.or_false]
  cases hcompleted : t.status.isCompleted with
  | true =>
    have hlatest : latest clock (history ++ [⟨step.1, step.2.2⟩]) = some (t.world.now clock) := by
      rw [TimedEpisode.latest_completes clock history hoperation (hcompletes.trans hcompleted),
        hstep.world]
    have hasleep : underway (history ++ [⟨step.1, step.2.2⟩]) = false := by
      rw [TimedEpisode.underway_handled history (.inl hstep.operation), hstep.ticks, List.any_cons,
        List.any_nil, Bool.or_false, Status.isPending_eq_not_isCompleted, hcompleted]
      rfl
    refine ⟨?_, ?_, ?_⟩
    · rw [hstep.state, hlatest, if_pos hcompleted]
    · rw [hlatest, hstep.world]
      intro stamp hstamp
      cases hstamp
      exact Nat.le_refl _
    · rw [hasleep]
      exact fun hunderway => absurd hunderway Bool.false_ne_true
  | false =>
    refine h.quiet ?_ hoperation (hcompletes.trans hcompleted) ?_ fun _ => ?_
    · rw [hstep.state, hcompleted]
      rfl
    · rw [hstep.world]
      exact hw
    · rw [hstep.world]
      exact hdue

/-- After a tick that blocks the child everything is as before, but time may have passed. -/
theorem Cooling.blocked (h : Cooling clock period history x v child)
    (hstep : Blocking clock period (latest clock history) child w step) (hw : v.Before clock w) :
    Cooling clock period (history ++ [⟨step.1, step.2.2⟩]) step.2.1 step.2.2 child := by
  have hasleep : underway (history ++ [⟨step.1, step.2.2⟩]) = false := by
    rw [TimedEpisode.underway_handled history (.inl hstep.operation), hstep.ticks]
    rfl
  have hoperation : step.1.operation ≠ .reset := by
    rw [hstep.operation]
    decide
  refine h.quiet hstep.state hoperation ?_ ?_ ?_
  · rw [TimedEpisode.completes, hstep.ticks]
    rfl
  · rcases hstep.report with ⟨message, -, hworld⟩
    rw [hworld]
    exact hw
  · rw [hasleep]
    exact fun hunderway => absurd hunderway Bool.false_ne_true

/-- After a reset there is no stamp. -/
theorem cooling_reset {timed : TimedEpisode} (hx : x = (.cooldown clock period none, some child))
    (hoperation : timed.episode.operation = .reset) (hticks : timed.episode.ticks = []) :
    Cooling clock period (history ++ [timed]) x timed.left child := by
  have hlatest := TimedEpisode.latest_reset clock history hoperation
  refine ⟨hlatest ▸ hx, ?_, ?_⟩
  · rw [hlatest]
    intro stamp hstamp
    cases hstamp
  · rw [TimedEpisode.underway_handled history (.inr hoperation), hticks]
    exact fun hunderway => absurd hunderway Bool.false_ne_true

/-- Starting and finishing change nothing, but time may have passed. -/
theorem Cooling.idle (h : Cooling clock period history x v child) (hw : v.Before clock w)
    {operation : Operation} (htick : operation ≠ .tick) (hreset : operation ≠ .reset) :
    Cooling clock period (history ++ [⟨⟨operation, .done, []⟩, w⟩]) x w child := by
  refine h.quiet h.state hreset rfl hw ?_
  rw [TimedEpisode.underway_idle history (not_or.2 ⟨htick, hreset⟩)]
  intro hunderway value hvalue
  exact (h.awake hunderway value hvalue).mono hw

end

/-! ## Runs -/

section

variable {s : Service} {u : Units κ} {clock : ClockId}

/-- In every run in time the stamp of a cooldown is the reading at the latest completion since the
last reset. -/
theorem exists_cooling (hs : s.Forward clock)
    (hu : ∀ (k : κ) (w : World), w.Before clock (u.tick k w).world) (name : κ → String)
    (period : Supplier Duration) (k : κ) {history : List TimedEpisode} {x : Decorator × Option κ}
    {v : World}
    (h : (conduct s u name).Timeline clock (.cooldown clock period none, some k) history x v) :
    ∃ child, Cooling clock period history x v child := by
  induction h with
  | begins v =>
    refine ⟨k, rfl, ?_, ?_⟩
    · intro stamp hstamp
      cases hstamp
    · intro hunderway
      cases hunderway
  | @next history x v _ operation w hw ih =>
    rcases ih with ⟨child, h⟩
    cases operation with
    | tick =>
      have hasked : w.Before clock (period.get s w).2 := period.before_get hs w
      have hgate := h.due_iff (hw.trans hasked) (period.get s w).1
      rw [h.state]
      by_cases hdue : Due clock history (period.get s w).1 (period.get s w).2
      · have hrun := hu child (period.get s w).2
        refine ⟨_, h.opened (opening_tick s u name child (hgate.2 hdue))
          ((hw.trans hasked).trans hrun) ?_⟩
        rintro value rfl
        exact hdue.mono hrun
      · exact ⟨child, h.blocked (blocking_tick s u name child (mt hgate.1 hdue)) (hw.trans hasked)⟩
    | reset =>
      rw [h.state]
      exact ⟨(u.reset child w).1, cooling_reset rfl rfl rfl⟩
    | start => exact ⟨child, h.idle hw (by decide) (by decide)⟩
    | finish => exact ⟨child, h.idle hw (by decide) (by decide)⟩

/-- The gate of a cooldown opens on time.  In every run in which the clock does not go back, each
tick asks the supplier once; the child is ticked exactly when the child has not completed since the
last reset or the period just supplied has passed since the latest completion, whose reading is the
stamp; otherwise the tick fails and changes neither the child nor the stamp.  When the period is
constant, a child that is at work is ticked again by the next tick. -/
theorem gate_opens_on_time (hs : s.Forward clock)
    (hu : ∀ (k : κ) (w : World), w.Before clock (u.tick k w).world) (name : κ → String)
    (period : Supplier Duration) (k : κ) {history : List TimedEpisode} {x : Decorator × Option κ}
    {v w : World}
    (h : (conduct s u name).Timeline clock (.cooldown clock period none, some k) history x v)
    (hw : v.Before clock w) :
    let last := latest clock history
    let supplied := period.get s w
    let step := conduct s u name .tick x w
    ∃ child, x = (.cooldown clock period last, some child) ∧
      (Due clock history supplied.1 supplied.2 →
        Opening clock period last (u.tick child supplied.2) step) ∧
      (¬ Due clock history supplied.1 supplied.2 →
        Blocking clock period last child supplied.2 step) ∧
      (∀ value, period = .constant value → underway history = true →
        Opening clock period last (u.tick child w) step) ∧
      LeadAll s u step.1.dealings ([child], w) (step.2.1.2.toList, step.2.2) := by
  intro last supplied step
  rcases exists_cooling hs hu name period k h with ⟨child, hcooling⟩
  have hasked : w.Before clock supplied.2 := period.before_get hs w
  have hgate := hcooling.due_iff (hw.trans hasked) supplied.1
  have hopening : Due clock history supplied.1 supplied.2 →
      Opening clock period last (u.tick child supplied.2) step := by
    intro hdue
    have hopens := opening_tick s u name child (hgate.2 hdue)
    rwa [← hcooling.state] at hopens
  refine ⟨child, hcooling.state, hopening, ?_, ?_,
    leadAll_conduct_child name .tick hcooling.state w⟩
  · intro hdue
    have hblocks := blocking_tick s u name child (mt hgate.1 hdue)
    rwa [← hcooling.state] at hblocks
  · rintro value rfl hunderway
    exact hopening ((hcooling.awake hunderway value rfl).mono hw)

end

/-- A child that succeeds at the first tick, under a cooldown of one second: a second tick at the
same time is blocked, and one a second later is not. -/
theorem gate_opens_on_time_second :
    let s := serve (plantFrom #[]) 1
    let u : Units Status := ⟨fun k w => ⟨k, k, w⟩, fun k w => (k, w)⟩
    let period : Duration := ⟨nanosPerSecond, by decide⟩
    let w := World.start (.empty .start) (.empty (.seeded 0))
    let c := conduct s u Status.text
    let first := c .tick (.cooldown 0 (.constant period) none, some .success) w
    let later := first.2.2.setClock 0 period
    first.2.2.Before 0 later ∧
      (c .tick first.2.1 first.2.2).1.answer = .ticked .failure ∧
      (c .tick first.2.1 later).1.answer = .ticked .success := by
  intro s u period w c first later
  have hlater : first.2.2.Before 0 later := World.now_le_now_setClock 0 0 _ _
  have hs : s.Forward 0 := serve_forward #[] 1 0
  have hu : ∀ (k : Status) (w : World), w.Before 0 (u.tick k w).world := fun _ w => .refl 0 w
  have htimeline : c.Timeline 0 (.cooldown 0 (.constant period) none, some .success)
      [⟨first.1, first.2.2⟩] first.2.1 first.2.2 := (.next (.begins w) .tick (.refl 0 w))
  have hlatest : latest 0 [⟨first.1, first.2.2⟩] = some .zero := rfl
  rcases gate_opens_on_time hs hu Status.text (.constant period) .success htimeline (.refl 0 _) with
    ⟨_, -, -, hblocks, -⟩
  rcases gate_opens_on_time hs hu Status.text (.constant period) .success htimeline hlater with
    ⟨child, hstate, hopens, -⟩
  have hchild : child = .success := by
    cases hstate
    rfl
  refine ⟨hlater, (hblocks fun hdue => ?_).answer, ((hopens ?_).answer).trans (by rw [hchild])⟩
  · exact absurd (hdue .zero hlatest) (by decide)
  · intro stamp hstamp
    have hzero : stamp.nanos = 0 := by
      cases hlatest.symm.trans hstamp
      rfl
    have hnow : (later.now 0).nanos = nanosPerSecond := by decide
    have hpassed : stamp.nanos + nanosPerSecond = (later.now 0).nanos := by
      rw [hzero, hnow, Nat.zero_add]
    exact Nat.le_of_eq hpassed

end Decorator

end TickTree
