import TickTree.Proofs.Dealing.Episode

/-!
# Restarts between repetitions

A repetition with a limit resets its child in the very tick in which the child completes, so each
round begins in a state that a reset left behind.  A repetition without a limit only ticks its
child: what the child does after it has completed is the child's own affair, until the repetition
itself is reset.

Main results:

- Theorem `Dealing.Restarting.append`: what holds of each episode holds of a whole run.
- Theorem `Decorator.repetition_restarts`: when the child of a repetition is reset.
- Theorem `Decorator.repeatedForever_without_reset`: a child that stays completed when it is repeated
  without a limit.
-/

namespace TickTree

variable {κ : Type}

open Dealing (LeadAll)

namespace Dealing

/-- Between a tick in which an only child completes and the next tick of it, it is reset. -/
def ResetBetween (dealings : List Dealing) : Prop :=
  ∀ first status between later rest,
    dealings = first ++ .tick 0 status :: (between ++ .tick 0 later :: rest) →
    status.isCompleted = true → .reset 0 ∈ between

/-- The first thing that is done after a tick in which an only child completes is to reset it. -/
def Restarting (dealings : List Dealing) : Prop :=
  ∀ first status rest, dealings = first ++ .tick 0 status :: rest → status.isCompleted = true →
    ∃ others, rest = .reset 0 :: others

/-- Dealings without ticks leave nothing to reset. -/
theorem Restarting.of_no_tick {dealings : List Dealing} (h : dealings.filterMap tick? = []) :
    Restarting dealings := by
  rintro first status rest rfl -
  rw [List.filterMap_append, List.filterMap_cons] at h
  cases (List.append_eq_nil_iff.1 h).2

/-- A child that completes is reset when that is what is done after its status. -/
theorem Restarting.tick (status : Status) : Restarting (.tick 0 status :: ending status 1) := by
  intro first other rest h hcompleted
  cases first with
  | nil =>
    cases h
    rw [ending, if_pos hcompleted]
    exact ⟨[], rfl⟩
  | cons dealing first =>
    have hending : ending status 1 = first ++ .tick 0 other :: rest := (List.cons.inj h).2
    exact Restarting.of_no_tick (filterMap_tick?_ending status 1) first other rest hending
      hcompleted

/-- What holds of some dealings and of others holds of all of them together. -/
theorem Restarting.append {dealings others : List Dealing} (h : Restarting dealings)
    (h' : Restarting others) : Restarting (dealings ++ others) := by
  intro first status rest heq hcompleted
  rcases List.append_eq_append_iff.1 heq with ⟨more, rfl, hothers⟩ | ⟨more, rfl, hrest⟩
  · exact h' more status rest hothers hcompleted
  · cases more with
    | nil => exact h' [] status rest hrest.symm hcompleted
    | cons dealing more =>
      rcases List.cons.inj hrest with ⟨rfl, rfl⟩
      rcases h first status more rfl hcompleted with ⟨left, rfl⟩
      exact ⟨left ++ others, rfl⟩

/-- A child that is reset at once is reset before its next tick. -/
theorem Restarting.resetBetween {dealings : List Dealing} (h : Restarting dealings) :
    ResetBetween dealings := by
  intro first status between later rest heq hcompleted
  rcases h first status _ heq hcompleted with ⟨others, hnext⟩
  cases between with
  | nil => cases hnext
  | cons dealing between =>
    rw [(List.cons.inj hnext).1]
    exact List.mem_cons_self

end Dealing

namespace Decorator

variable (s : Service) (u : Units κ) (name : κ → String) {limit count : Int32}

/-! ## One tick -/

/-- What is done in a tick of a repetition. -/
theorem dealings_repetition (limit count : Int32) (k : κ) (w : World) :
    (conduct s u name .tick (.repetition limit count, some k) w).1.dealings =
      .tick 0 (u.tick k w).status ::
        if limit < 0 then [] else Dealing.ending (u.tick k w).status 1 := rfl

/-- The child of a repetition is ticked once in a tick. -/
theorem ticks_repetition (limit count : Int32) (k : κ) (w : World) :
    (conduct s u name .tick (.repetition limit count, some k) w).1.ticks =
      [(0, (u.tick k w).status)] := by
  simp only [Episode.ticks, dealings_repetition, List.filterMap_cons, Dealing.tick?]
  split
  · rfl
  · rw [Dealing.filterMap_tick?_ending]

/-- A repetition with a limit leaves a child that has completed as a reset leaves it. -/
theorem exists_left_repetition (limit count : Int32) (k : κ) (w : World) :
    ∃ next child, (conduct s u name .tick (.repetition limit count, some k) w).2.1 =
        (.repetition limit next, some child) ∧
      (0 ≤ limit → (u.tick k w).status.isCompleted = true →
        ∃ k' w', child = (u.reset k' w').1) := by
  simp only [conduct, tick, Option.map_some, tickRepetition, Units.offer]
  by_cases hlimit : limit < 0
  · simp only [if_pos hlimit]
    exact ⟨_, _, rfl, fun hzero => absurd hlimit (Int32.not_lt.2 hzero)⟩
  · simp only [if_neg hlimit]
    rcases u.tick k w with ⟨status, state, world⟩
    cases status with
    | success =>
      by_cases hlast : limit ≤ count + 1
      · simp only [if_pos hlast]
        exact ⟨_, _, rfl, fun _ _ => ⟨_, _, rfl⟩⟩
      · simp only [if_neg hlast]
        exact ⟨_, _, rfl, fun _ _ => ⟨_, _, rfl⟩⟩
    | failure => exact ⟨_, _, rfl, fun _ _ => ⟨_, _, rfl⟩⟩
    | running => exact ⟨_, _, rfl, fun _ hcompleted => absurd hcompleted Bool.false_ne_true⟩
    | sleeping => exact ⟨_, _, rfl, fun _ hcompleted => absurd hcompleted Bool.false_ne_true⟩

/-! ## Runs -/

/-- How a repetition has treated its child in the course of some episodes. -/
structure Repeating (u : Units κ) (limit : Int32) (episodes : List Episode)
    (x : Decorator × Option κ) (child : κ) : Prop where
  state : ∃ count, x = (.repetition limit count, some child)
  /-- With a limit, a child that completes is reset at once. -/
  restarting : 0 ≤ limit → Dealing.Restarting (episodes.flatMap Episode.dealings)
  /-- Then it is as a reset left it. -/
  renewed : 0 ≤ limit → ∀ position status,
    (episodes.flatMap Episode.ticks).getLast? = some (position, status) →
    status.isCompleted = true → ∃ k w, child = (u.reset k w).1
  /-- Without a limit, it is reset exactly when the repetition is. -/
  endless : limit < 0 → ∀ e ∈ episodes, (.reset 0 ∈ e.dealings ↔ e.operation = .reset)

variable {s u name} {episodes : List Episode} {x : Decorator × Option κ} {child : κ}

/-- One more tick of a repetition. -/
theorem Repeating.tick (h : Repeating u limit episodes x child) (w : World) :
    ∃ child, Repeating u limit (episodes ++ [(conduct s u name .tick x w).1])
      (conduct s u name .tick x w).2.1 child := by
  rcases h.state with ⟨count, rfl⟩
  rcases exists_left_repetition s u name limit count child w with ⟨next, left, hleft, hreset⟩
  refine ⟨left, ⟨next, hleft⟩, ?_, ?_, ?_⟩
  · intro hlimit
    rw [List.flatMap_append, List.flatMap_singleton]
    refine (h.restarting hlimit).append ?_
    rw [dealings_repetition, if_neg (Int32.not_lt.2 hlimit)]
    exact .tick _
  · intro hlimit position status hlast
    rw [List.flatMap_append, List.flatMap_singleton, ticks_repetition, List.getLast?_concat]
      at hlast
    cases hlast
    exact hreset hlimit
  · intro hlimit e he
    rcases List.mem_append.1 he with hearlier | hlatest
    · exact h.endless hlimit e hearlier
    · rw [List.mem_singleton.1 hlatest, dealings_repetition, if_pos hlimit]
      refine ⟨fun hmem => ?_, fun hoperation => ?_⟩
      · cases List.mem_singleton.1 hmem
      · cases hoperation

/-- One more reset of a repetition. -/
theorem Repeating.reset (h : Repeating u limit episodes x child) (w : World) :
    ∃ child, Repeating u limit (episodes ++ [(conduct s u name .reset x w).1])
      (conduct s u name .reset x w).2.1 child := by
  rcases h.state with ⟨count, rfl⟩
  refine ⟨(u.reset child w).1, ⟨0, rfl⟩, ?_, fun _ _ _ _ _ => ⟨child, w, rfl⟩, ?_⟩
  · intro hlimit
    rw [List.flatMap_append, List.flatMap_singleton]
    exact (h.restarting hlimit).append (.of_no_tick rfl)
  · intro hlimit e he
    rcases List.mem_append.1 he with hearlier | hlatest
    · exact h.endless hlimit e hearlier
    · rw [List.mem_singleton.1 hlatest]
      exact ⟨fun _ => rfl, fun _ => List.mem_singleton.2 rfl⟩

/-- Starting and finishing do nothing to the child of a repetition. -/
theorem Repeating.idle (h : Repeating u limit episodes x child) {operation : Operation}
    (hoperation : operation ≠ .reset) :
    Repeating u limit (episodes ++ [⟨operation, .done, []⟩]) x child := by
  have hdealings : (episodes ++ [Episode.mk operation .done []]).flatMap Episode.dealings =
      episodes.flatMap Episode.dealings := by
    rw [List.flatMap_append]
    exact List.append_nil _
  have hticks : (episodes ++ [Episode.mk operation .done []]).flatMap Episode.ticks =
      episodes.flatMap Episode.ticks := by
    rw [List.flatMap_append]
    exact List.append_nil _
  refine ⟨h.state, hdealings ▸ h.restarting, hticks ▸ h.renewed, ?_⟩
  intro hlimit e he
  rcases List.mem_append.1 he with hearlier | hlatest
  · exact h.endless hlimit e hearlier
  · rw [List.mem_singleton.1 hlatest]
    exact ⟨fun hmem => absurd hmem List.not_mem_nil, fun hreset => absurd hreset hoperation⟩

variable (s u name)

/-- In every run a repetition treats its child like that. -/
theorem exists_repeating (limit : Int32) (k : κ) (steps : List (Operation × World)) :
    let before := (conduct s u name).run (.repetition limit 0, some k) steps
    ∃ child, Repeating u limit before.1 before.2 child := by
  refine (conduct s u name).run_induction
    (P := fun episodes x => ∃ child, Repeating u limit episodes x child) ⟨k, ?_⟩ ?_ steps
  · refine ⟨⟨0, rfl⟩, fun _ => .of_no_tick rfl, ?_, ?_⟩
    · intro _ position status hlast
      cases hlast
    · intro _ e he
      exact absurd he List.not_mem_nil
  · rintro episodes x operation w ⟨child, h⟩
    cases operation with
    | tick => exact h.tick w
    | reset => exact h.reset w
    | start => exact ⟨child, h.idle (by decide)⟩
    | finish => exact ⟨child, h.idle (by decide)⟩

/-- When the child of a repetition is reset: in every run, a repetition with a limit that is not
negative resets a child that has completed before it ticks it again, and the child is then as that
reset left it; a repetition without a limit never resets its child unless it is reset itself. -/
theorem repetition_restarts (limit : Int32) (k : κ) (steps : List (Operation × World)) (w : World) :
    let before := (conduct s u name).run (.repetition limit 0, some k) steps
    let step := conduct s u name .tick before.2 w
    let episodes := before.1 ++ [step.1]
    ∃ count child, before.2 = (.repetition limit count, some child) ∧
      step.1.ticks = [(0, (u.tick child w).status)] ∧
      LeadAll s u step.1.dealings ([child], w) (step.2.1.2.toList, step.2.2) ∧
      (0 ≤ limit →
        Dealing.ResetBetween (episodes.flatMap Episode.dealings) ∧
        ∀ position status, (before.1.flatMap Episode.ticks).getLast? = some (position, status) →
          status.isCompleted = true → ∃ k' w', child = (u.reset k' w').1) ∧
      (limit < 0 → ∀ e ∈ episodes, (.reset 0 ∈ e.dealings ↔ e.operation = .reset)) := by
  intro before step episodes
  rcases exists_repeating s u name limit k steps with ⟨child, h⟩
  rcases h.state with ⟨count, hstate⟩
  have hafter : ∃ left, Repeating u limit episodes step.2.1 left := h.tick w
  rcases hafter with ⟨left, hleft⟩
  have hticks := ticks_repetition s u name limit count child w
  rw [← hstate] at hticks
  refine ⟨count, child, hstate, hticks, leadAll_conduct_child name .tick hstate w, ?_,
    hleft.endless⟩
  intro hlimit
  exact ⟨(hleft.restarting hlimit).resetBetween, h.renewed hlimit⟩

/-- A child that runs once and then succeeds has to be reset to run again: with the limit two the
repetition resets it after its success, and it runs again at the third tick. -/
theorem repetition_restarts_countdown :
    let s : Service := ⟨fun _ _ w => (.refused, w), fun _ w => (none, w)⟩
    let w := World.start (.empty .start) (.empty (.seeded 0))
    let child := Node.leaf (.countdown "ready" 1 1)
    let before := (conduct s (Units.nodes s) Node.name).run (.repetition 2 0, some child)
      [(.tick, w), (.tick, w)]
    let step := conduct s (Units.nodes s) Node.name .tick before.2 w
    (0 : Int32) ≤ 2 ∧ Dealing.ResetBetween ((before.1 ++ [step.1]).flatMap Episode.dealings) ∧
      step.1.ticks = [(0, .running)] := by
  intro s w child before step
  have hlimit : (0 : Int32) ≤ 2 := by decide
  rcases repetition_restarts s (Units.nodes s) Node.name 2 child [(.tick, w), (.tick, w)] w with
    ⟨_, _, -, -, -, hlimited, -⟩
  exact ⟨hlimit, (hlimited hlimit).1, rfl⟩

/-- Without a limit the same child is not reset after its success: it has completed and is ticked
again, and it stays completed. -/
theorem repeatedForever_without_reset :
    let s : Service := ⟨fun _ _ w => (.refused, w), fun _ w => (none, w)⟩
    let w := World.start (.empty .start) (.empty (.seeded 0))
    let child := Node.leaf (.countdown "ready" 1 1)
    let episodes := ((conduct s (Units.nodes s) Node.name).run (repeatedForever, some child)
      [(.tick, w), (.tick, w), (.tick, w)]).1
    episodes.flatMap Episode.ticks = [(0, .running), (0, .success), (0, .success)] ∧
      ¬ Dealing.ResetBetween (episodes.flatMap Episode.dealings) := by
  intro s w child episodes
  refine ⟨rfl, fun h => ?_⟩
  exact List.not_mem_nil (h [.tick 0 .running] .success [] .success [] rfl rfl)

end Decorator

end TickTree
