import TickTree.Proofs.Dealing.Episode
import TickTree.Proofs.Progress

/-!
# Counted rounds

A repetition counts the successes of its child, a retry its failures.  In each case one completed
status is counted, and when it has come often enough it is passed on; before that the decorator
runs on.  The other completed status ends the activation at once.  The count has to agree with what
the child has done since the activation began, whatever has happened in between.

Main results:

- Theorem `Chain.round_tick`: one tick of a repetition or retry that is not through.
- Theorem `Chain.exists_counting`: in every run the count is the number of completions counted in
  the activation.
- Theorem `Decorator.rounds_counted`: repetitions and retries end with exactly the completion that
  they wait for.
-/

namespace TickTree

variable {κ : Type}

open Dealing (LeadAll)

namespace Chain

/-! ## One round -/

/-- The status of a repetition or retry for a status of its child, when so many completions are
needed and some have been counted: it runs on after one that is counted and is not the last. -/
def outcome (kind : Chain) (needed counted : Nat) (status : Status) : Status :=
  if status = kind.passes ∧ counted + 1 ≠ needed then .running else status

/-- How many completions have been counted in the activation after a status of the child. -/
def recount (kind : Chain) (needed counted : Nat) (status : Status) : Nat :=
  if status.isPending then counted
  else if status = kind.passes ∧ counted + 1 ≠ needed then counted + 1
  else 0

/-- At the last round every status is passed on. -/
theorem outcome_of_last (kind : Chain) {needed counted : Nat} (h : counted + 1 = needed)
    (status : Status) : kind.outcome needed counted status = status :=
  if_neg fun hmore => hmore.2 h

/-- After a round that is not the last the decorator runs on. -/
theorem outcome_of_more (kind : Chain) {needed counted : Nat} (h : counted + 1 ≠ needed) :
    kind.outcome needed counted kind.passes = .running :=
  if_pos ⟨rfl, h⟩

/-- The status that is counted is passed on at the last round only. -/
theorem outcome_eq_passes_iff (kind : Chain) {needed counted : Nat} {status : Status} :
    kind.outcome needed counted status = kind.passes ↔
      status = kind.passes ∧ counted + 1 = needed := by
  unfold outcome
  split
  · rename_i hmore
    cases kind <;> simp [passes, hmore.2]
  · rename_i hlast
    simp only [ne_eq, not_and, not_not] at hlast
    exact ⟨fun h => ⟨h, hlast h⟩, fun h => h.1⟩

/-- The other completed status is always passed on. -/
theorem outcome_eq_stops_iff (kind : Chain) {needed counted : Nat} {status : Status} :
    kind.outcome needed counted status = kind.stops ↔ status = kind.stops := by
  unfold outcome
  split
  · rename_i hmore
    rw [hmore.1]
    cases kind <;> simp [passes, stops]
  · rfl

/-- A pending status is passed on, and the count stays as it is. -/
theorem outcome_of_pending (kind : Chain) (needed counted : Nat) {status : Status}
    (h : status.isPending = true) :
    kind.outcome needed counted status = status ∧ kind.recount needed counted status = counted := by
  refine ⟨if_neg ?_, if_pos h⟩
  rintro ⟨rfl, -⟩
  cases kind <;> cases h

/-- After the last round nothing is counted any more. -/
theorem recount_of_last (kind : Chain) {needed counted : Nat} (h : counted + 1 = needed) :
    kind.recount needed counted kind.passes = 0 := by
  cases kind <;> simp [recount, passes, Status.isPending, h]

/-- A round that is not the last is counted. -/
theorem recount_of_more (kind : Chain) {needed counted : Nat} (h : counted + 1 ≠ needed) :
    kind.recount needed counted kind.passes = counted + 1 := by
  cases kind <;> simp [recount, passes, Status.isPending, h]

/-- The count starts again when the activation ends, and otherwise it grows with the child's
completions. -/
theorem recount_eq (kind : Chain) (needed counted : Nat) (status : Status) :
    kind.recount needed counted status =
      if (kind.outcome needed counted status).isCompleted then 0
      else counted + [status].count kind.passes := by
  by_cases h : counted + 1 = needed
  · rw [outcome_of_last kind h]
    cases kind <;> cases status <;> simp [recount, passes, Status.isPending, Status.isCompleted, h]
  · cases kind <;> cases status <;>
      simp [recount, outcome, passes, Status.isPending, Status.isCompleted, h]

variable {kind : Chain} {limit count : Int32}

/-- A round that is counted is the last one exactly when the limit says so. -/
theorem limit_le_iff (h : (kind.rounds limit count).IsBounded) :
    limit ≤ count + 1 ↔
      (kind.rounds limit count).finished + 1 = (kind.rounds limit count).rounds := by
  have hfewer := h.finished_lt
  have hzero : (0 : Int32).toInt = 0 := rfl
  cases kind with
  | sequence =>
    rcases h with ⟨hlimit, hcount, hless⟩
    have hnext := Decorator.toInt_count_add_one hless
    simp only [rounds, Decorator.finished, Decorator.rounds] at hfewer ⊢
    rw [Int32.le_iff_toInt_le] at hlimit hcount ⊢
    omega
  | selector =>
    rcases h with ⟨hcount, hless⟩
    have hnext := Decorator.toInt_count_add_one (.inr hless)
    simp only [rounds, Decorator.finished, Decorator.rounds] at hfewer ⊢
    rw [Int32.le_iff_toInt_le] at hcount ⊢
    omega

/-- What a tick of a repetition or retry comes to, when so many completions of its child are needed
and some have been counted, and the child gives a status. -/
structure Round (kind : Chain) (limit : Int32) (needed counted : Nat) (status : Status)
    (step : Episode × (Decorator × Option κ) × World) : Prop where
  operation : step.1.operation = .tick
  answer : step.1.answer = .ticked (kind.outcome needed counted status)
  /-- The child is ticked once, and then it is reset once if it has completed. -/
  handlings : step.1.dealings.filter Dealing.isHandling =
    .tick 0 status :: Dealing.ending status 1
  left : ∃ count k, step.2.1 = (kind.rounds limit count, some k) ∧
    (kind.rounds limit count).IsBounded ∧
    (kind.rounds limit count).finished = kind.recount needed counted status

variable (s : Service) (u : Units κ) (name : κ → String)

/-- One tick of a repetition that is not through. -/
theorem round_repetition (h : (sequence.rounds limit count).IsBounded) (k : κ) (w : World) :
    sequence.Round limit (sequence.rounds limit count).rounds
      (sequence.rounds limit count).finished (u.tick k w).status
      (Decorator.conduct s u name .tick (sequence.rounds limit count, some k) w) := by
  have hbounded : ¬ limit < 0 := Int32.not_lt.2 h.1
  have hlast := limit_le_iff h
  have hreset : (sequence.rounds limit 0).IsBounded := h.reset
  simp only [Decorator.conduct, rounds, Decorator.tick, Decorator.tickRepetition, Units.offer,
    Decorator.dealings, Option.map_some, if_neg hbounded]
  rcases u.tick k w with ⟨status, state, world⟩
  cases status with
  | success =>
    by_cases hthrough : limit ≤ count + 1
    · have hneeded := hlast.1 hthrough
      simp only [if_pos hthrough]
      exact ⟨rfl, congrArg Answer.ticked (outcome_of_last sequence hneeded _).symm, rfl, 0, _, rfl,
        hreset, (recount_of_last sequence hneeded).symm⟩
    · have hneeded := mt hlast.2 hthrough
      have hmore := Decorator.IsBounded.repetition h hthrough
      simp only [if_neg hthrough]
      exact ⟨rfl, congrArg Answer.ticked (outcome_of_more sequence hneeded).symm, rfl, _, _, rfl,
        hmore.1, hmore.2.trans (recount_of_more sequence hneeded).symm⟩
  | failure => exact ⟨rfl, rfl, rfl, 0, _, rfl, hreset, rfl⟩
  | running => exact ⟨rfl, rfl, rfl, _, _, rfl, h, rfl⟩
  | sleeping => exact ⟨rfl, rfl, rfl, _, _, rfl, h, rfl⟩

/-- One tick of a retry that is not through. -/
theorem round_retry (h : (selector.rounds limit count).IsBounded) (k : κ) (w : World) :
    selector.Round limit (selector.rounds limit count).rounds
      (selector.rounds limit count).finished (u.tick k w).status
      (Decorator.conduct s u name .tick (selector.rounds limit count, some k) w) := by
  have hpositive : 0 < limit := Int32.lt_of_le_of_lt h.1 h.2
  have hlast := limit_le_iff h
  have hreset : (selector.rounds limit 0).IsBounded := h.reset
  simp only [Decorator.conduct, rounds, Decorator.tick, Decorator.tickRetry, Units.offer,
    Decorator.dealings, Option.map_some, hpositive, true_and]
  rcases u.tick k w with ⟨status, state, world⟩
  cases status with
  | failure =>
    by_cases hthrough : limit ≤ count + 1
    · have hneeded := hlast.1 hthrough
      simp only [hthrough, and_self, if_true]
      exact ⟨rfl, congrArg Answer.ticked (outcome_of_last selector hneeded _).symm, rfl, 0, _, rfl,
        hreset, (recount_of_last selector hneeded).symm⟩
    · have hneeded := mt hlast.2 hthrough
      have hmore := Decorator.IsBounded.retry h fun hstop => hthrough hstop.2
      simp only [hthrough, and_false, if_false]
      exact ⟨rfl, congrArg Answer.ticked (outcome_of_more selector hneeded).symm, rfl, _, _, rfl,
        hmore.1, hmore.2.trans (recount_of_more selector hneeded).symm⟩
  | success => exact ⟨rfl, rfl, rfl, 0, _, rfl, hreset, rfl⟩
  | running => exact ⟨rfl, rfl, rfl, _, _, rfl, h, rfl⟩
  | sleeping => exact ⟨rfl, rfl, rfl, _, _, rfl, h, rfl⟩

/-- One tick of a repetition or retry that is not through. -/
theorem round_tick (h : (kind.rounds limit count).IsBounded) (k : κ) (w : World) :
    kind.Round limit (kind.rounds limit count).rounds (kind.rounds limit count).finished
      (u.tick k w).status
      (Decorator.conduct s u name .tick (kind.rounds limit count, some k) w) := by
  cases kind with
  | sequence => exact round_repetition s u name h k w
  | selector => exact round_retry s u name h k w

/-! ## Runs -/

/-- The count of a repetition or retry that is not through is what it has counted. -/
theorem toInt_count (h : (kind.rounds limit count).IsBounded) :
    count.toInt = (kind.rounds limit count).finished := by
  have hzero : (0 : Int32).toInt = 0 := rfl
  have hcount : 0 ≤ count := by
    cases kind with
    | sequence => exact h.2.1
    | selector => exact h.1
  rw [Int32.le_iff_toInt_le, hzero] at hcount
  cases kind <;> exact (Int.toNat_of_nonneg hcount).symm

/-- Where a repetition or retry stands in the course of its activation: it is not through, and its
count is the number of completions that are counted. -/
structure Counting (kind : Chain) (limit : Int32) (episodes : List Episode)
    (x : Decorator × Option κ) (count : Int32) (child : κ) : Prop where
  state : x = (kind.rounds limit count, some child)
  bounded : (kind.rounds limit count).IsBounded
  counted : (kind.rounds limit count).finished =
    ((Episode.current episodes).map Prod.snd).count kind.passes

variable {episodes : List Episode} {x : Decorator × Option κ} {child : κ}

/-- At the beginning of an activation nothing has been counted. -/
theorem counting_zero (hx : x = (kind.rounds limit 0, some child))
    (hbounded : (kind.rounds limit 0).IsBounded) (hcurrent : Episode.current episodes = []) :
    kind.Counting limit episodes x 0 child := by
  refine ⟨hx, hbounded, ?_⟩
  rw [hcurrent]
  cases kind <;> rfl

/-- Where it stands is a matter of the current activation only. -/
theorem Counting.congr (h : kind.Counting limit episodes x count child) {others : List Episode}
    (hcurrent : Episode.current others = Episode.current episodes) :
    kind.Counting limit others x count child :=
  ⟨h.state, h.bounded, hcurrent ▸ h.counted⟩

variable {needed counted : Nat} {status : Status}
  {step : Episode × (Decorator × Option κ) × World}

/-- The child is ticked once in a round. -/
theorem Round.ticks (h : kind.Round limit needed counted status step) :
    step.1.ticks = [(0, status)] := by
  unfold Episode.ticks
  rw [← Dealing.filterMap_tick?_filter, h.handlings, List.filterMap_cons,
    Dealing.filterMap_tick?_ending]
  rfl

/-- After a round the count is again the number of completions that are counted. -/
theorem Round.counting (h : kind.Round limit needed counted status step)
    (hcounted : counted = ((Episode.current episodes).map Prod.snd).count kind.passes) :
    ∃ count child, kind.Counting limit (episodes ++ [step.1]) step.2.1 count child := by
  rcases h.left with ⟨count, child, hstate, hbounded, hfinished⟩
  refine ⟨count, child, hstate, hbounded, ?_⟩
  have hends : step.1.ends = (kind.outcome needed counted status).isCompleted := by
    rw [Episode.ends, h.operation, h.answer]
  rw [hfinished, recount_eq, Episode.current_concat, hends, h.ticks]
  split
  · rfl
  · rw [List.map_append, List.count_append, ← hcounted]
    rfl

/-- In every run the count is the number of completions counted in the activation. -/
theorem exists_counting (h : (kind.rounds limit 0).IsBounded) (k : κ)
    (steps : List (Operation × World)) :
    let before := (Decorator.conduct s u name).run (kind.rounds limit 0, some k) steps
    ∃ count child, kind.Counting limit before.1 before.2 count child := by
  refine (Decorator.conduct s u name).run_induction
    (P := fun episodes x => ∃ count child, kind.Counting limit episodes x count child)
    ⟨0, k, counting_zero rfl h rfl⟩ ?_ steps
  rintro episodes x operation w ⟨count, child, hcounting⟩
  rcases hcounting.state with rfl
  cases operation with
  | tick => exact (round_tick s u name hcounting.bounded child w).counting hcounting.counted
  | reset =>
    have hx : ((kind.rounds limit count).reset, some (u.reset child w).1) =
        (kind.rounds limit 0, some (u.reset child w).1) := by rw [reset_rounds]
    exact ⟨0, _, counting_zero hx h (Episode.current_reset episodes _ _)⟩
  | start => exact ⟨count, child, hcounting.congr (Episode.current_idle episodes (by decide))⟩
  | finish => exact ⟨count, child, hcounting.congr (Episode.current_idle episodes (by decide))⟩

/-- What a tick of a repetition or retry does that comes after some episodes, when so many
completions of its child are needed.  The child has a status, and it stands at a count. -/
structure Exact (kind : Chain) (limit : Int32) (needed : Nat) (episodes : List Episode)
    (count : Int32) (status : Status) (step : Episode × (Decorator × Option κ) × World) : Prop where
  /-- The count is the number of completions that are counted in the activation. -/
  counted : count.toInt = ((Episode.current episodes).map Prod.snd).count kind.passes
  /-- The status that is counted ends the activation exactly at the last round. -/
  last : step.1.answer = .ticked kind.passes ↔
    status = kind.passes ∧ count.toInt + 1 = needed
  /-- The other completed status ends it at once, and nothing else gives that status. -/
  stop : step.1.answer = .ticked kind.stops ↔ status = kind.stops
  /-- At a completion that does not end it the decorator runs on. -/
  between : status = kind.passes → count.toInt + 1 ≠ needed → step.1.answer = .ticked .running
  /-- A pending status is passed on and changes no count. -/
  pending : status.isPending = true →
    step.1.answer = .ticked status ∧ step.2.1.1 = kind.rounds limit count
  /-- The child is ticked once, and then it is reset once if it has completed. -/
  handlings : step.1.dealings.filter Dealing.isHandling =
    .tick 0 status :: Dealing.ending status 1

/-- A repetition or retry counts exactly. -/
theorem exists_exact (h : (kind.rounds limit 0).IsBounded) (k : κ)
    (steps : List (Operation × World)) (w : World) :
    let before := (Decorator.conduct s u name).run (kind.rounds limit 0, some k) steps
    let step := Decorator.conduct s u name .tick before.2 w
    ∃ count child, before.2 = (kind.rounds limit count, some child) ∧
      kind.Exact limit (kind.rounds limit 0).rounds before.1 count (u.tick child w).status step ∧
      LeadAll s u step.1.dealings ([child], w) (step.2.1.2.toList, step.2.2) := by
  intro before step
  rcases exists_counting s u name h k steps with ⟨count, child, hstate, hbounded, hcounted⟩
  have hround := round_tick s u name hbounded child w
  have hlead : LeadAll s u step.1.dealings (before.2.2.toList, w) (step.2.1.2.toList, step.2.2) :=
    Decorator.leadAll_conduct name .tick before.2 w
  have hneeded : (kind.rounds limit count).rounds = (kind.rounds limit 0).rounds := by
    cases kind <;> rfl
  have hcount := toInt_count hbounded
  rw [← hstate, hneeded] at hround
  have hlast : count.toInt + 1 = (kind.rounds limit 0).rounds ↔
      (kind.rounds limit count).finished + 1 = (kind.rounds limit 0).rounds := by
    rw [hcount]
    omega
  have hanswer : ∀ status, step.1.answer = .ticked status ↔
      kind.outcome (kind.rounds limit 0).rounds (kind.rounds limit count).finished
        (u.tick child w).status = status := by
    intro status
    rw [hround.answer, Answer.ticked.injEq]
  refine ⟨count, child, hstate, ⟨?_, ?_, ?_, ?_, ?_, hround.handlings⟩, ?_⟩
  · rw [hcount, hcounted]
  · rw [hanswer, outcome_eq_passes_iff, hlast]
  · rw [hanswer, outcome_eq_stops_iff]
  · intro hpasses hmore
    rw [hanswer, hpasses]
    exact outcome_of_more kind (mt hlast.2 hmore)
  · intro hpending
    have hsame := outcome_of_pending kind (kind.rounds limit 0).rounds
      (kind.rounds limit count).finished hpending
    refine ⟨(hanswer _).2 hsame.1, ?_⟩
    rcases hround.left with ⟨count', child', hstep, hbounded', hfinished⟩
    have hsameCount : count' = count := by
      rw [← Int32.toInt_inj, toInt_count hbounded', hfinished, hsame.2, hcount]
    rw [hstep, hsameCount]
  · have hchild : before.2.2.toList = [child] := by
      rw [hstate]
      rfl
    rwa [hchild] at hlead

end Chain

/-- Repetitions and retries end with exactly the completion that they wait for: in every run, a
repetition with a limit `n` that is not negative succeeds at the `max n 1`-th success of its child
in the activation, and a retry with a positive limit `n` fails at the `n`-th failure. -/
theorem Decorator.rounds_counted (s : Service) (u : Units κ) (name : κ → String) (limit : Int32)
    (k : κ) (steps : List (Operation × World)) (w : World) :
    (0 ≤ limit →
      let before := (conduct s u name).run (.repetition limit 0, some k) steps
      let step := conduct s u name .tick before.2 w
      ∃ count child, before.2 = (.repetition limit count, some child) ∧
        Chain.sequence.Exact limit (max limit.toInt.toNat 1) before.1 count
          (u.tick child w).status step ∧
        LeadAll s u step.1.dealings ([child], w) (step.2.1.2.toList, step.2.2)) ∧
    (0 < limit →
      let before := (conduct s u name).run (.retry limit 0, some k) steps
      let step := conduct s u name .tick before.2 w
      ∃ count child, before.2 = (.retry limit count, some child) ∧
        Chain.selector.Exact limit limit.toInt.toNat before.1 count
          (u.tick child w).status step ∧
        LeadAll s u step.1.dealings ([child], w) (step.2.1.2.toList, step.2.2)) := by
  constructor
  · intro hlimit
    have hbounded : (Chain.sequence.rounds limit 0).IsBounded := (isBounded_repeated limit).2 hlimit
    exact Chain.exists_exact s u name hbounded k steps w
  · intro hlimit
    have hbounded : (Chain.selector.rounds limit 0).IsBounded := (isBounded_retried limit).2 hlimit
    exact Chain.exists_exact s u name hbounded k steps w

/-- Around a child that always gives the same status, a repetition with the limit zero succeeds at
the first tick, and a retry with the limit two fails at the second. -/
theorem Decorator.rounds_counted_constant :
    let u : Units Status := ⟨fun k w => ⟨k, k, w⟩, fun k w => (k, w)⟩
    let s : Service := ⟨fun _ _ w => (.refused, w), fun _ w => (none, w)⟩
    let w := World.start (.empty .start) (.empty (.seeded 0))
    let c := conduct s u Status.text
    (0 : Int32) ≤ 0 ∧ (0 : Int32) < 2 ∧
      (c .tick (.repetition 0 0, some .success) w).1.answer = .ticked .success ∧
      (c .tick (c.run (.retry 2 0, some .failure) [(.tick, w)]).2 w).1.answer =
        .ticked .failure := by
  intro u s w c
  have hzero : (0 : Int32) ≤ 0 := by decide
  have htwo : (0 : Int32) < 2 := by decide
  rcases (rounds_counted s u Status.text 0 .success [] w).1 hzero with ⟨_, _, hfirst, hexact, -⟩
  rcases (rounds_counted s u Status.text 2 .failure [(.tick, w)] w).2 htwo with
    ⟨_, _, hsecond, hexact', -⟩
  cases hfirst
  cases hsecond
  exact ⟨hzero, htwo, hexact.last.2 ⟨rfl, rfl⟩, hexact'.last.2 ⟨rfl, rfl⟩⟩

end TickTree
