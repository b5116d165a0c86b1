import TickTree.Proofs.Dealing.Episode

/-!
# Counted attempts

A retry counts the failed attempts of its activation in a machine integer of 32 bits, with a limit
and without one.  A positive limit is reached before the count leaves the range of the integer.
Without one the attempts go on, and so does the count: it agrees with the number of failed attempts
up to multiples of 2^32, so it is exact as long as fewer than 2^31 have failed, and the next one
takes it from the greatest integer to the least.

Main results:

- Theorem `Decorator.attempting_run`: in every run the count stands for the failed attempts of the
  activation.
- Theorem `Decorator.attempts_counted`: how far the count of a retry can be trusted.
- Theorem `Decorator.attempts_overflow`: a retry without a limit that has failed 2^31 times.
-/

namespace TickTree

variable {κ : Type}

open Dealing (LeadAll)

/-- How often children have failed in the current activation, after some episodes. -/
def Episode.failed (episodes : List Episode) : Nat :=
  ((current episodes).map Prod.snd).count .failure

/-- An episode that does not end the activation adds its own failures. -/
theorem Episode.failed_concat (episodes : List Episode) (e : Episode) :
    failed (episodes ++ [e]) =
      if e.ends then 0 else failed episodes + (e.ticks.map Prod.snd).count .failure := by
  unfold failed
  rw [current_concat]
  split
  · rfl
  · rw [List.map_append, List.count_append]

namespace Decorator

/-! ## One attempt -/

/-- What a tick of a retry comes to that stands at a count and whose child gives a status. -/
structure Attempt (limit count : Int32) (status : Status)
    (step : Episode × (Decorator × Option κ) × World) : Prop where
  /-- The child is ticked once. -/
  ticks : step.1.ticks = [(0, status)]
  /-- A failure is counted, unless it ends the activation; any other status is not. -/
  left : ∃ child, step.2.1 = (.retry limit
    (if step.1.ends then 0 else if status = .failure then count + 1 else count), some child)
  /-- A failure that does not end the activation leaves attempts. -/
  more : step.1.ends = false → status = .failure → ¬ (0 < limit ∧ limit ≤ count + 1)

variable (s : Service) (u : Units κ) (name : κ → String) (limit : Int32)

/-- A tick of a retry is an attempt. -/
theorem attempt_tick (count : Int32) (k : κ) (w : World) :
    Attempt limit count (u.tick k w).status
      (conduct s u name .tick (.retry limit count, some k) w) := by
  have hticks : (conduct s u name .tick (.retry limit count, some k) w).1.ticks =
      [(0, (u.tick k w).status)] := by
    simp only [Episode.ticks, conduct, dealings, List.filterMap_cons, Dealing.tick?]
    split
    · rfl
    · rw [Dealing.filterMap_tick?_ending]
  refine ⟨hticks, ?_, ?_⟩
  · simp only [conduct, tick, Option.map_some, tickRetry, Units.offer]
    rcases u.tick k w with ⟨status, state, world⟩
    cases status with
    | failure =>
      by_cases hlast : 0 < limit ∧ limit ≤ count + 1
      · simp only [if_pos hlast]
        exact ⟨_, rfl⟩
      · simp only [if_neg hlast]
        exact ⟨_, rfl⟩
    | success => exact ⟨_, rfl⟩
    | running => exact ⟨_, rfl⟩
    | sleeping => exact ⟨_, rfl⟩
  · intro hends hfailure hlast
    simp only [conduct, tick, Option.map_some, tickRetry, Units.offer, hfailure, if_pos hlast]
      at hends
    cases hends

/-! ## Runs -/

/-- Where a retry stands in the course of its activation: its count stands for the failed attempts,
and with a positive limit there are fewer of them. -/
structure Attempting (limit : Int32) (episodes : List Episode) (x : Decorator × Option κ)
    (count : Int32) (child : κ) : Prop where
  state : x = (.retry limit count, some child)
  counted : count = Int32.ofNat (Episode.failed episodes)
  within : 0 < limit → (Episode.failed episodes : Int) < limit.toInt

variable {limit} {episodes : List Episode} {x : Decorator × Option κ} {count : Int32} {child : κ}

/-- At the beginning of an activation no attempt has failed. -/
theorem attempting_zero (hx : x = (.retry limit 0, some child))
    (hfailed : Episode.failed episodes = 0) : Attempting limit episodes x 0 child := by
  refine ⟨hx, ?_, ?_⟩
  · rw [hfailed]
    rfl
  · intro hlimit
    rw [hfailed]
    exact Int32.lt_iff_toInt_lt.1 hlimit

/-- Where it stands is a matter of the current activation only. -/
theorem Attempting.congr (h : Attempting limit episodes x count child) {others : List Episode}
    (hfailed : Episode.failed others = Episode.failed episodes) :
    Attempting limit others x count child :=
  ⟨h.state, hfailed ▸ h.counted, hfailed ▸ h.within⟩

/-- The count is the number of failed attempts, always with a positive limit, and otherwise as long
as there are fewer than 2^31 of them. -/
theorem Attempting.toInt_count (h : Attempting limit episodes x count child)
    (hfew : 0 < limit ∨ Episode.failed episodes < 2147483648) :
    count.toInt = Episode.failed episodes := by
  have hbelow : Episode.failed episodes < 2147483648 := by
    rcases hfew with hlimit | hfew
    · have hwithin := h.within hlimit
      have hrange := limit.toInt_lt
      omega
    · exact hfew
  rw [h.counted]
  exact Int32.toInt_ofNat_of_lt hbelow

/-- After an attempt the count again stands for the failed attempts. -/
theorem Attempting.attempt (h : Attempting limit episodes x count child) {status : Status}
    {step : Episode × (Decorator × Option κ) × World} (hstep : Attempt limit count status step) :
    ∃ count child, Attempting limit (episodes ++ [step.1]) step.2.1 count child := by
  rcases hstep.left with ⟨child, hleft⟩
  have hfailed := Episode.failed_concat episodes step.1
  rw [hstep.ticks] at hfailed
  cases hends : step.1.ends with
  | true =>
    simp only [hends, if_true] at hleft hfailed
    exact ⟨0, child, attempting_zero hleft hfailed⟩
  | false =>
    simp only [hends, Bool.false_eq_true, if_false] at hleft hfailed
    by_cases hfailure : status = .failure
    · simp only [if_pos hfailure] at hleft
      have hnext : Episode.failed (episodes ++ [step.1]) = Episode.failed episodes + 1 := by
        rw [hfailed, hfailure]
        rfl
      refine ⟨count + 1, child, hleft, ?_, ?_⟩
      · rw [hnext, h.counted]
        exact (Int32.ofNat_add _ 1).symm
      · intro hlimit
        have hbelow := h.within hlimit
        have hrange := limit.toInt_lt
        have hstill : count + 1 < limit :=
          Int32.not_le.1 fun hlast => hstep.more hends hfailure ⟨hlimit, hlast⟩
        have hcount : (count + 1).toInt = Episode.failed episodes + 1 := by
          rw [h.counted]
          show (Int32.ofNat _ + Int32.ofNat 1).toInt = _
          rw [← Int32.ofNat_add, Int32.toInt_ofNat_of_lt (by omega)]
          rfl
        rw [Int32.lt_iff_toInt_lt, hcount] at hstill
        rw [hnext]
        exact hstill
    · simp only [if_neg hfailure] at hleft
      have hsame : Episode.failed (episodes ++ [step.1]) = Episode.failed episodes := by
        rw [hfailed, List.map_singleton, List.count_eq_zero.2 (by simpa using Ne.symm hfailure)]
        rfl
      exact ⟨count, child, hleft, hsame ▸ h.counted, hsame ▸ h.within⟩

variable (limit)

/-- In every run of a retry the count stands for the failed attempts of the activation. -/
theorem attempting_run (k : κ) (steps : List (Operation × World)) :
    let before := (conduct s u name).run (.retry limit 0, some k) steps
    ∃ count child, Attempting limit before.1 before.2 count child := by
  refine (conduct s u name).run_induction
    (P := fun episodes x => ∃ count child, Attempting limit episodes x count child)
    ⟨0, k, attempting_zero rfl rfl⟩ ?_ steps
  rintro episodes x operation w ⟨count, child, h⟩
  have hidle : ∀ {operation : Operation}, operation ≠ .reset →
      Episode.failed (episodes ++ [⟨operation, .done, []⟩]) = Episode.failed episodes := by
    intro operation hoperation
    rw [Episode.failed, Episode.current_idle episodes hoperation]
    rfl
  rcases h.state with rfl
  cases operation with
  | tick => exact h.attempt (attempt_tick s u name limit count child w)
  | reset =>
    refine ⟨0, _, attempting_zero rfl ?_⟩
    rw [Episode.failed_concat]
    rfl
  | start => exact ⟨count, child, h.congr (hidle (by decide))⟩
  | finish => exact ⟨count, child, h.congr (hidle (by decide))⟩

/-- How far the count of a retry that comes after some episodes can be trusted. -/
structure Trusted (limit : Int32) (episodes : List Episode) (count : Int32) : Prop where
  /-- It is the number of failed attempts, always with a positive limit, and otherwise as long as
  fewer than 2^31 have failed. -/
  exact : 0 < limit ∨ Episode.failed episodes < 2147483648 → count.toInt = Episode.failed episodes
  /-- With a positive limit there are always fewer than the limit. -/
  limited : 0 < limit → (Episode.failed episodes : Int) < limit.toInt
  /-- In any case it is their number up to multiples of 2^32. -/
  modular : count.toInt = (Episode.failed episodes : Int).bmod 4294967296
  /-- Counting one more leaves the range of the integer at the 2^31st failure, and again whenever
  2^32 more have failed. -/
  overflows : (count + 1).toInt ≠ count.toInt + 1 ↔
    Episode.failed episodes % 4294967296 = 2147483647

/-- Among the residues around zero only the greatest has no successor. -/
theorem bmod_add_one_ne_iff (n : Nat) :
    ((n : Int).bmod 4294967296 + 1).bmod 4294967296 ≠ (n : Int).bmod 4294967296 + 1 ↔
      n % 4294967296 = 2147483647 := by
  simp only [Int.bmod_def]
  split <;> split <;> omega

/-- The count of a retry can be trusted as far as that. -/
theorem Attempting.trusted (h : Attempting limit episodes x count child) :
    Trusted limit episodes count := by
  have hmodular : count.toInt = (Episode.failed episodes : Int).bmod 4294967296 := by
    rw [h.counted]
    exact Int32.toInt_ofNat'
  have hone : (1 : Int32).toInt = 1 := rfl
  refine ⟨h.toInt_count, h.within, hmodular, ?_⟩
  rw [Int32.toInt_add, hone, hmodular]
  exact bmod_add_one_ne_iff _

/-- How far the count of a retry can be trusted.  In every run, with a positive limit it is the
number of failed attempts of the activation, and one more can always be counted; without one it is
as long as fewer than 2^31 have failed.  An attempt that fails is counted if it does not end the
activation. -/
theorem attempts_counted (k : κ) (steps : List (Operation × World)) (w : World) :
    let before := (conduct s u name).run (.retry limit 0, some k) steps
    let step := conduct s u name .tick before.2 w
    ∃ count child, before.2 = (.retry limit count, some child) ∧
      Trusted limit before.1 count ∧
      Attempt limit count (u.tick child w).status step ∧
      (0 < limit → (count + 1).toInt = count.toInt + 1) ∧
      LeadAll s u step.1.dealings ([child], w) (step.2.1.2.toList, step.2.2) := by
  intro before step
  rcases attempting_run s u name limit k steps with ⟨count, child, h⟩
  have hstate : before.2 = (.retry limit count, some child) := h.state
  have htrusted := h.trusted
  have hattempt := attempt_tick s u name limit count child w
  rw [← hstate] at hattempt
  refine ⟨count, child, hstate, htrusted, hattempt, ?_, leadAll_conduct_child name .tick hstate w⟩
  intro hlimit
  have hbelow := h.within hlimit
  have hrange := limit.toInt_lt
  refine not_not.1 fun hover => ?_
  have hmany := htrusted.overflows.1 hover
  omega

/-- Around a child that always fails, a retry with the limit two has counted one failed attempt
after the first tick, and one more can be counted. -/
theorem attempts_counted_once :
    let u : Units Status := ⟨fun k w => ⟨k, k, w⟩, fun k w => (k, w)⟩
    let s : Service := ⟨fun _ _ w => (.refused, w), fun _ w => (none, w)⟩
    let w := World.start (.empty .start) (.empty (.seeded 0))
    let after := (conduct s u Status.text).run (.retry 2 0, some .failure) [(.tick, w)]
    (0 : Int32) < 2 ∧ ∃ count, after.2 = (.retry 2 count, some .failure) ∧
      count.toInt = 1 ∧ (count + 1).toInt = 2 := by
  intro u s w after
  have hlimit : (0 : Int32) < 2 := by decide
  rcases attempts_counted s u Status.text 2 .failure [(.tick, w)] w with
    ⟨count, child, hstate, htrusted, -, hnext, -⟩
  have hchild : child = .failure := by
    cases hstate
    rfl
  have hcount : count.toInt = 1 := htrusted.exact (.inl hlimit)
  refine ⟨hlimit, count, hchild ▸ hstate, hcount, ?_⟩
  rw [hnext hlimit, hcount]
  rfl

/-! ## Attempts without end -/

/-- A retry without a limit has failed as often as it was ticked, around a child that always
fails. -/
theorem failed_run_replicate (hlimit : ¬ 0 < limit) {k : κ}
    (htick : ∀ w, u.tick k w = ⟨.failure, k, w⟩) (hreset : ∀ w, u.reset k w = (k, w))
    (count : Nat) (w : World) :
    let after := (conduct s u name).run (.retry limit 0, some k) (.replicate count (.tick, w))
    Episode.failed after.1 = count ∧ after.2.2 = some k := by
  induction count with
  | zero => exact ⟨rfl, rfl⟩
  | succ count ih =>
    intro after
    let before := (conduct s u name).run (.retry limit 0, some k) (.replicate count (.tick, w))
    rcases attempting_run s u name limit k (.replicate count (.tick, w)) with ⟨counted, child, h⟩
    have hchild : before.2.2 = some k := ih.2
    have hstate : before.2 = (.retry limit counted, some k) := by
      rw [← hchild, h.state]
    have hafter : after = (before.1 ++ [(conduct s u name .tick before.2 w).1],
        (conduct s u name .tick before.2 w).2.1) := by
      simp only [after, List.replicate_succ', Conduct.run_concat]
      rfl
    have hstep : conduct s u name .tick before.2 w =
        (⟨.tick, .ticked .running, [.tick 0 .failure, .reset 0]⟩,
          (.retry limit (counted + 1), some k), w) := by
      rw [hstate]
      simp [conduct, tick, tickRetry, dealings, Units.offer, restartChild, Dealing.ending,
        Dealing.resets, Status.isCompleted, htick, hreset, hlimit]
    rw [hafter, hstep]
    refine ⟨?_, rfl⟩
    rw [Episode.failed_concat]
    exact congrArg (· + 1) ih.1

/-- A retry without a limit overflows.  Around a child that always fails the next failure cannot be
counted any more after 2^31 - 1 ticks, and after 2^31 failed attempts the count is negative. -/
theorem attempts_overflow :
    let s : Service := ⟨fun _ _ w => (.refused, w), fun _ w => (none, w)⟩
    let w := World.start (.empty .start) (.empty (.seeded 0))
    let child := Node.decorator .inverter none
    let after (ticks : Nat) := (conduct s (Units.nodes s) Node.name).run
      (retriedForever, some child) (.replicate ticks (.tick, w))
    (∃ count, (after 2147483647).2 = (.retry (-1) count, some child) ∧
      (count + 1).toInt ≠ count.toInt + 1) ∧
    Episode.failed (after 2147483648).1 = 2147483648 ∧
      ∃ count, (after 2147483648).2 = (.retry (-1) count, some child) ∧
        count.toInt = -2147483648 := by
  intro s w child after
  have hlimit : ¬ 0 < (-1 : Int32) := by decide
  have hafter : ∀ ticks, Episode.failed (after ticks).1 = ticks ∧
      ∃ count, (after ticks).2 = (.retry (-1) count, some child) ∧
        Trusted (-1) (after ticks).1 count := by
    intro ticks
    have hfailed := failed_run_replicate s (Units.nodes s) Node.name (-1) hlimit (k := child)
      (fun _ => rfl) (fun _ => rfl) ticks w
    rcases attempting_run s (Units.nodes s) Node.name (-1) child (.replicate ticks (.tick, w)) with
      ⟨count, other, h⟩
    have hchild : some other = some child := (congrArg Prod.snd h.state).symm.trans hfailed.2
    exact ⟨hfailed.1, count, hchild ▸ h.state, h.trusted⟩
  rcases hafter 2147483647 with ⟨hfailed, count, hstate, htrusted⟩
  rcases hafter 2147483648 with ⟨hfailed', count', hstate', htrusted'⟩
  refine ⟨⟨count, hstate, htrusted.overflows.2 ?_⟩, hfailed', count', hstate', ?_⟩
  · omega
  · rw [htrusted'.modular, hfailed']
    rfl

end Decorator

end TickTree
