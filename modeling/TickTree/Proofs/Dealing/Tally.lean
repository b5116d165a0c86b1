import TickTree.Proofs.Dealing.Episode
import TickTree.Proofs.Trace.Pending

/-!
# Tallies

A parallel node ticks all of its children and counts their statuses.  What it makes of the counts
is said here by what holds of the statuses themselves: whether some child, or every child, has
failed or has succeeded, and whether one sleeps while none runs.  The order of the statuses does
not matter.

Main results:

- Theorem `tally_eq`: the result for the statuses of some children.
- Theorem `tally_perm`: the result depends on the statuses only, not on their order.
- Theorem `tally_idle_iff`: when the result is running although no child runs.
- Theorem `Composite.parallel_tallies`: what a tick of a parallel node does.
-/

namespace TickTree

/-! ## Policies -/

/-- A policy holds of a status when one child has it, or when all children have it. -/
def Policy.Holds : Policy → Status → (statuses : List Status) → Prop
  | requireOne, status, statuses => status ∈ statuses
  | requireAll, status, statuses => ∀ other ∈ statuses, other = status

/-- Counting tells whether a policy holds. -/
theorem Policy.isMet_count (policy : Policy) (status : Status) (statuses : List Status) :
    policy.isMet (statuses.count status) statuses.length = true ↔
      policy.Holds status statuses := by
  cases policy with
  | requireOne =>
    rw [isMet, decide_eq_true_eq, Holds]
    exact List.count_pos_iff
  | requireAll =>
    rw [isMet, decide_eq_true_eq, Holds, List.count_eq_length]
    exact forall₂_congr fun _ _ => eq_comm

instance (policy : Policy) (status : Status) (statuses : List Status) :
    Decidable (policy.Holds status statuses) :=
  decidable_of_iff _ (policy.isMet_count status statuses)

/-! ## Results -/

variable {success failure : Policy} {statuses : List Status}

/-- The result for the statuses of some children: the failure policy goes before the success policy;
else the node sleeps if a child sleeps and none runs, and runs otherwise. -/
theorem tally_eq (h : statuses ≠ []) :
    tally success failure statuses =
      if failure.Holds .failure statuses then .failure
      else if success.Holds .success statuses then .success
      else if .sleeping ∈ statuses ∧ .running ∉ statuses then .sleeping
      else .running := by
  have hsleeps : (statuses.count .running = 0 ∧ 0 < statuses.count .sleeping) ↔
      .sleeping ∈ statuses ∧ .running ∉ statuses := by
    rw [List.count_eq_zero, List.count_pos_iff, and_comm]
  unfold tally
  simp only [List.isEmpty_iff, h, if_false, Policy.isMet_count, hsleeps]

/-- The result depends on the statuses only, not on their order. -/
theorem tally_perm {others : List Status} (h : statuses.Perm others) :
    tally success failure statuses = tally success failure others := by
  have hempty : statuses.isEmpty = others.isEmpty := by
    rw [Bool.eq_iff_iff, List.isEmpty_iff, List.isEmpty_iff]
    exact ⟨fun hnil => (hnil ▸ h).nil_eq.symm, fun hnil => (hnil ▸ h).eq_nil⟩
  unfold tally
  rw [hempty, h.length_eq]
  simp only [h.count_eq]

/-- Two children that disagree have not both succeeded and have not both failed. -/
theorem not_holds_of_ne {first second : Status} (hfirst : first ∈ statuses)
    (hsecond : second ∈ statuses) (hne : first ≠ second) (status : Status) :
    ¬ Policy.requireAll.Holds status statuses := by
  intro h
  exact hne ((h first hfirst).trans (h second hsecond).symm)

/-- The result is running although no child runs exactly when both policies ask for all children,
and all children have completed, but not in the same way. -/
theorem tally_idle_iff (h : statuses ≠ []) :
    (tally success failure statuses = .running ∧ .running ∉ statuses) ↔
      success = .requireAll ∧ failure = .requireAll ∧
        (∀ status ∈ statuses, status.isPending = false) ∧
        ∃ first ∈ statuses, ∃ second ∈ statuses, first ≠ second := by
  constructor
  · rintro ⟨hresult, hnone⟩
    have hpolicies : ¬ (success ≠ .requireAll ∨ failure ≠ .requireAll) := fun hpolicies =>
      hnone (mem_of_tally_eq rfl (fun _ => hpolicies) hresult)
    simp only [not_or, not_not] at hpolicies
    rcases hpolicies with ⟨rfl, rfl⟩
    rw [tally_eq h] at hresult
    split at hresult
    · cases hresult
    rename_i hfailure
    split at hresult
    · cases hresult
    rename_i hsuccess
    split at hresult
    · cases hresult
    rename_i hsleeps
    have hcompleted : ∀ status ∈ statuses, status.isPending = false := by
      intro status hstatus
      cases status with
      | success => rfl
      | failure => rfl
      | running => exact absurd hstatus hnone
      | sleeping => exact absurd ⟨hstatus, hnone⟩ hsleeps
    simp only [Policy.Holds, not_forall] at hfailure hsuccess
    rcases hfailure with ⟨first, hfirst, hnotFailed⟩
    rcases hsuccess with ⟨second, hsecond, hnotSucceeded⟩
    refine ⟨rfl, rfl, hcompleted, first, hfirst, second, hsecond, ?_⟩
    rintro rfl
    have hpending := hcompleted first hfirst
    cases first with
    | success => exact hnotSucceeded rfl
    | failure => exact hnotFailed rfl
    | running => cases hpending
    | sleeping => cases hpending
  · rintro ⟨rfl, rfl, hcompleted, first, hfirst, second, hsecond, hne⟩
    have hrunning : .running ∉ statuses := fun hmem => by cases hcompleted _ hmem
    have hsleeping : .sleeping ∉ statuses := fun hmem => by cases hcompleted _ hmem
    refine ⟨?_, hrunning⟩
    rw [tally_eq h, if_neg (not_holds_of_ne hfirst hsecond hne _),
      if_neg (not_holds_of_ne hfirst hsecond hne _), if_neg fun h => hsleeping h.1]

example : tally .requireAll .requireAll [.success, .failure] = .running := rfl

/-! ## Ticks -/

open Dealing (LeadAll)

variable {κ : Type}

/-- Ticking all children gives a status for each of them. -/
theorem length_tickAll (offers : List (Offer κ)) (w : World) :
    (tickAll offers w).1.length = offers.length := by
  induction offers generalizing w with
  | nil => rfl
  | cons offer rest ih => exact congrArg (· + 1) (ih (offer.tick w).world)

/-- Ticking all children is a tick of each child, in order. -/
theorem tickAllDealings_eq (u : Units κ) (position : Nat) (children : List κ) (w : World) :
    tickAllDealings u position children w =
      ((tickAll (children.map u.offer) w).1.map Prod.fst).mapIdx
        fun i status => .tick (position + i) status := by
  induction children generalizing position w with
  | nil => rfl
  | cons k rest ih =>
    simp only [tickAllDealings, List.map_cons, tickAll, List.mapIdx_cons, ih, Units.offer]
    congr 2
    funext i status
    congr 1
    omega

/-- The statuses in the ticks of all children are those that are counted. -/
theorem map_snd_tickAllDealings (u : Units κ) (position : Nat) (children : List κ) (w : World) :
    ((tickAllDealings u position children w).filterMap Dealing.tick?).map Prod.snd =
      (tickAll (children.map u.offer) w).1.map Prod.fst := by
  induction children generalizing position w with
  | nil => rfl
  | cons k rest ih => exact congrArg (_ :: ·) (ih (position + 1) (u.tick k w).world)

namespace Composite

/-- What a tick of a parallel node comes to whose children give some statuses. -/
structure Tallied (success failure : Policy) (count : Nat) (statuses : List Status)
    (status : Status) (step : Episode × (Composite × List κ) × World) : Prop where
  answer : step.1.answer = .ticked status
  part : step.2.1.1 = .parallel success failure
  /-- Each child is ticked once, in order, whatever the others give.  Then all children are reset in
  order if the result ends the activation, and none otherwise. -/
  dealings : statuses.length = count ∧ step.1.dealings =
    (statuses.mapIdx fun position status => .tick position status) ++ Dealing.ending status count
  result : status =
    if failure.Holds .failure statuses then .failure
    else if success.Holds .success statuses then .success
    else if .sleeping ∈ statuses ∧ .running ∉ statuses then .sleeping
    else .running
  /-- It runs with no child that runs only when its children have completed and disagree, and both
  policies ask for all of them. -/
  idle : (status = .running ∧ .running ∉ statuses) ↔
    success = .requireAll ∧ failure = .requireAll ∧
      (∀ status ∈ statuses, status.isPending = false) ∧
      ∃ first ∈ statuses, ∃ second ∈ statuses, first ≠ second
  /-- With any other policies a pending status is that of a child. -/
  pending : success ≠ .requireAll ∨ failure ≠ .requireAll → status.isPending = true →
    status ∈ statuses

section

variable (u : Units κ) (success failure : Policy) (children : List κ) (w : World)

/-- The statuses that a tick of a parallel node counts are those of its dealings. -/
theorem map_snd_ticks_parallel :
    (conduct u .tick (.parallel success failure, children) w).1.ticks.map Prod.snd =
      (tickAll (children.map u.offer) w).1.map Prod.fst := by
  simp only [Episode.ticks, conduct, dealings, List.filterMap_append,
    Dealing.filterMap_tick?_ending, List.append_nil]
  exact map_snd_tickAllDealings u 0 children w

/-- The result of a parallel node is the tally of the statuses of its children. -/
theorem answer_parallel :
    let step := conduct u .tick (.parallel success failure, children) w
    step.1.answer = .ticked (tally success failure (step.1.ticks.map Prod.snd)) := by
  intro step
  rw [map_snd_ticks_parallel]
  simp only [step, conduct, tick, status_settle]

end

/-- What a tick of a parallel node with at least one child does.  Its result is the tally of the
statuses of its children, and a parallel node with the same policies over any other children gives
the same result when their statuses are the same up to their order. -/
theorem parallel_tallies (s : Service) (u : Units κ) (success failure : Policy) (child : κ)
    (rest : List κ) (w : World) :
    let step := conduct u .tick (.parallel success failure, child :: rest) w
    let statuses := step.1.ticks.map Prod.snd
    (∃ status, Tallied success failure (rest.length + 1) statuses status step) ∧
      LeadAll s u step.1.dealings (child :: rest, w) (step.2.1.2, step.2.2) ∧
      ∀ {μ : Type} (v : Units μ) (others : List μ) (w' : World),
        let step' := conduct v .tick (.parallel success failure, others) w'
        (step'.1.ticks.map Prod.snd).Perm statuses → step'.1.answer = step.1.answer := by
  intro step statuses
  have hanswer : step.1.answer = .ticked (tally success failure statuses) :=
    answer_parallel u success failure (child :: rest) w
  have hstatuses : statuses = (tickAll ((child :: rest).map u.offer) w).1.map Prod.fst :=
    map_snd_ticks_parallel u success failure (child :: rest) w
  have hne : statuses ≠ [] := by
    rw [hstatuses]
    exact List.cons_ne_nil _ _
  refine ⟨⟨_, hanswer, ?_, ⟨?_, ?_⟩, tally_eq hne, tally_idle_iff hne, ?_⟩,
    leadAll_conduct .tick (.parallel success failure, child :: rest) w, ?_⟩
  · simp only [step, conduct, tick, settle]
    split <;> rfl
  · rw [hstatuses, List.length_map, length_tickAll, List.length_map, List.length_cons]
  · have hticks := tickAllDealings_eq u 0 (child :: rest) w
    simp only [Nat.zero_add, ← hstatuses] at hticks
    have hstatus : (tick u.reset (.parallel success failure) ((child :: rest).map u.offer) w).status
        = tally success failure statuses := Answer.ticked.inj hanswer
    simp only [step, conduct, dealings, hticks, hstatus, List.length_cons]
  · intro hpolicies hpending
    exact mem_of_tally_eq hpending (fun _ => hpolicies) rfl
  · intro μ v others w' step' hperm
    rw [hanswer, ← tally_perm hperm]
    exact answer_parallel v success failure others w'

end Composite

end TickTree
