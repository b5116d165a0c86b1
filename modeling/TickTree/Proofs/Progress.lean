import Mathlib.Algebra.Order.BigOperators.Group.List
import Mathlib.Algebra.Order.Group.Nat
import Mathlib.Tactic.Ring
import TickTree.Proofs.Handling

/-!
# Progress of parents

How often a parent may run before it gives another status, when its children may run only so often.
The allowance of a parent bounds this for a whole activation, and does not depend on its state.
What is left of the allowance in the middle of an activation gets smaller with every tick on which
the parent runs.

Main results:

- Definitions `Composite.allowance` and `Decorator.allowance`: the bounds.
- Theorem `Composite.pending_tick`: when a composite runs, less is left to it.
- Theorem `Decorator.advances_tick`: when a decorator runs, less is left to it, and it never runs
  out of rounds.
-/

namespace TickTree

variable {κ : Type}

/-! ## Composites -/

namespace Composite

/-- How often a composite may run in an activation, when its children may run so often. -/
def allowance : Composite → (children : List Nat) → Nat
  | chain _ _ _, children => children.sum
  | randomSelector _ _, children => children.foldr max 0
  | parallel _ _, _ => 0

/-- How often a composite may still run, when so much is left to its children. -/
def pending : Composite → (children : List Nat) → Nat
  | chain _ _ cursor, children => (children.drop cursor).sum
  | randomSelector _ none, children => children.foldr max 0
  | randomSelector _ (some position), children => children.getD position 0
  | parallel _ _, _ => 0

/-- A composite that ticks one child at a time. -/
def IsSerial : Composite → Prop
  | parallel _ _ => False
  | _ => True

/-- The kind of a composite is not a matter of its state. -/
theorem isSerial_reset (part : Composite) : part.reset.IsSerial ↔ part.IsSerial := by
  cases part <;> rfl

/-- The allowance of a composite is not a matter of its state. -/
theorem allowance_reset (part : Composite) : part.reset.allowance = part.allowance := by
  cases part <;> rfl

end Composite

/-- A member of a list is at most the greatest one. -/
theorem getD_le_foldr_max (children : List Nat) (position : Nat) :
    children.getD position 0 ≤ children.foldr max 0 := by
  induction children generalizing position with
  | nil => simp
  | cons first rest ih =>
    cases position with
    | zero => exact Nat.le_max_left _ _
    | succ position =>
      simp only [List.getD_cons_succ, List.foldr_cons]
      exact Nat.le_trans (ih position) (Nat.le_max_right _ _)

/-- What is left to a composite is within its allowance. -/
theorem Composite.pending_le_allowance (part : Composite) {children bounds : List Nat}
    (h : List.Forall₂ (· ≤ ·) children bounds) : part.pending children ≤ part.allowance bounds := by
  cases part with
  | chain kind name cursor =>
    have hdrop : (children.drop cursor).sum ≤ children.sum :=
      (List.drop_sublist cursor children).sum_le_sum fun _ _ => Nat.zero_le _
    exact Nat.le_trans hdrop h.sum_le_sum
  | randomSelector source selected =>
    have hmax : ∀ {children bounds : List Nat}, List.Forall₂ (· ≤ ·) children bounds →
        children.foldr max 0 ≤ bounds.foldr max 0 := by
      intro children bounds h
      induction h with
      | nil => exact Nat.le_refl _
      | cons hfirst _ ih => simp only [List.foldr_cons]; omega
    cases selected with
    | none => exact hmax h
    | some position => exact Nat.le_trans (getD_le_foldr_max children position) (hmax h)
  | parallel success failure => exact Nat.le_refl _

section

variable {left : κ → Nat} {children : List (Offer κ)}
  (hless : ∀ o ∈ children, ∀ u, (o.tick u).status = .running → left (o.tick u).state < left o.state)
include hless

/-- When a pass ends at a child that runs, less is left from this child on than was left to all. -/
theorem Chain.sum_drop_pass (kind : Chain) (name : String) (position : Nat) (w : World)
    (hrun : (kind.pass name position children w).status = .running) :
    ∃ passed, (kind.pass name position children w).position = position + passed ∧
      (((kind.pass name position children w).states.drop passed).map left).sum <
        (children.map fun o => left o.state).sum := by
  induction children generalizing position w with
  | nil => cases kind <;> cases hrun
  | cons child rest ih =>
    have hchild := hless child List.mem_cons_self w
    have hothers := fun other h => hless other (List.mem_cons_of_mem _ h)
    unfold pass at hrun ⊢
    simp only [] at hrun ⊢
    split at hrun
    next hpasses =>
      rw [if_pos hpasses]
      rcases ih hothers (position + 1) _ hrun with ⟨passed, hposition, hsum⟩
      refine ⟨passed + 1, ?_, ?_⟩
      · rw [hposition]
        omega
      · simp only [List.drop_succ_cons, List.map_cons, List.sum_cons]
        omega
    next hpasses =>
      rw [if_neg hpasses]
      refine ⟨0, rfl, ?_⟩
      have hfirst := hchild hrun
      simp only [List.drop_zero, List.map_cons, List.sum_cons, List.map_map]
      exact Nat.add_lt_add_right hfirst _

/-- When the child at a position runs, less is left to it. -/
theorem getD_tickAt (position : Nat) (w : World)
    (hrun : (tickAt position children w).status = .running) :
    ((tickAt position children w).state.map left).getD position 0 <
      (children.map fun o => left o.state).getD position 0 := by
  induction children generalizing position with
  | nil => cases position <;> cases hrun
  | cons child rest ih =>
    cases position with
    | zero => exact hless child List.mem_cons_self w hrun
    | succ position =>
      simp only [tickAt, Ticked.map, List.map_cons, List.getD_cons_succ] at hrun ⊢
      exact ih (fun other h => hless other (List.mem_cons_of_mem _ h)) position hrun

/-- When a composite runs, less is left to it. -/
theorem Composite.pending_tick {reset : κ → World → κ × World} {part : Composite}
    (hpart : part.IsSerial) (w : World) (hrun : (part.tick reset children w).status = .running) :
    (part.tick reset children w).state.1.pending
        ((part.tick reset children w).state.2.map left) <
      part.pending (children.map fun o => left o.state) := by
  cases part with
  | chain kind name cursor =>
    simp only [tick, status_settle] at hrun ⊢
    rw [settle_of_pending reset _ (by rw [hrun]; rfl)]
    have hremaining : ∀ o ∈ children.drop cursor, ∀ u, (o.tick u).status = .running →
        left (o.tick u).state < left o.state := fun o h => hless o (List.mem_of_mem_drop h)
    rcases kind.sum_drop_pass hremaining name cursor w hrun with ⟨passed, hposition, hsum⟩
    have hcursor : cursor ≤ children.length := by
      by_contra hbeyond
      rw [List.drop_eq_nil_of_le (by omega)] at hrun
      cases kind <;> cases hrun
    have hbefore : ((children.take cursor).map Offer.state).length = cursor := by
      rw [List.length_map, List.length_take, Nat.min_eq_left hcursor]
    simp only [pending, hposition]
    rw [← List.map_drop, List.drop_append, hbefore, Nat.add_sub_cancel_left,
      List.drop_eq_nil_of_le (by omega), List.nil_append, ← List.map_drop]
    exact hsum
  | randomSelector source selected =>
    simp only [tick] at hrun ⊢
    split at hrun
    next hempty => cases hrun
    next hempty =>
      rw [if_neg hempty]
      rw [status_settle] at hrun
      rw [settle_of_pending reset _ (by rw [hrun]; rfl)]
      have hchosen := getD_tickAt hless _ _ hrun
      refine Nat.lt_of_lt_of_le hchosen ?_
      cases selected with
      | none => exact getD_le_foldr_max _ _
      | some position => exact Nat.le_refl _
  | parallel success failure => exact hpart.elim

end

/-! ## Decorators -/

namespace Decorator

/-- How often a decorator lets its child complete in an activation. -/
def rounds : Decorator → Nat
  | repetition limit _ => max limit.toInt.toNat 1
  | retry limit _ => limit.toInt.toNat
  | _ => 1

/-- How many of the rounds are over. -/
def finished : Decorator → Nat
  | repetition _ count => count.toInt.toNat
  | retry _ count => count.toInt.toNat
  | _ => 0

/-- How often a decorator may run in an activation, when its child may run so often: in each round
as often as the child, and once between two rounds. -/
def allowance (part : Decorator) (child : Nat) : Nat := part.rounds * child + (part.rounds - 1)

/-- How often a decorator may still run, when so much is left to its child in this round. -/
def pending (part : Decorator) (left child : Nat) : Nat :=
  left + (part.rounds - 1 - part.finished) * (child + 1)

/-- A decorator with finitely many rounds, not all of which are over. -/
def IsBounded : Decorator → Prop
  | repetition limit count => 0 ≤ limit ∧ 0 ≤ count ∧ (count = 0 ∨ count < limit)
  | retry limit count => 0 ≤ count ∧ count < limit
  | _ => True

/-- A new repetition is bounded when it has a limit. -/
theorem isBounded_repeated (times : Int32) : (repeated times).IsBounded ↔ 0 ≤ times :=
  ⟨fun h => h.1, fun h => ⟨h, Int32.le_refl 0, .inl rfl⟩⟩

/-- A new retry is bounded when it has a positive limit. -/
theorem isBounded_retried (attempts : Int32) : (retried attempts).IsBounded ↔ 0 < attempts :=
  ⟨fun h => h.2, fun h => ⟨Int32.le_refl 0, h⟩⟩

/-- The number of rounds is not a matter of the state. -/
theorem rounds_reset (part : Decorator) : part.reset.rounds = part.rounds := by
  cases part <;> rfl

/-- The allowance of a decorator is not a matter of its state. -/
theorem allowance_reset (part : Decorator) : part.reset.allowance = part.allowance := by
  funext child
  unfold allowance
  rw [rounds_reset]

/-- A round that is not the last one may be counted. -/
theorem toInt_count_add_one {limit count : Int32} (hless : count = 0 ∨ count < limit) :
    (count + 1).toInt = count.toInt + 1 := by
  have hone : (1 : Int32).toInt = 1 := rfl
  have hleast := count.le_toInt
  have hlimit := limit.toInt_lt
  rw [Int32.toInt_add, hone]
  rcases hless with rfl | hless
  · rfl
  · rw [Int32.lt_iff_toInt_lt] at hless
    apply Int.bmod_eq_of_le <;> omega

/-- There is a round that is not over. -/
theorem IsBounded.finished_lt {part : Decorator} (h : part.IsBounded) :
    part.finished < part.rounds := by
  have hzero : (0 : Int32).toInt = 0 := rfl
  cases part with
  | repetition limit count =>
    rcases h with ⟨-, hcount, rfl | hless⟩
    · exact Nat.lt_of_lt_of_le Nat.zero_lt_one (Nat.le_max_right _ _)
    · rw [Int32.lt_iff_toInt_lt] at hless
      rw [Int32.le_iff_toInt_le] at hcount
      simp only [finished, rounds]
      omega
  | retry limit count =>
    rcases h with ⟨hcount, hless⟩
    rw [Int32.lt_iff_toInt_lt] at hless
    rw [Int32.le_iff_toInt_le] at hcount
    simp only [finished, rounds]
    omega
  | inverter => exact Nat.zero_lt_one
  | cooldown clock period last => exact Nat.zero_lt_one
  | successRate source percentage => exact Nat.zero_lt_one
  | sleepUntilSuccess timer => exact Nat.zero_lt_one

/-- A reset leaves all rounds. -/
theorem IsBounded.reset {part : Decorator} (h : part.IsBounded) : part.reset.IsBounded := by
  cases part with
  | repetition limit count => exact ⟨h.1, Int32.le_refl 0, .inl rfl⟩
  | retry limit count => exact ⟨Int32.le_refl 0, Int32.lt_of_le_of_lt h.1 h.2⟩
  | inverter => trivial
  | cooldown clock period last => trivial
  | successRate source percentage => trivial
  | sleepUntilSuccess timer => trivial

/-- A round that is counted, and is not the last one, leaves a round. -/
theorem IsBounded.repetition {limit count : Int32} (h : (repetition limit count).IsBounded)
    (hmore : ¬ limit ≤ count + 1) :
    (Decorator.repetition limit (count + 1)).IsBounded ∧
      (Decorator.repetition limit (count + 1)).finished =
        (Decorator.repetition limit count).finished + 1 := by
  rcases h with ⟨hlimit, hcount, hless⟩
  have hnext := toInt_count_add_one hless
  have hzero : (0 : Int32).toInt = 0 := rfl
  rw [Int32.le_iff_toInt_le] at hcount
  have hpositive : 0 ≤ count + 1 := by
    rw [Int32.le_iff_toInt_le]
    omega
  refine ⟨⟨hlimit, hpositive, .inr (Int32.not_le.1 hmore)⟩, ?_⟩
  simp only [finished, hnext]
  omega

/-- A failed try that is counted, and is not the last one, leaves a try. -/
theorem IsBounded.retry {limit count : Int32} (h : (retry limit count).IsBounded)
    (hmore : ¬ (0 < limit ∧ limit ≤ count + 1)) :
    (Decorator.retry limit (count + 1)).IsBounded ∧
      (Decorator.retry limit (count + 1)).finished =
        (Decorator.retry limit count).finished + 1 := by
  rcases h with ⟨hcount, hless⟩
  have hnext := toInt_count_add_one (.inr hless)
  have hpositive : 0 < limit := Int32.lt_of_le_of_lt hcount hless
  have hzero : (0 : Int32).toInt = 0 := rfl
  rw [Int32.le_iff_toInt_le] at hcount
  have hcounted : 0 ≤ count + 1 := by
    rw [Int32.le_iff_toInt_le]
    omega
  have hstill : count + 1 < limit := Int32.not_le.1 fun h => hmore ⟨hpositive, h⟩
  refine ⟨⟨hcounted, hstill⟩, ?_⟩
  simp only [finished, hnext]
  omega

/-- What is left to a decorator is within its allowance. -/
theorem IsBounded.pending_le_allowance {part : Decorator} (h : part.IsBounded) {left child : Nat}
    (hleft : left ≤ child) : part.pending left child ≤ part.allowance child := by
  have hrounds : 1 ≤ part.rounds := Nat.lt_of_le_of_lt (Nat.zero_le _) h.finished_lt
  unfold pending allowance
  calc left + (part.rounds - 1 - part.finished) * (child + 1)
      ≤ child + (part.rounds - 1) * (child + 1) :=
        Nat.add_le_add hleft (Nat.mul_le_mul_right _ (Nat.sub_le _ _))
    _ = (part.rounds - 1 + 1) * child + (part.rounds - 1) := by ring
    _ = part.rounds * child + (part.rounds - 1) := by rw [Nat.sub_add_cancel hrounds]

/-- A new round leaves less than the end of the old one did. -/
theorem pending_lt_of_round {part next : Decorator} (hrounds : next.rounds = part.rounds)
    (hfinished : next.finished = part.finished + 1) (hmore : next.finished < part.rounds)
    {left first child : Nat} (hfirst : first ≤ child) :
    next.pending first child < part.pending left child := by
  have hround : part.rounds - 1 - part.finished = part.rounds - 1 - next.finished + 1 := by
    omega
  unfold pending
  rw [hrounds, hround, Nat.succ_mul]
  omega

/-- While the round is the same, what is left to the decorator is a matter of the child. -/
theorem pending_lt_of_child {part next : Decorator} (hrounds : next.rounds = part.rounds)
    (hfinished : next.finished = part.finished) {left less child : Nat} (h : less < left) :
    next.pending less child < part.pending left child := by
  unfold pending
  rw [hrounds, hfinished]
  exact Nat.add_lt_add_right h _

/-- What a decorator leaves after a tick: rounds that are not over, and less than before if it
runs. -/
structure Advances (part : Decorator) (measure : κ → Nat) (o : Offer κ) (child : Nat)
    (t : Ticked (Decorator × Option κ)) : Prop where
  bounded : t.state.1.IsBounded
  less : t.status = .running → ∃ k, t.state.2 = some k ∧
    t.state.1.pending (measure k) child < part.pending (measure o.state) child

section

variable {measure : κ → Nat} {o : Offer κ} {child : Nat} {part left : Decorator}
  {reset : κ → World → κ × World}

/-- A decorator that keeps its child as it is advances with it. -/
theorem advances_keep (hleft : left.IsBounded) (hrounds : left.rounds = part.rounds)
    (hfinished : left.finished = part.finished) {status : Status} {t : Ticked κ}
    (hless : status = .running → measure t.state < measure o.state) :
    Advances part measure o child (keep left status t) :=
  ⟨hleft, fun hrun => ⟨t.state, rfl, pending_lt_of_child hrounds hfinished (hless hrun)⟩⟩

/-- A decorator that completes does not run. -/
theorem advances_restart (hleft : left.reset.IsBounded) {status : Status}
    (hstatus : status ≠ .running) (t : Ticked κ) :
    Advances part measure o child (restart reset left status t) :=
  ⟨hleft, fun hrun => absurd hrun hstatus⟩

/-- A decorator that begins a new round advances. -/
theorem advances_restartChild (hleft : left.IsBounded) (hrounds : left.rounds = part.rounds)
    (hfinished : left.finished = part.finished + 1) (status : Status) {t : Ticked κ}
    (hreset : measure (reset t.state t.world).1 ≤ child) :
    Advances part measure o child (restartChild reset left status t) :=
  ⟨hleft, fun _ => ⟨_, rfl, pending_lt_of_round hrounds hfinished
    (hrounds ▸ hleft.finished_lt) hreset⟩⟩

variable (hless : ∀ u, (o.tick u).status = .running → measure (o.tick u).state < measure o.state)
  (hreset : ∀ u v, measure (reset (o.tick u).state v).1 ≤ child)

include hless hreset in
/-- A repetition advances. -/
theorem advances_tickRepetition {limit count : Int32} (h : (repetition limit count).IsBounded)
    (w : World) :
    Advances (.repetition limit count) measure o child
      (tickRepetition reset limit count o w) := by
  have hlimit : ¬ limit < 0 := Int32.not_lt.2 h.1
  unfold tickRepetition
  simp only [if_neg hlimit]
  split
  next hsuccess =>
    split
    next hlast => exact advances_restart h.reset Status.noConfusion _
    next hmore =>
      rcases h.repetition hmore with ⟨hbounded, hfinished⟩
      refine advances_restartChild hbounded ?_ hfinished _ (hreset _ _)
      rfl
  next hfailure => exact advances_restart h.reset Status.noConfusion _
  next => exact advances_keep h rfl rfl (hless w)

include hless hreset in
/-- A retry advances. -/
theorem advances_tickRetry {limit count : Int32} (h : (retry limit count).IsBounded) (w : World) :
    Advances (.retry limit count) measure o child (tickRetry reset limit count o w) := by
  unfold tickRetry
  simp only []
  split
  next hsuccess => exact advances_restart h.reset Status.noConfusion _
  next hfailure =>
    split
    next hlast => exact advances_restart h.reset Status.noConfusion _
    next hmore =>
      rcases h.retry hmore with ⟨hbounded, hfinished⟩
      refine advances_restartChild hbounded ?_ hfinished _ (hreset _ _)
      rfl
  next => exact advances_keep h rfl rfl (hless w)

include hless in
/-- A wait for success advances. -/
theorem advances_tickSleepUntilSuccess (timer : Timer) (w : World) :
    Advances (.sleepUntilSuccess timer) measure o child
      (tickSleepUntilSuccess reset timer o w) := by
  have hbounded : ∀ timer, (sleepUntilSuccess timer).IsBounded := fun _ => trivial
  unfold tickSleepUntilSuccess
  simp only []
  split
  · exact advances_restart (hbounded _).reset Status.noConfusion _
  · split
    · exact advances_restart (hbounded _).reset Status.noConfusion _
    · refine advances_keep (hbounded _) ?_ ?_ fun hrun => ?_
      · rfl
      · rfl
      · split at hrun
        next hchild =>
          have hkept := resetFailed_of_running hchild
          rw [hkept] at hchild ⊢
          exact hless _ hchild
        next => cases hrun

include hless hreset in
/-- A decorator advances. -/
theorem advances_tick (s : Service) (name : κ → String) (h : part.IsBounded) (w : World) :
    Advances part measure o child (part.tick s reset name (some o) w) := by
  cases part with
  | inverter =>
    refine advances_keep h rfl rfl fun hrun => hless w ?_
    revert hrun
    cases (o.tick w).status <;> simp [Status.invert]
  | repetition limit count => exact advances_tickRepetition hless hreset h w
  | retry limit count => exact advances_tickRetry hless hreset h w
  | cooldown clock period last =>
    have hbounded : ∀ last, (cooldown clock period last).IsBounded := fun _ => trivial
    simp only [tick, tickCooldown]
    split
    · exact ⟨hbounded _, fun hrun => Status.noConfusion hrun⟩
    · refine advances_keep (hbounded _) ?_ ?_ (hless _)
      · rfl
      · rfl
  | successRate source percentage =>
    simp only [tick, tickSuccessRate]
    split
    · exact ⟨h, fun hrun => Status.noConfusion hrun⟩
    · exact advances_keep h rfl rfl (hless _)
  | sleepUntilSuccess timer => exact advances_tickSleepUntilSuccess hless timer w

end

end Decorator

end TickTree
