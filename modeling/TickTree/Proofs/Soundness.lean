import TickTree.Proofs.Cooldown.Clock
import TickTree.Proofs.Progress

/-!
# Sound states of leaves and parents

The fields of a running node satisfy conditions that its type does not express: a cursor points to a
child, a count is below its limit, and no kept reading of a clock lies in the future.  Every tick
keeps them, also where the work in between does not: the cursor of a chain runs past the last child
before the activation ends, and a count reaches its limit before it is taken back.

Main results:

- Theorem `Leaf.sound_tick`: a tick leaves a leaf sound.
- Theorem `Chain.position_pass_lt`: a pass that does not complete stops at a child.
- Theorem `Composite.sound_tick`: a tick leaves a composite sound.
- Theorem `Decorator.sound_tick`: a tick leaves a decorator sound.
-/

namespace TickTree

/-! ## Later worlds -/

/-- No clock reads less in the second world than in the first. -/
def World.Earlier (v w : World) : Prop := ∀ clock, v.Before clock w

namespace World

theorem Earlier.refl (w : World) : w.Earlier w := fun clock => .refl clock w

theorem Earlier.trans {u v w : World} (h : u.Earlier v) (h' : v.Earlier w) : u.Earlier w :=
  fun clock => (h clock).trans (h' clock)

/-- Log records and draws take no time. -/
theorem passage_earlier : Passage Earlier where
  refl := .refl
  trans h h' := h.trans h'
  report level message w clock := (passage_before clock).report level message w
  draw draw take source w clock := (passage_before clock).draw draw take source w

end World

/-- No supplier moves a clock back. -/
theorem Supplier.earlier_get {α : Type} {s : Service} (hs : ∀ clock, s.Forward clock)
    (supplier : Supplier α) (w : World) : w.Earlier (supplier.get s w).2 :=
  fun clock => supplier.before_get (hs clock) w

/-- No operation on a node moves a clock back. -/
theorem Node.earlier_perform {s : Service} (hs : ∀ clock, s.Forward clock) (operation : Operation)
    (n : Node) (w : World) : w.Earlier (n.perform s operation w).2.2 :=
  fun clock => n.before_perform (hs clock) operation w

/-! ## Sound fields -/

/-- The wait in progress has not begun in the future. -/
def Timer.Sound (w : World) (timer : Timer) : Prop :=
  ∀ armed, timer.armed = some armed → armed.started ≤ w.now timer.clock

/-- The activation has not begun in the future, and an idle streak began in it, and not in the
future either. -/
structure IdleWatch.Sound (w : World) (watch : IdleWatch) : Prop where
  started : ∀ start, watch.started = some start → start ≤ w.now watch.clock
  streak : ∀ since, watch.idleSince = some since →
    since ≤ w.now watch.clock ∧ ∃ start, watch.started = some start ∧ start ≤ since

/-- What holds of the fields of a leaf. -/
def Leaf.Sound (w : World) : Leaf → Prop
  | sleep timer => timer.Sound w
  | sleepUntil timer _ => timer.Sound w
  | sleepUntilIdle watch _ _ => watch.Sound w
  | _ => True

/-- What holds of the fields of a composite with so many children. -/
def Composite.Sound (count : Nat) : Composite → Prop
  | chain _ _ cursor => cursor = 0 ∨ cursor < count
  | randomSelector _ selected => ∀ position, selected = some position → position < count
  | parallel _ _ => True

/-- What holds of the fields of a decorator. -/
def Decorator.Sound (w : World) : Decorator → Prop
  | repetition limit count =>
    (0 ≤ limit.toInt → 0 ≤ count.toInt ∧ count.toInt < max limit.toInt 1) ∧
      (limit.toInt < 0 → count = 0)
  | retry limit count => 0 < limit.toInt → 0 ≤ count.toInt ∧ count.toInt < limit.toInt
  | cooldown clock _ last => ∀ stamp, last = some stamp → stamp ≤ w.now clock
  | sleepUntilSuccess timer => timer.Sound w
  | _ => True

section

variable {v w : World} (hlater : v.Earlier w)
include hlater

theorem Timer.Sound.mono {timer : Timer} (h : timer.Sound v) : timer.Sound w :=
  fun armed harmed => Nat.le_trans (h armed harmed) (hlater timer.clock)

theorem IdleWatch.Sound.mono {watch : IdleWatch} (h : watch.Sound v) : watch.Sound w where
  started start hstart := Nat.le_trans (h.started start hstart) (hlater watch.clock)
  streak since hsince :=
    ⟨Nat.le_trans (h.streak since hsince).1 (hlater watch.clock), (h.streak since hsince).2⟩

/-- A sound leaf stays sound while time passes. -/
theorem Leaf.Sound.mono {part : Leaf} (h : part.Sound v) : part.Sound w := by
  cases part with
  | sleep timer => exact Timer.Sound.mono hlater h
  | sleepUntil timer test => exact Timer.Sound.mono hlater h
  | sleepUntilIdle watch test bypass => exact IdleWatch.Sound.mono hlater h
  | action name body => trivial
  | condition name test => trivial
  | probe name script hooks => trivial
  | countdown name count remaining => trivial

/-- A sound decorator stays sound while time passes. -/
theorem Decorator.Sound.mono {part : Decorator} (h : part.Sound v) : part.Sound w := by
  cases part with
  | cooldown clock period last =>
    exact fun stamp hstamp => Nat.le_trans (h stamp hstamp) (hlater clock)
  | sleepUntilSuccess timer => exact Timer.Sound.mono hlater h
  | inverter => trivial
  | repetition limit count => exact h
  | retry limit count => exact h
  | successRate source percentage => trivial

end

/-! ## First states -/

/-- A timer that is not armed is sound. -/
theorem Timer.sound_disarm (w : World) (timer : Timer) : timer.disarm.Sound w := by
  intro armed harmed
  cases harmed

theorem IdleWatch.sound_reset (w : World) (watch : IdleWatch) : watch.reset.Sound w := by
  constructor
  · intro start hstart
    cases hstart
  · intro since hsince
    cases hsince

/-- The first state of a leaf is sound. -/
theorem Leaf.sound_reset (w : World) (part : Leaf) : part.reset.Sound w := by
  cases part with
  | sleep timer => exact timer.sound_disarm w
  | sleepUntil timer test => exact timer.sound_disarm w
  | sleepUntilIdle watch test bypass => exact watch.sound_reset w
  | action name body => trivial
  | condition name test => trivial
  | probe name script hooks => trivial
  | countdown name count remaining => trivial

/-- The first state of a composite is sound. -/
theorem Composite.sound_reset (count : Nat) (part : Composite) : part.reset.Sound count := by
  cases part with
  | chain kind name cursor => exact .inl rfl
  | randomSelector source selected =>
    intro position hposition
    cases hposition
  | parallel success failure => trivial

/-- The first state of a decorator is sound. -/
theorem Decorator.sound_reset (w : World) (part : Decorator) : part.reset.Sound w := by
  have hzero : (0 : Int32).toInt = 0 := rfl
  cases part with
  | repetition limit count =>
    refine ⟨fun _ => ?_, fun _ => rfl⟩
    rw [hzero]
    omega
  | retry limit count =>
    intro hlimit
    rw [hzero]
    omega
  | cooldown clock period last =>
    intro stamp hstamp
    cases hstamp
  | sleepUntilSuccess timer => exact timer.sound_disarm w
  | inverter => trivial
  | successRate source percentage => trivial

/-! ## Leaves -/

/-- A poll leaves a sound timer: a wait begins at the reading of the poll. -/
theorem Timer.Sound.poll {v w : World} {timer : Timer} (h : timer.Sound w) (hlater : w.Earlier v) :
    (w.poll timer).2.1.Sound v := by
  unfold World.poll Timer.poll
  cases harmed : timer.armed with
  | some armed => exact h.mono hlater
  | none =>
    intro armed hnew
    cases hnew
    exact hlater timer.clock

section

variable {s : Service} (hs : ∀ clock, s.Forward clock)
include hs

/-- A tick leaves a wait for an idle streak sound.  The streak begins at the reading that the tick
took, which is at or after the beginning of the activation. -/
theorem IdleWatch.sound_tick {watch : IdleWatch} {w : World} (h : watch.Sound w)
    (test : Supplier Bool) (bypass : Option (Supplier Bool)) (name : String) :
    (watch.tick s test bypass name w).state.Sound (watch.tick s test bypass name w).world := by
  have hbypassed : w.Earlier (askBypass s bypass w).2 := by
    cases bypass with
    | none => exact .refl w
    | some bypass => exact bypass.earlier_get hs w
  have hnow := h.mono hbypassed
  unfold IdleWatch.tick
  simp only []
  generalize (askBypass s bypass w).2 = u at hnow
  have htested : u.Earlier (test.get s u).2 := test.earlier_get hs u
  have hstart : watch.started.getD (u.now watch.clock) ≤ u.now watch.clock := by
    cases hstarted : watch.started with
    | none => exact Nat.le_refl _
    | some start => exact hnow.started start hstarted
  have hsince : watch.idleSince.getD (u.now watch.clock) ≤ u.now watch.clock ∧
      watch.started.getD (u.now watch.clock) ≤ watch.idleSince.getD (u.now watch.clock) := by
    cases hidle : watch.idleSince with
    | none => exact ⟨Nat.le_refl _, hstart⟩
    | some since =>
      rcases hnow.streak since hidle with ⟨hle, start, hstarted, hbegan⟩
      rw [hstarted]
      exact ⟨hle, hbegan⟩
  split
  · exact watch.sound_reset _
  · split
    · exact watch.sound_reset _
    · split
      · split
        · exact watch.sound_reset _
        · constructor
          · intro start hstarted
            cases hstarted
            exact Nat.le_trans hstart (htested watch.clock)
          · intro since hidle
            cases hidle
            exact ⟨Nat.le_trans hsince.1 (htested watch.clock), _, rfl, hsince.2⟩
      · constructor
        · intro start hstarted
          cases hstarted
          exact Nat.le_trans hstart (htested watch.clock)
        · intro since hidle
          cases hidle

/-- A tick leaves a leaf sound. -/
theorem Leaf.sound_tick {part : Leaf} {w : World} (h : part.Sound w) :
    (part.tick s w).state.Sound (part.tick s w).world := by
  have hlater : w.Earlier (part.tick s w).world := (Node.leaf part).earlier_perform hs .tick w
  cases part with
  | sleep timer =>
    have hpolled := Timer.Sound.poll h hlater
    rcases hpoll : w.poll timer with ⟨expired, polled, after⟩
    simp only [Leaf.tick, hpoll] at hpolled ⊢
    cases expired with
    | true => exact polled.sound_disarm _
    | false => exact hpolled
  | sleepUntil timer test =>
    have hpolled := Timer.Sound.poll h hlater
    simp only [Leaf.tick] at hpolled ⊢
    split
    · exact Timer.sound_disarm _ _
    · split
      · exact Timer.sound_disarm _ _
      next htested hexpired =>
        rw [if_neg htested, if_neg hexpired] at hpolled
        exact hpolled
  | sleepUntilIdle watch test bypass => exact IdleWatch.sound_tick hs h test bypass _
  | action name body =>
    simp only [Leaf.tick]
    split <;> trivial
  | condition name test =>
    simp only [Leaf.tick]
    split <;> trivial
  | probe name script hooks => trivial
  | countdown name count remaining => cases remaining <;> trivial

end

/-! ## Composites -/

section

variable {κ : Type}

/-- A pass that does not complete stops at a child. -/
theorem Chain.position_pass_lt {kind : Chain} {name : String} {position : Nat}
    {children : List (Offer κ)} {w : World}
    (h : (kind.pass name position children w).status.isCompleted = false) :
    (kind.pass name position children w).position < position + children.length := by
  induction children generalizing position w with
  | nil => cases kind <;> cases h
  | cons child rest ih =>
    unfold pass at h ⊢
    simp only [List.length_cons] at h ⊢
    split
    next hpasses =>
      rw [if_pos hpasses] at h
      have hrest := ih h
      simp only []
      omega
    next =>
      simp only []
      omega

/-- Ending an activation leaves a composite sound if it was about to be. -/
theorem Composite.sound_settle {reset : κ → World → κ × World} {part : Composite}
    {t : Ticked (List κ)} {count : Nat}
    (h : t.status.isCompleted = false → part.Sound count) :
    (settle reset part t).state.1.Sound count := by
  unfold settle
  split
  · exact part.sound_reset count
  next hpending => exact h (Bool.not_eq_true _ ▸ hpending)

/-- The choice of a random selector is one of its children. -/
theorem choose_lt {source : SourceId} {selected : Option Nat} {count : Nat} {w : World}
    (hselected : ∀ position, selected = some position → position < count) (hcount : 0 < count) :
    (choose source selected count w).1 < count := by
  cases selected with
  | some position => exact hselected position rfl
  | none => exact Source.index_lt hcount _

/-- A tick leaves a composite sound. -/
theorem Composite.sound_tick (reset : κ → World → κ × World) {part : Composite}
    {children : List (Offer κ)} (h : part.Sound children.length) (w : World) :
    (part.tick reset children w).state.1.Sound children.length := by
  cases part with
  | chain kind name cursor =>
    simp only [tick]
    apply sound_settle
    intro hpending
    have hposition := Chain.position_pass_lt hpending
    have hcursor : cursor ≤ children.length := by
      rcases h with hzero | hless <;> omega
    rw [List.length_drop] at hposition
    refine .inr ?_
    omega
  | randomSelector source selected =>
    simp only [tick]
    split
    · exact h
    next hempty =>
      apply sound_settle
      rintro - position hposition
      cases hposition
      refine choose_lt h ?_
      rw [List.isEmpty_iff] at hempty
      exact List.length_pos_iff.2 hempty
  | parallel success failure =>
    simp only [tick]
    exact sound_settle fun _ => trivial

/-! ## Decorators -/

/-- A bounded repetition counts below its limit, or it has not counted yet. -/
theorem Decorator.isBounded_of_sound {limit count : Int32} {w : World}
    (h : (repetition limit count).Sound w) (hlimit : 0 ≤ limit.toInt) :
    (repetition limit count).IsBounded := by
  have hzero : (0 : Int32).toInt = 0 := rfl
  rcases h.1 hlimit with ⟨hcount, hless⟩
  simp only [IsBounded, Int32.le_iff_toInt_le, Int32.lt_iff_toInt_lt, ← Int32.toInt_inj, hzero]
  omega

/-- A tick leaves a repetition sound: a count that reaches the limit is taken back at once. -/
theorem Decorator.sound_tickRepetition (reset : κ → World → κ × World) {limit count : Int32}
    {w : World} (h : (repetition limit count).Sound w) (o : Offer κ) (u : World) :
    (tickRepetition reset limit count o u).state.1.Sound w := by
  have hzero : (0 : Int32).toInt = 0 := rfl
  unfold tickRepetition
  simp only []
  split
  · exact h
  next hlimit =>
    rw [Int32.not_lt, Int32.le_iff_toInt_le, hzero] at hlimit
    split
    · split
      · exact sound_reset w (repetition limit count)
      next hmore =>
        have hnext := (isBounded_of_sound h hlimit).repetition hmore
        rcases hnext.1 with ⟨-, hcount, hless⟩
        simp only [Int32.le_iff_toInt_le, Int32.lt_iff_toInt_lt, ← Int32.toInt_inj, hzero]
          at hcount hless
        refine ⟨fun _ => ?_, fun hnegative => ?_⟩ <;> omega
    · exact sound_reset w (repetition limit count)
    · exact h

/-- A tick leaves a retry sound. -/
theorem Decorator.sound_tickRetry (reset : κ → World → κ × World) {limit count : Int32}
    {w : World} (h : (retry limit count).Sound w) (o : Offer κ) (u : World) :
    (tickRetry reset limit count o u).state.1.Sound w := by
  have hzero : (0 : Int32).toInt = 0 := rfl
  unfold tickRetry
  simp only []
  split
  · exact sound_reset w (retry limit count)
  · split
    · exact sound_reset w (retry limit count)
    next hmore =>
      intro hlimit
      rcases h hlimit with ⟨hcount, hless⟩
      have hbounded : (retry limit count).IsBounded := by
        simp only [IsBounded, Int32.le_iff_toInt_le, Int32.lt_iff_toInt_lt, hzero]
        omega
      rcases (hbounded.retry hmore).1 with ⟨hcounted, hstill⟩
      simp only [Int32.le_iff_toInt_le, Int32.lt_iff_toInt_lt, hzero] at hcounted hstill
      exact ⟨hcounted, hstill⟩
  · exact h

/-- A tick leaves a decorator sound. -/
theorem Decorator.sound_tick {s : Service} {reset : κ → World → κ × World} {name : κ → String}
    {part : Decorator} {child : Option (Offer κ)} {w : World} (h : part.Sound w)
    (hlater : w.Earlier (part.tick s reset name child w).world) :
    (part.tick s reset name child w).state.1.Sound (part.tick s reset name child w).world := by
  cases child with
  | none => exact h
  | some o =>
    cases part with
    | inverter => trivial
    | repetition limit count => exact sound_tickRepetition reset (h.mono hlater) o w
    | retry limit count => exact sound_tickRetry reset (h.mono hlater) o w
    | cooldown clock period last =>
      have hstamp := h.mono hlater
      simp only [tick, tickCooldown] at hstamp ⊢
      split
      next left hleft =>
        rw [hleft] at hstamp
        exact hstamp
      next hopen =>
        rw [hopen] at hstamp
        intro stamp hnew
        split at hnew
        · cases hnew
          exact Nat.le_refl _
        · exact hstamp stamp hnew
    | successRate source percentage =>
      simp only [tick, tickSuccessRate]
      split <;> trivial
    | sleepUntilSuccess timer =>
      have hpolled := Timer.Sound.poll h hlater
      simp only [tick, tickSleepUntilSuccess] at hpolled ⊢
      split
      · exact Timer.sound_disarm _ _
      next hfailed =>
        rw [if_neg hfailed] at hpolled
        split
        · exact Timer.sound_disarm _ _
        next hwaiting =>
          rw [if_neg hwaiting] at hpolled
          exact hpolled

end

end TickTree
