import TickTree.Proofs.Coupling.Parent

/-!
# Mirrored parents

A selector does after a failure what a sequence does after a success, and a retry counts failures as
a repetition counts successes.  So when the children of the one give exchanged statuses, compared
with the children of the other, the parents give exchanged statuses as well, stand at the same child
or at the same count, and reset their children at the same time.  The parents differ in their log
records only; the relation of the two worlds must not see these.

Main results:

- Theorem `Chain.tick_mirrored`: a sequence and a selector over mirrored children are mirrored.
- Theorem `Chain.tickRounds_mirrored`: so are a repetition and a retry with the same positive limit.
-/

namespace TickTree

/-- A relation of worlds that no log record disturbs, on either side. -/
structure World.Deaf (R : World → World → Prop) : Prop where
  left : ∀ {v w : World} (level : Level) (message : String), R v w → R (v.report level message) w
  right : ∀ {v w : World} (level : Level) (message : String), R v w → R v (w.report level message)

/-- Two ticks gave exchanged statuses, related states and related worlds. -/
structure Ticked.Mirrored {κ μ : Type} (S : κ → μ → Prop) (R : World → World → Prop)
    (t : Ticked κ) (u : Ticked μ) : Prop where
  status : t.status = u.status.invert
  state : S t.state u.state
  world : R t.world u.world

/-- Two children as their parents see them: related states, and ticks that are mirrored in related
worlds. -/
structure Offer.Mirrored {κ μ : Type} (S : κ → μ → Prop) (R : World → World → Prop)
    (o : Offer κ) (p : Offer μ) : Prop where
  state : S o.state p.state
  tick : ∀ {v w : World}, R v w → Ticked.Mirrored S R (o.tick v) (p.tick w)

section

variable {κ μ : Type} {S : κ → μ → Prop} {R : World → World → Prop}

/-! ## The other way round -/

theorem World.Deaf.flip (h : World.Deaf R) : World.Deaf (flip R) :=
  ⟨fun level message hw => h.right level message hw, fun level message hw =>
    h.left level message hw⟩

/-- What is mirrored is so in both directions. -/
theorem Ticked.Mirrored.flip {t : Ticked κ} {u : Ticked μ} (h : Ticked.Mirrored S R t u) :
    Ticked.Mirrored (flip S) (flip R) u t :=
  ⟨by rw [h.status, Status.invert_invert], h.state, h.world⟩

theorem Offer.Mirrored.flip {o : Offer κ} {p : Offer μ} (h : Offer.Mirrored S R o p) :
    Offer.Mirrored (flip S) (flip R) p o :=
  ⟨h.state, fun hw => (h.tick hw).flip⟩

variable {reset : κ → World → κ × World} {reset' : μ → World → μ × World} {v w : World}

theorem ResetsAlike.flip (h : ResetsAlike S R reset reset') :
    ResetsAlike (flip S) (flip R) reset' reset :=
  fun hk hw => h hk hw

/-- The states of mirrored children are related. -/
theorem forall₂_states_of_mirrored {os : List (Offer κ)} {ps : List (Offer μ)}
    (h : List.Forall₂ (Offer.Mirrored S R) os ps) :
    List.Forall₂ S (os.map Offer.state) (ps.map Offer.state) := by
  induction h with
  | nil => exact .nil
  | cons hchild _ ih => exact .cons hchild.state ih

/-! ## Sequences and selectors -/

/-- Exchanged statuses pass on exchanged chains. -/
theorem Chain.eq_passes_dual (kind : Chain) (status : Status) :
    status.invert = kind.dual.passes ↔ status = kind.passes := by
  cases kind <;> cases status <;> simp [dual, passes, Status.invert]

/-- A pass and the pass of the other kind go equally far over mirrored children. -/
theorem Chain.pass_mirrored (hR : World.Deaf R) (kind : Chain) (name former : String)
    (position : Nat) {os : List (Offer κ)} {ps : List (Offer μ)}
    (h : List.Forall₂ (Offer.Mirrored S R) os ps) (hw : R v w) :
    let first := kind.dual.pass name position os v
    let second := kind.pass former position ps w
    first.status = second.status.invert ∧ first.position = second.position ∧
      List.Forall₂ S first.states second.states ∧ R first.world second.world := by
  induction h generalizing position v w with
  | nil => exact ⟨kind.passes_dual, rfl, .nil, hw⟩
  | @cons o p _ _ hchild hrest ih =>
    have htick := hchild.tick hw
    have hpasses : (o.tick v).status = kind.dual.passes ↔ (p.tick w).status = kind.passes := by
      rw [htick.status]
      exact kind.eq_passes_dual _
    simp only [Chain.pass]
    by_cases hgoes : (p.tick w).status = kind.passes
    · rw [if_pos hgoes, if_pos (hpasses.2 hgoes)]
      have hlogged := hR.left .trace s!"{name} {kind.dual.progress} {position + 1}"
        (hR.right .trace s!"{former} {kind.progress} {position + 1}" htick.world)
      rcases ih (position + 1) hlogged with ⟨hstatus, hposition, hstates, hworld⟩
      exact ⟨hstatus, hposition, .cons htick.state hstates, hworld⟩
    · rw [if_neg hgoes, if_neg fun h => hgoes (hpasses.1 h)]
      exact ⟨htick.status, rfl, .cons htick.state (forall₂_states_of_mirrored hrest), htick.world⟩

/-- A composite of the other kind that stands at the same child, with related children. -/
def Chain.Opposite (kind : Chain) (name former : String) (S : κ → μ → Prop)
    (x : Composite × List κ) (y : Composite × List μ) : Prop :=
  ∃ cursor, x.1 = .chain kind.dual name cursor ∧ y.1 = .chain kind former cursor ∧
    List.Forall₂ S x.2 y.2

/-- A sequence and a selector over mirrored children are mirrored. -/
theorem Chain.tick_mirrored (hR : World.Deaf R) (hreset : ResetsAlike S R reset reset')
    (kind : Chain) (name former : String) (cursor : Nat) {os : List (Offer κ)}
    {ps : List (Offer μ)} (h : List.Forall₂ (Offer.Mirrored S R) os ps) (hw : R v w) :
    Ticked.Mirrored (kind.Opposite name former S) R
      ((Composite.chain kind.dual name cursor).tick reset os v)
      ((Composite.chain kind former cursor).tick reset' ps w) := by
  have hpass := kind.pass_mirrored hR name former cursor (List.forall₂_drop cursor h) hw
  rcases hpass with ⟨hstatus, hposition, hstates, hworld⟩
  have hbefore := forall₂_states_of_mirrored (List.forall₂_take cursor h)
  have hall := List.rel_append hbefore hstates
  simp only [Composite.tick, Composite.settle, hstatus, hposition, Status.isCompleted_invert]
  split
  · have hafter := resetAll_coupled hreset hall hworld
    exact ⟨rfl, ⟨0, rfl, rfl, hafter.1⟩, hafter.2⟩
  · exact ⟨rfl, ⟨_, rfl, rfl, hall⟩, hworld⟩

/-! ## Repetitions and retries -/

/-- The decorator that repeats a child as a chain goes through its children: it goes on after the
status that passes, and the other completed status ends it. -/
def Chain.rounds : Chain → (limit count : Int32) → Decorator
  | sequence, limit, count => .repetition limit count
  | selector, limit, count => .retry limit count

/-- One tick of such a decorator. -/
def Chain.tickRounds (reset : κ → World → κ × World) (kind : Chain) (limit count : Int32)
    (child : Offer κ) (w : World) : Ticked (Decorator × Option κ) :=
  match kind with
  | sequence => Decorator.tickRepetition reset limit count child w
  | selector => Decorator.tickRetry reset limit count child w

/-- A repetition or a retry gives the same status around related children. -/
theorem Chain.tickRounds_coupled (hR : World.Coupling R) (hreset : ResetsAlike S R reset reset')
    (kind : Chain) (limit count : Int32) {o : Offer κ} {p : Offer μ} (h : Offer.Coupled S R o p)
    (hw : R v w) :
    Ticked.Coupled (DecoratorsAlike S) R (kind.tickRounds reset limit count o v)
      (kind.tickRounds reset' limit count p w) := by
  cases kind with
  | sequence => exact Decorator.tickRepetition_coupled hreset limit count h hw
  | selector => exact Decorator.tickRetry_coupled hR.toTracking hreset limit count h hw

/-- A decorator of the other kind with the same count, and related children. -/
def Chain.OppositeRounds (kind : Chain) (limit : Int32) (S : κ → μ → Prop)
    (x : Decorator × Option κ) (y : Decorator × Option μ) : Prop :=
  ∃ count k m, x = (kind.dual.rounds limit count, some k) ∧ y = (kind.rounds limit count, some m) ∧
    S k m

/-- A retry is the mirror of a repetition with the same positive limit. -/
theorem Decorator.tickRetry_mirrored (hR : World.Deaf R) (hreset : ResetsAlike S R reset reset')
    {limit : Int32} (hlimit : 0 < limit) (count : Int32) {o : Offer κ} {p : Offer μ}
    (h : Offer.Mirrored S R o p) (hw : R v w) :
    Ticked.Mirrored (Chain.sequence.OppositeRounds limit S) R (tickRetry reset limit count o v)
      (tickRepetition reset' limit count p w) := by
  have htick := h.tick hw
  have hbounded : ¬ limit < 0 := Int32.not_lt.2 (Int32.le_of_lt hlimit)
  have hcleared := hreset htick.state htick.world
  unfold tickRetry tickRepetition
  simp only [htick.status, if_neg hbounded, hlimit, true_and]
  cases (p.tick w).status with
  | success =>
    -- A success of the repetition is a failure of the retry: both count it.
    simp only [Status.invert]
    by_cases hlast : limit ≤ count + 1
    · rw [if_pos hlast, if_pos hlast]
      have hlogged := hreset htick.state (hR.left .debug
        s!"Retry gave up after {(count + 1).toInt} attempts" htick.world)
      exact ⟨rfl, ⟨0, _, _, rfl, rfl, hlogged.1⟩, hlogged.2⟩
    · rw [if_neg hlast, if_neg hlast]
      exact ⟨rfl, ⟨count + 1, _, _, rfl, rfl, hcleared.1⟩, hcleared.2⟩
  | failure => exact ⟨rfl, ⟨0, _, _, rfl, rfl, hcleared.1⟩, hcleared.2⟩
  | running => exact ⟨rfl, ⟨count, _, _, rfl, rfl, htick.state⟩, htick.world⟩
  | sleeping => exact ⟨rfl, ⟨count, _, _, rfl, rfl, htick.state⟩, htick.world⟩

/-- A repetition and a retry with the same positive limit around mirrored children are mirrored. -/
theorem Chain.tickRounds_mirrored (hR : World.Deaf R) (hreset : ResetsAlike S R reset reset')
    (kind : Chain) {limit : Int32} (hlimit : 0 < limit) (count : Int32) {o : Offer κ}
    {p : Offer μ} (h : Offer.Mirrored S R o p) (hw : R v w) :
    Ticked.Mirrored (kind.OppositeRounds limit S) R
      (kind.dual.tickRounds reset limit count o v) (kind.tickRounds reset' limit count p w) := by
  cases kind with
  | sequence => exact Decorator.tickRetry_mirrored hR hreset hlimit count h hw
  | selector =>
    -- The same with the sides exchanged.
    have hretry := Decorator.tickRetry_mirrored hR.flip hreset.flip hlimit count h.flip hw
    rcases hretry.flip with ⟨hstatus, ⟨count, m, k, hy, hx, hstate⟩, hworld⟩
    exact ⟨hstatus, ⟨count, k, m, hx, hy, hstate⟩, hworld⟩

end

end TickTree
