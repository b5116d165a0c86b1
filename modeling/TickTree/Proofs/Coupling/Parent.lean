import Mathlib.Data.List.Forall2
import TickTree.Node.Composite.Tick
import TickTree.Node.Decorator.Tick
import TickTree.Proofs.Coupling

/-!
# Coupled parents

The work of a composite or a decorator does not depend on what its children are.  When two lists of
children are related one by one, and ticks and resets of related children keep the relation, then
so does a tick of their parents, and the parents give the same status.

The children of the two sides may be of different types.  So a parent can be compared with the same
parent over children that keep a record of what is done to them.

Main results:

- Theorems `Composite.tick_alike` and `Composite.tick_coupled`: a composite gives the same status
  over related children.
- Theorems `Decorator.tick_alike` and `Decorator.tick_coupled`: a decorator gives the same status
  around related children.
-/

namespace TickTree

/-- Two children as their parents see them: related states, and ticks that are coupled in related
worlds. -/
structure Offer.Coupled {κ μ : Type} (S : κ → μ → Prop) (R : World → World → Prop)
    (o : Offer κ) (p : Offer μ) : Prop where
  state : S o.state p.state
  tick : ∀ {v w : World}, R v w → Ticked.Coupled S R (o.tick v) (p.tick w)

/-- Resets of related children in related worlds leave related children and worlds. -/
def ResetsAlike {κ μ : Type} (S : κ → μ → Prop) (R : World → World → Prop)
    (reset : κ → World → κ × World) (reset' : μ → World → μ × World) : Prop :=
  ∀ {k : κ} {m : μ} {v w : World}, S k m → R v w →
    S (reset k v).1 (reset' m w).1 ∧ R (reset k v).2 (reset' m w).2

section

variable {κ μ : Type} {S : κ → μ → Prop} {R : World → World → Prop}
  {reset : κ → World → κ × World} {reset' : μ → World → μ × World} {v w : World}

/-- The states of related children are related. -/
theorem forall₂_states {os : List (Offer κ)} {ps : List (Offer μ)}
    (h : List.Forall₂ (Offer.Coupled S R) os ps) :
    List.Forall₂ S (os.map Offer.state) (ps.map Offer.state) := by
  induction h with
  | nil => exact .nil
  | cons hchild _ ih => exact .cons hchild.state ih

/-- Resetting children one by one leaves related children if it does so for each of them. -/
theorem resetAll_forall₂ {ks : List κ} {ms : List μ}
    (h : List.Forall₂ (fun k m => ∀ {v w : World}, R v w →
      S (reset k v).1 (reset' m w).1 ∧ R (reset k v).2 (reset' m w).2) ks ms) (hw : R v w) :
    List.Forall₂ S (resetAll reset ks v).1 (resetAll reset' ms w).1 ∧
      R (resetAll reset ks v).2 (resetAll reset' ms w).2 := by
  induction h generalizing v w with
  | nil => exact ⟨.nil, hw⟩
  | cons hchild _ ih =>
    rcases hchild hw with ⟨hstate, hafter⟩
    rcases ih hafter with ⟨hstates, hlast⟩
    exact ⟨.cons hstate hstates, hlast⟩

/-- Resetting related children one by one leaves related children. -/
theorem resetAll_coupled (hreset : ResetsAlike S R reset reset') {ks : List κ} {ms : List μ}
    (h : List.Forall₂ S ks ms) (hw : R v w) :
    List.Forall₂ S (resetAll reset ks v).1 (resetAll reset' ms w).1 ∧
      R (resetAll reset ks v).2 (resetAll reset' ms w).2 :=
  resetAll_forall₂ (h.imp fun _ _ hk _ _ hw => hreset hk hw) hw

/-! ## Composites -/

/-- A pass goes equally far over related children. -/
theorem Chain.pass_coupled (hR : World.Tracking R) (kind : Chain) (name : String)
    (position : Nat) {os : List (Offer κ)} {ps : List (Offer μ)}
    (h : List.Forall₂ (Offer.Coupled S R) os ps) (hw : R v w) :
    let first := kind.pass name position os v
    let second := kind.pass name position ps w
    first.status = second.status ∧ first.position = second.position ∧
      List.Forall₂ S first.states second.states ∧ R first.world second.world := by
  induction h generalizing position v w with
  | nil => exact ⟨rfl, rfl, .nil, hw⟩
  | cons hchild hrest ih =>
    have htick := hchild.tick hw
    simp only [Chain.pass, htick.status]
    split
    · have hlogged :=
        hR.report .trace s!"{name} {kind.progress} {position + 1}" htick.world
      rcases ih (position + 1) hlogged with ⟨hstatus, hposition, hstates, hworld⟩
      exact ⟨hstatus, hposition, .cons htick.state hstates, hworld⟩
    · exact ⟨rfl, rfl, .cons htick.state (forall₂_states hrest), htick.world⟩

/-- Ticking all of related children gives the same statuses. -/
theorem tickAll_coupled {os : List (Offer κ)} {ps : List (Offer μ)}
    (h : List.Forall₂ (Offer.Coupled S R) os ps) (hw : R v w) :
    (tickAll os v).1.map Prod.fst = (tickAll ps w).1.map Prod.fst ∧
      List.Forall₂ S ((tickAll os v).1.map Prod.snd) ((tickAll ps w).1.map Prod.snd) ∧
      R (tickAll os v).2 (tickAll ps w).2 := by
  induction h generalizing v w with
  | nil => exact ⟨rfl, .nil, hw⟩
  | cons hchild _ ih =>
    have htick := hchild.tick hw
    rcases ih htick.world with ⟨hstatuses, hstates, hworld⟩
    constructor
    · simp only [tickAll, List.map_cons, htick.status, hstatuses]
    · exact ⟨.cons htick.state hstates, hworld⟩

/-- Ticking one of related children gives the same status. -/
theorem tickAt_coupled (position : Nat) {os : List (Offer κ)} {ps : List (Offer μ)}
    (h : List.Forall₂ (Offer.Coupled S R) os ps) (hw : R v w) :
    Ticked.Coupled (List.Forall₂ S) R (tickAt position os v) (tickAt position ps w) := by
  induction h generalizing position with
  | nil => cases position <;> exact ⟨rfl, .nil, hw⟩
  | cons hchild hrest ih =>
    cases position with
    | zero => exact (hchild.tick hw).map fun hstate => .cons hstate (forall₂_states hrest)
    | succ position => exact (ih position).map fun hstates => .cons hchild.state hstates

/-- The selection of an activation is the same on both sides. -/
theorem choose_coupled {source : SourceId} (hdraw : World.DrawsAlike R source)
    (selected : Option Nat) (bound : Nat) (hw : R v w) :
    Coupled R (choose source selected bound v) (choose source selected bound w) := by
  cases selected with
  | some position => exact ⟨rfl, hw⟩
  | none => exact hdraw (.index bound) (Source.index bound) hw

/-- The relation of composites with related children. -/
def CompositesAlike (S : κ → μ → Prop) (x : Composite × List κ) (y : Composite × List μ) : Prop :=
  x.1 = y.1 ∧ List.Forall₂ S x.2 y.2

/-- Composites end an activation alike. -/
theorem Composite.settle_coupled (hreset : ResetsAlike S R reset reset') (part : Composite)
    {t : Ticked (List κ)} {u : Ticked (List μ)} (h : Ticked.Coupled (List.Forall₂ S) R t u) :
    Ticked.Coupled (CompositesAlike S) R (settle reset part t) (settle reset' part u) := by
  unfold settle
  rw [h.status]
  split
  · have hreset := resetAll_coupled hreset h.state h.world
    rcases hreset with ⟨hstates, hworld⟩
    exact ⟨rfl, ⟨rfl, hstates⟩, hworld⟩
  · exact ⟨rfl, ⟨rfl, h.state⟩, h.world⟩

/-- A composite gives the same status over related children when it draws alike. -/
theorem Composite.tick_alike (hR : World.Tracking R) (hreset : ResetsAlike S R reset reset')
    {part : Composite} (hdraws : ∀ source ∈ part.source?, World.DrawsAlike R source)
    {os : List (Offer κ)} {ps : List (Offer μ)} (h : List.Forall₂ (Offer.Coupled S R) os ps)
    (hw : R v w) :
    Ticked.Coupled (CompositesAlike S) R (part.tick reset os v) (part.tick reset' ps w) := by
  cases part with
  | chain kind name cursor =>
    have hpass := kind.pass_coupled hR name cursor (List.forall₂_drop cursor h) hw
    rcases hpass with ⟨hstatus, hposition, hstates, hworld⟩
    have hbefore := forall₂_states (List.forall₂_take cursor h)
    simp only [Composite.tick, hposition]
    exact settle_coupled hreset _ ⟨hstatus, List.rel_append hbefore hstates, hworld⟩
  | randomSelector source selected =>
    have hempty : os.isEmpty = ps.isEmpty := by
      cases h with
      | nil => rfl
      | cons hchild hrest => rfl
    have hchoice := choose_coupled (hdraws _ rfl) selected ps.length hw
    rcases hchoice with ⟨hposition, hchosen⟩
    unfold Composite.tick
    simp only [hempty, h.length_eq, hposition]
    split
    · exact ⟨rfl, ⟨rfl, .nil⟩, hw⟩
    · exact settle_coupled hreset _ (tickAt_coupled _ h hchosen)
  | parallel success failure =>
    have hticked := tickAll_coupled h hw
    rcases hticked with ⟨hstatuses, hstates, hworld⟩
    simp only [Composite.tick, hstatuses]
    exact settle_coupled hreset _ ⟨rfl, hstates, hworld⟩

/-- A composite gives the same status over related children. -/
theorem Composite.tick_coupled (hR : World.Sharing R) (hreset : ResetsAlike S R reset reset')
    (part : Composite) {os : List (Offer κ)} {ps : List (Offer μ)}
    (h : List.Forall₂ (Offer.Coupled S R) os ps) (hw : R v w) :
    Ticked.Coupled (CompositesAlike S) R (part.tick reset os v) (part.tick reset' ps w) :=
  part.tick_alike hR.toTracking hreset (fun source _ => hR.drawsAlike source) h hw

/-! ## Decorators -/

/-- The relation of decorators with related children. -/
def DecoratorsAlike (S : κ → μ → Prop) (x : Decorator × Option κ) (y : Decorator × Option μ) :
    Prop :=
  x.1 = y.1 ∧ Option.Rel S x.2 y.2

/-- Decorators restart their children alike; the decorator that is left is the same. -/
theorem Decorator.restart_coupled (hreset : ResetsAlike S R reset reset') (left : Decorator)
    (status : Status) {t : Ticked κ} {u : Ticked μ} (hstate : S t.state u.state)
    (hworld : R v w) :
    Ticked.Coupled (DecoratorsAlike S) R
      ⟨status, (left, some (reset t.state v).1), (reset t.state v).2⟩
      ⟨status, (left, some (reset' u.state w).1), (reset' u.state w).2⟩ := by
  rcases hreset hstate hworld with ⟨hcleared, hafter⟩
  exact ⟨rfl, ⟨rfl, .some hcleared⟩, hafter⟩

/-- Decorators keep their children alike. -/
theorem Decorator.keep_coupled (part : Decorator) (status : Status) {t : Ticked κ} {u : Ticked μ}
    (h : Ticked.Coupled S R t u) :
    Ticked.Coupled (DecoratorsAlike S) R (keep part status t) (keep part status u) :=
  ⟨rfl, ⟨rfl, .some h.state⟩, h.world⟩

/-- A repetition gives the same status around related children. -/
theorem Decorator.tickRepetition_coupled (hreset : ResetsAlike S R reset reset')
    (limit count : Int32) {o : Offer κ} {p : Offer μ} (h : Offer.Coupled S R o p) (hw : R v w) :
    Ticked.Coupled (DecoratorsAlike S) R (tickRepetition reset limit count o v)
      (tickRepetition reset' limit count p w) := by
  have htick := h.tick hw
  unfold tickRepetition
  simp only [htick.status]
  split
  · exact keep_coupled _ _ htick
  · split
    · split
      · exact restart_coupled hreset _ _ htick.state htick.world
      · exact restart_coupled hreset _ _ htick.state htick.world
    · exact restart_coupled hreset _ _ htick.state htick.world
    · exact keep_coupled _ _ htick

/-- A retry gives the same status around related children. -/
theorem Decorator.tickRetry_coupled (hR : World.Tracking R)
    (hreset : ResetsAlike S R reset reset') (limit count : Int32) {o : Offer κ} {p : Offer μ}
    (h : Offer.Coupled S R o p) (hw : R v w) :
    Ticked.Coupled (DecoratorsAlike S) R (tickRetry reset limit count o v)
      (tickRetry reset' limit count p w) := by
  have htick := h.tick hw
  unfold tickRetry
  simp only [htick.status]
  split
  · exact restart_coupled hreset _ _ htick.state htick.world
  · split
    · exact restart_coupled hreset _ _ htick.state (hR.report .debug _ htick.world)
    · exact restart_coupled hreset _ _ htick.state htick.world
  · exact keep_coupled _ _ htick

/-- A cooldown gives the same status around related children. -/
theorem Decorator.tickCooldown_coupled {s t : Service} (hR : World.Tracking R)
    {name : κ → String} {name' : μ → String} (hname : ∀ k m, S k m → name k = name' m)
    (clock : ClockId) {period : Supplier Duration} (hperiod : period.Every (Callback.Alike R s t))
    (last : Option Duration) {o : Offer κ} {p : Offer μ} (h : Offer.Coupled S R o p)
    (hw : R v w) :
    Ticked.Coupled (DecoratorsAlike S) R (tickCooldown s name clock period last o v)
      (tickCooldown t name' clock period last p w) := by
  have hasked := Supplier.get_alike hR hperiod hw
  rcases hasked with ⟨hvalue, hsupplied⟩
  unfold tickCooldown
  simp only [hvalue, hR.now clock hsupplied, hname _ _ h.state]
  split
  · exact ⟨rfl, ⟨rfl, .some h.state⟩, hR.report _ _ hsupplied⟩
  · have htick := h.tick hsupplied
    simp only [htick.status, hR.now clock htick.world]
    exact keep_coupled _ _ htick

/-- A success rate gives the same status around related children. -/
theorem Decorator.tickSuccessRate_coupled {s t : Service} (hR : World.Tracking R)
    {name : κ → String} {name' : μ → String} (hname : ∀ k m, S k m → name k = name' m)
    {source : SourceId} (hdraw : World.DrawsAlike R source) {percentage : Supplier Float32}
    (hpercentage : percentage.Every (Callback.Alike R s t)) {o : Offer κ} {p : Offer μ}
    (h : Offer.Coupled S R o p) (hw : R v w) :
    Ticked.Coupled (DecoratorsAlike S) R (tickSuccessRate s name source percentage o v)
      (tickSuccessRate t name' source percentage p w) := by
  have hasked := Supplier.get_alike hR hpercentage hw
  rcases hasked with ⟨hrate, hsupplied⟩
  have hfraction : Coupled R ((percentage.get s v).2.unit source)
      ((percentage.get t w).2.unit source) := hdraw .unit Source.unit hsupplied
  rcases hfraction with ⟨hfraction, hdrawn⟩
  have htick := h.tick hdrawn
  unfold tickSuccessRate
  simp only [hrate, hfraction, hname _ _ h.state, htick.status]
  by_cases hskips : chance (percentage.get t w).1 ≤
      Source.unitValue ((percentage.get t w).2.unit source).1
  · rw [if_pos hskips, if_pos hskips]
    exact ⟨rfl, ⟨rfl, .some h.state⟩, hR.report _ _ hdrawn⟩
  · rw [if_neg hskips, if_neg hskips]
    exact keep_coupled _ _ htick

/-- Failed children are reset alike. -/
theorem Decorator.resetFailed_coupled (hreset : ResetsAlike S R reset reset') {t : Ticked κ}
    {u : Ticked μ} (h : Ticked.Coupled S R t u) :
    Ticked.Coupled S R (resetFailed reset t) (resetFailed reset' u) := by
  unfold resetFailed
  rw [h.status]
  split
  · rcases hreset h.state h.world with ⟨hcleared, hafter⟩
    exact ⟨rfl, hcleared, hafter⟩
  · exact h

/-- A wait for success gives the same status around related children. -/
theorem Decorator.tickSleepUntilSuccess_coupled (hR : World.Tracking R)
    (hreset : ResetsAlike S R reset reset') {timer : Timer}
    (hdraw : World.DrawsAlike R timer.source) {o : Offer κ} {p : Offer μ}
    (h : Offer.Coupled S R o p) (hw : R v w) :
    Ticked.Coupled (DecoratorsAlike S) R (tickSleepUntilSuccess reset timer o v)
      (tickSleepUntilSuccess reset' timer p w) := by
  rcases hR.poll hdraw hw with ⟨hexpired, htimer, hpolled⟩
  have htick := h.tick hpolled
  have hkept := resetFailed_coupled hreset htick
  unfold tickSleepUntilSuccess
  simp only [hexpired, htimer, htick.status, hkept.status]
  split
  · exact restart_coupled hreset _ _ htick.state htick.world
  · split
    · exact restart_coupled hreset _ _ hkept.state (hR.report .debug _ hkept.world)
    · exact keep_coupled _ _ hkept

/-- A decorator gives the same status around related children when it draws alike and its callbacks
answer alike. -/
theorem Decorator.tick_alike {s t : Service} (hR : World.Tracking R)
    (hreset : ResetsAlike S R reset reset') {name : κ → String} {name' : μ → String}
    (hname : ∀ k m, S k m → name k = name' m) {part : Decorator}
    (hdraws : ∀ source ∈ part.source?, World.DrawsAlike R source)
    (hpart : part.Every (Callback.Alike R s t)) {os : Option (Offer κ)} {ps : Option (Offer μ)}
    (h : Option.Rel (Offer.Coupled S R) os ps) (hw : R v w) :
    Ticked.Coupled (DecoratorsAlike S) R (part.tick s reset name os v)
      (part.tick t reset' name' ps w) := by
  cases h with
  | none => exact ⟨rfl, ⟨rfl, .none⟩, hw⟩
  | some hchild =>
    cases part with
    | inverter =>
      have htick := hchild.tick hw
      simp only [Decorator.tick, htick.status]
      exact keep_coupled _ _ htick
    | repetition limit count => exact tickRepetition_coupled hreset limit count hchild hw
    | retry limit count => exact tickRetry_coupled hR hreset limit count hchild hw
    | cooldown clock period last => exact tickCooldown_coupled hR hname clock hpart last hchild hw
    | successRate source percentage =>
      exact tickSuccessRate_coupled hR hname (hdraws _ rfl) hpart hchild hw
    | sleepUntilSuccess timer =>
      exact tickSleepUntilSuccess_coupled hR hreset (hdraws _ rfl) hchild hw

/-- A decorator gives the same status around related children in coupled worlds. -/
theorem Decorator.tick_coupled {s t : Service} (hR : World.Coupling R) (hs : Service.Alike R s t)
    (hreset : ResetsAlike S R reset reset') {name : κ → String} {name' : μ → String}
    (hname : ∀ k m, S k m → name k = name' m) (part : Decorator) {os : Option (Offer κ)}
    {ps : Option (Offer μ)} (h : Option.Rel (Offer.Coupled S R) os ps) (hw : R v w) :
    Ticked.Coupled (DecoratorsAlike S) R (part.tick s reset name os v)
      (part.tick t reset' name' ps w) :=
  part.tick_alike hR.toTracking hreset hname (fun source _ => hR.drawsAlike source)
    (part.every_of_all (Callback.alike hR hs)) h hw

end

end TickTree
