import TickTree.Node.Leaf.Tick
import TickTree.Node.Reference.Tick
import TickTree.Proofs.Parts

/-!
# Coupled worlds

Two runs of the same work are compared by a relation between their worlds.  A coupling is a relation
that everything a node does by itself keeps: it emits events, reads and moves clocks, draws numbers,
and counts calls.  When the services of both runs keep the relation as well, so do effects,
callbacks, leaves and references, and they give the same values on both sides.

Where nothing is known of other callbacks and sources than those of the node at work, less is asked
of the relation: that it is kept by events, and that draws from these sources and these callbacks
answer alike.

An invariant of a single run is the coupling of a world with itself.

Main results:

- Theorem `World.Invariant.coupling`: an invariant couples a world with itself.
- Theorem `Leaf.tick_alike` and `Reference.tick_alike`: leaves and references give the same status
  when what they use themselves answers alike.
- Theorem `Leaf.tick_coupled`: leaves give the same status in coupled worlds.
- Theorem `Reference.tick_coupled`: references give the same status in coupled worlds.
-/

namespace TickTree

/-! ## Relations between worlds -/

/-- Two results have equal values and related worlds. -/
def Coupled {α : Type} (R : World → World → Prop) (x y : α × World) : Prop :=
  x.1 = y.1 ∧ R x.2 y.2

/-- Coupled results are one value with two related worlds. -/
theorem Coupled.split {α : Type} {R : World → World → Prop} {x y : α × World}
    (h : Coupled R x y) : ∃ a v w, x = (a, v) ∧ y = (a, w) ∧ R v w := by
  rcases x with ⟨a, v⟩
  rcases y with ⟨b, w⟩
  rcases h with ⟨hvalue, hworld⟩
  have hsame : a = b := hvalue
  exact ⟨a, v, w, rfl, by rw [hsame], hworld⟩

/-- A relation of worlds with the same clock readings that is kept by events. -/
structure World.Tracking (R : World → World → Prop) : Prop where
  emit : ∀ {v w : World} (event : Event), R v w → R (v.emit event) (w.emit event)
  now : ∀ {v w : World} (clock : ClockId), R v w → v.now clock = w.now clock

/-- Draws from a source give the same in related worlds. -/
def World.DrawsAlike (R : World → World → Prop) (source : SourceId) : Prop :=
  ∀ {v w : World} {α : Type} (draw : Draw) (take : Source → α × Source), R v w →
    Coupled R (v.drawWith draw take source) (w.drawWith draw take source)

/-- A relation that is kept by whatever a node does to a world apart from its callbacks. -/
structure World.Sharing (R : World → World → Prop) : Prop extends World.Tracking R where
  draw : ∀ {v w : World} {α : Type} (draw : Draw) (take : Source → α × Source)
    (source : SourceId), R v w →
    Coupled R (v.drawWith draw take source) (w.drawWith draw take source)

/-- Draws from all sources give the same. -/
theorem World.Sharing.drawsAlike {R : World → World → Prop} (hR : World.Sharing R)
    (source : SourceId) : World.DrawsAlike R source :=
  fun draw take hw => hR.draw draw take source hw

/-- A relation that is kept by whatever a node does to a world without asking a service. -/
structure World.Coupling (R : World → World → Prop) : Prop extends World.Sharing R where
  fail : ∀ {v w : World} (fault : Fault), R v w → R (v.fail fault) (w.fail fault)
  advance : ∀ {v w : World} (clock : ClockId) (step : Duration), R v w →
    R (v.advance clock step) (w.advance clock step)
  setClock : ∀ {v w : World} (clock : ClockId) (reading : Duration), R v w →
    R (v.setClock clock reading) (w.setClock clock reading)
  countCall : ∀ {v w : World} (seat : Nat), R v w →
    Coupled R (v.countCall seat) (w.countCall seat)
  named : ∀ {v w : World} (name : String), R v w → v.named? name = w.named? name
  found : ∀ {v w : World} (tree : TreeId), R v w →
    (v.trees.get tree).isSome = (w.trees.get tree).isSome

/-- Two services answer a request alike in related worlds. -/
def Service.AlikeTo (R : World → World → Prop) (s t : Service) (request : Request) : Prop :=
  ∀ {v w : World}, R v w → Coupled R (s.ask request.1 request.2 v) (t.ask request.1 request.2 w)

/-- Two services answer requests of an operation alike in related worlds. -/
def Service.AlikeAt (R : World → World → Prop) (s t : Service) (operation : Operation) : Prop :=
  ∀ {v w : World} (tree : TreeId), R v w →
    Coupled R (s.ask operation tree v) (t.ask operation tree w)

/-- Two services answer all requests alike in related worlds. -/
structure Service.Alike (R : World → World → Prop) (s t : Service) : Prop where
  ask : ∀ operation, Service.AlikeAt R s t operation
  plant : ∀ {v w : World} (plan : PlanId), R v w →
    Coupled R (s.plant plan v) (t.plant plan w)

/-- A property of worlds that is kept by whatever a node does without asking a service. -/
structure World.Invariant (P : World → Prop) : Prop where
  emit : ∀ {w : World} (event : Event), P w → P (w.emit event)
  fail : ∀ {w : World} (fault : Fault), P w → P (w.fail fault)
  advance : ∀ {w : World} (clock : ClockId) (step : Duration), P w → P (w.advance clock step)
  setClock : ∀ {w : World} (clock : ClockId) (reading : Duration), P w →
    P (w.setClock clock reading)
  draw : ∀ {w : World} {α : Type} (draw : Draw) (take : Source → α × Source)
    (source : SourceId), P w → P (w.drawWith draw take source).2
  countCall : ∀ {w : World} (seat : Nat), P w → P (w.countCall seat).2

/-- The relation of a world that has a property with itself. -/
def World.Itself (P : World → Prop) (v w : World) : Prop := v = w ∧ P v

section

variable {P : World → Prop} {v w : World} {α : Type}

/-- What can be seen of a world is the same in the world itself. -/
theorem World.Itself.eq (hw : World.Itself P v w) (f : World → α) : f v = f w :=
  congrArg f hw.1

/-- A step that keeps the property leads from a world and itself to a world and itself. -/
theorem World.Itself.step {f : World → World} (hw : World.Itself P v w)
    (hf : ∀ {u : World}, P u → P (f u)) : World.Itself P (f v) (f w) := by
  rcases hw with ⟨rfl, hv⟩
  exact ⟨rfl, hf hv⟩

/-- So does a step that gives a value as well. -/
theorem World.Itself.coupled {f : World → α × World} (hw : World.Itself P v w)
    (hf : ∀ {u : World}, P u → P (f u).2) : Coupled (World.Itself P) (f v) (f w) :=
  ⟨hw.eq fun u => (f u).1, hw.step hf⟩

end

/-- An invariant couples a world with itself. -/
theorem World.Invariant.coupling {P : World → Prop} (h : World.Invariant P) :
    World.Coupling (World.Itself P) where
  emit event hw := hw.step (h.emit event)
  fail fault hw := hw.step (h.fail fault)
  now clock hw := hw.eq fun u => u.now clock
  advance clock step hw := hw.step (h.advance clock step)
  setClock clock reading hw := hw.step (h.setClock clock reading)
  draw draw take source hw := hw.coupled (h.draw draw take source)
  countCall seat hw := hw.coupled (h.countCall seat)
  named name hw := hw.eq fun u => u.named? name
  found tree hw := hw.eq fun u => (u.trees.get tree).isSome

/-- What is said of the shared trees alone is an invariant. -/
theorem World.Invariant.ofTrees {P : World → Prop}
    (h : ∀ {v w : World}, w.trees = v.trees → P v → P w) : World.Invariant P where
  emit _ hw := h (by rfl) hw
  fail fault hw := h (World.trees_fail fault _) hw
  advance clock step hw := h (World.trees_advance clock step _) hw
  setClock _ _ hw := h (by rfl) hw
  draw _ _ _ hw := h (by rfl) hw
  countCall _ hw := h (by rfl) hw

/-- A service keeps a property when it answers requests of an operation. -/
def Service.KeepsAt (s : Service) (P : World → Prop) (operation : Operation) : Prop :=
  ∀ (tree : TreeId) {w : World}, P w → P (s.ask operation tree w).2

/-- A service keeps a property when all its answers do. -/
def Service.Keeps (s : Service) (P : World → Prop) : Prop :=
  (∀ operation, s.KeepsAt P operation) ∧
    ∀ (plan : PlanId) {w : World}, P w → P (s.plant plan w).2

/-- A service that keeps a property at an operation is coupled with itself there. -/
theorem Service.KeepsAt.alikeAt {s : Service} {P : World → Prop} {operation : Operation}
    (h : s.KeepsAt P operation) : Service.AlikeAt (World.Itself P) s s operation :=
  fun tree hw => hw.coupled (h tree)

/-- A service that keeps a property is coupled with itself. -/
theorem Service.Keeps.coupled {s : Service} {P : World → Prop} (h : s.Keeps P) :
    Service.Alike (World.Itself P) s s where
  ask operation := (h.1 operation).alikeAt
  plant plan hw := hw.coupled (h.2 plan)

/-- Equal worlds are coupled. -/
theorem World.coupling_itself : World.Coupling (World.Itself fun _ => True) :=
  (World.Invariant.ofTrees fun _ _ => trivial).coupling

/-- Every service answers alike in equal worlds. -/
theorem Service.alike_itself (s : Service) : Service.Alike (World.Itself fun _ => True) s s :=
  Service.Keeps.coupled ⟨fun _ _ _ _ => trivial, fun _ _ _ => trivial⟩

section

variable {R : World → World → Prop} {s t : Service} {v w : World} {α : Type}

/-! ## Drawing and polling -/

/-- Log records of the library are written on both sides. -/
theorem World.Tracking.report (hR : World.Tracking R) (level : Level) (message : String)
    (hw : R v w) : R (v.report level message) (w.report level message) :=
  hR.emit _ hw

/-- A wait has the same target on both sides. -/
theorem World.DrawsAlike.sample {source : SourceId} (hdraw : World.DrawsAlike R source)
    (jitter : Jitter) (hw : R v w) :
    Coupled R (v.sample source jitter) (w.sample source jitter) := by
  unfold World.sample Jitter.sample
  split
  · exact ⟨rfl, hw⟩
  · rcases hdraw .gaussian Source.gaussian hw with ⟨hnumber, hafter⟩
    exact ⟨congrArg jitter.stretch hnumber, hafter⟩

/-- A timer is polled with the same result on both sides, when its clock has the same reading. -/
theorem World.DrawsAlike.poll (timer : Timer) (hdraw : World.DrawsAlike R timer.source)
    (hnow : v.now timer.clock = w.now timer.clock) (hw : R v w) :
    (v.poll timer).1 = (w.poll timer).1 ∧ (v.poll timer).2.1 = (w.poll timer).2.1 ∧
      R (v.poll timer).2.2 (w.poll timer).2.2 := by
  rcases hdraw.sample timer.jitter hw with ⟨htarget, hafter⟩
  unfold World.poll Timer.poll
  rw [hnow]
  cases timer.armed with
  | some armed => exact ⟨rfl, rfl, hw⟩
  | none =>
    simp only [htarget]
    exact ⟨trivial, trivial, hafter⟩

/-- A timer is polled with the same result on both sides. -/
theorem World.Tracking.poll (hR : World.Tracking R) {timer : Timer}
    (hdraw : World.DrawsAlike R timer.source) (hw : R v w) :
    (v.poll timer).1 = (w.poll timer).1 ∧ (v.poll timer).2.1 = (w.poll timer).2.1 ∧
      R (v.poll timer).2.2 (w.poll timer).2.2 :=
  World.DrawsAlike.poll timer hdraw (hR.now timer.clock hw) hw

/-! ## Effects and callbacks -/

/-- A request under a name is answered alike. -/
theorem Service.askNamed_coupled (hR : World.Coupling R) (hs : Service.Alike R s t)
    (operation : Operation) (name : String) (hw : R v w) :
    R (s.askNamed operation name v) (t.askNamed operation name w) := by
  unfold Service.askNamed
  rw [hR.named name hw]
  cases w.named? name with
  | none => exact hw
  | some tree =>
    rcases hs.ask operation tree hw with ⟨hanswer, hafter⟩
    cases operation with
    | tick =>
      simp only [hanswer]
      exact hR.emit _ hafter
    | reset => exact hafter
    | start => exact hafter
    | finish => exact hafter

/-- Effects keep the relation. -/
theorem Effect.performAll_coupled (hR : World.Coupling R) (hs : Service.Alike R s t)
    (effects : List Effect) (hw : R v w) :
    R (Effect.performAll s effects v) (Effect.performAll t effects w) := by
  induction effects generalizing v w with
  | nil => exact hw
  | cons effect rest ih =>
    have hfirst : R (effect.perform s v) (effect.perform t w) := by
      cases effect with
      | advance clock step => exact hR.advance clock step hw
      | set clock reading => exact hR.setClock clock reading hw
      | ask operation name => exact Service.askNamed_coupled hR hs operation name hw
      | log level message => exact hR.emit _ hw
      | fail fault => exact hR.fail fault hw
    exact ih hfirst

/-- A callback gives the same answer on both sides. -/
theorem Callback.consult_coupled (hR : World.Coupling R) (hs : Service.Alike R s t)
    (c : Callback α) (hw : R v w) : Coupled R (c.consult s v) (c.consult t w) := by
  rcases hR.countCall c.seat hw with ⟨hcount, hafter⟩
  unfold Callback.consult
  simp only [hcount]
  exact ⟨rfl, Effect.performAll_coupled hR hs _ hafter⟩

/-- A callback gives the same answer in related worlds. -/
def Callback.Alike (R : World → World → Prop) (s t : Service) (α : Type) (c : Callback α) : Prop :=
  ∀ {v w : World}, R v w → Coupled R (c.consult s v) (c.consult t w)

/-- All callbacks answer alike in coupled worlds. -/
theorem Callback.alike (hR : World.Coupling R) (hs : Service.Alike R s t) (α : Type)
    (c : Callback α) : c.Alike R s t :=
  fun hw => c.consult_coupled hR hs hw

/-- A supplier gives the same value when its callback answers alike. -/
theorem Supplier.get_alike (hR : World.Tracking R) {supplier : Supplier α}
    (h : supplier.Every (Callback.Alike R s t)) (hw : R v w) :
    Coupled R (supplier.get s v) (supplier.get t w) := by
  cases supplier with
  | constant value => exact ⟨rfl, hw⟩
  | scripted callback => exact h (hR.emit _ hw)

/-- A supplier gives the same value on both sides. -/
theorem Supplier.get_coupled (hR : World.Coupling R) (hs : Service.Alike R s t)
    (supplier : Supplier α) (hw : R v w) : Coupled R (supplier.get s v) (supplier.get t w) :=
  supplier.get_alike hR.toTracking (supplier.every_of_all (Callback.alike hR hs)) hw

/-- Requests are answered alike, one after the other. -/
theorem Service.send_coupled (requests : List Request)
    (hs : ∀ request ∈ requests, Service.AlikeTo R s t request) (last : Status) (hw : R v w) :
    Coupled R (s.send requests last v) (t.send requests last w) := by
  induction requests generalizing last v w with
  | nil => exact ⟨rfl, hw⟩
  | cons request rest ih =>
    rcases request with ⟨operation, tree⟩
    rcases hs (operation, tree) List.mem_cons_self hw with ⟨hanswer, hafter⟩
    unfold Service.send
    simp only [hanswer]
    exact ih (fun request hrequest => hs request (List.mem_cons_of_mem _ hrequest)) _ hafter

/-- A supplier's answer means the same tree on both sides. -/
theorem Service.find_coupled (hR : World.Coupling R) (hs : Service.Alike R s t)
    (supply : Option Supply) (hw : R v w) : Coupled R (s.find supply v) (t.find supply w) := by
  cases supply with
  | none => exact ⟨rfl, hw⟩
  | some supply =>
    cases supply with
    | existing tree =>
      have hfound := hR.found tree hw
      refine ⟨?_, hw⟩
      simp only [Service.find]
      cases hv : v.trees.get tree <;> cases hw' : w.trees.get tree <;> simp_all
    | named name => exact ⟨hR.named name hw, hw⟩
    | fresh plan => exact hs.plant plan hw

/-! ## Leaves and references -/

/-- Two ticks gave the same status, related states and related worlds. -/
structure Ticked.Coupled {κ μ : Type} (S : κ → μ → Prop) (R : World → World → Prop)
    (t : Ticked κ) (u : Ticked μ) : Prop where
  status : t.status = u.status
  state : S t.state u.state
  world : R t.world u.world

/-- Ticks that are coupled in one world are the same. -/
theorem Ticked.Coupled.eq {κ : Type} {P : World → Prop} {t u : Ticked κ}
    (h : Ticked.Coupled Eq (World.Itself P) t u) : t = u := by
  rcases t with ⟨status, state, world⟩
  rcases h with ⟨hstatus, hstate, hworld, -⟩
  simp only at hstatus hstate hworld
  rw [hstatus, hstate, hworld]

/-- Ticks stay coupled when their states are changed by functions that respect the relations. -/
theorem Ticked.Coupled.map {κ μ κ' μ' : Type} {S : κ → μ → Prop} {S' : κ' → μ' → Prop}
    {t : Ticked κ} {u : Ticked μ} {f : κ → κ'} {g : μ → μ'} (h : Ticked.Coupled S R t u)
    (hfg : ∀ {k m}, S k m → S' (f k) (g m)) : Ticked.Coupled S' R (t.map f) (u.map g) :=
  ⟨h.status, hfg h.state, h.world⟩

/-- A wait for an idle streak goes alike when its callbacks answer alike. -/
theorem IdleWatch.tick_alike (hR : World.Tracking R) {test : Supplier Bool}
    {bypass : Option (Supplier Bool)}
    (hpass : ∀ supplier, bypass = some supplier → supplier.Every (Callback.Alike R s t))
    (htest : test.Every (Callback.Alike R s t)) (watch : IdleWatch) (name : String)
    (hw : R v w) :
    Ticked.Coupled Eq R (watch.tick s test bypass name v) (watch.tick t test bypass name w) := by
  have hbypass : Coupled R (askBypass s bypass v) (askBypass t bypass w) := by
    cases bypass with
    | none => exact ⟨rfl, hw⟩
    | some bypass => exact Supplier.get_alike hR (hpass bypass rfl) hw
  rcases hbypass with ⟨hbypassed, hfirst⟩
  unfold IdleWatch.tick
  simp only [hbypassed, hR.now watch.clock hfirst]
  have hasked := Supplier.get_alike hR htest hfirst
  rcases hasked with ⟨htested, hsecond⟩
  split
  · exact ⟨rfl, rfl, hfirst⟩
  · split
    · exact ⟨rfl, rfl, hR.report _ _ hfirst⟩
    · simp only [htested]
      split
      · split
        · exact ⟨rfl, rfl, hsecond⟩
        · exact ⟨rfl, rfl, hsecond⟩
      · exact ⟨rfl, rfl, hsecond⟩

/-- A leaf gives the same status when it draws alike and its callbacks answer alike. -/
theorem Leaf.tick_alike (hR : World.Tracking R) {part : Leaf}
    (hdraws : ∀ source ∈ part.source?, World.DrawsAlike R source)
    (h : part.Every (Callback.Alike R s t)) (hw : R v w) :
    Ticked.Coupled Eq R (part.tick s v) (part.tick t w) := by
  cases part with
  | action name body =>
    have hasked := Supplier.get_alike hR h hw
    rcases hasked.split with ⟨value, v', w', hv, hu, hafter⟩
    simp only [Leaf.tick, hv, hu]
    cases value with
    | ok status => exact ⟨rfl, rfl, hR.emit _ hafter⟩
    | error failure => exact ⟨rfl, rfl, hR.report _ _ hafter⟩
  | condition name test =>
    have hasked := Supplier.get_alike hR h hw
    rcases hasked.split with ⟨value, v', w', hv, hu, hafter⟩
    simp only [Leaf.tick, hv, hu]
    cases value with
    | ok holds =>
      cases holds with
      | true => exact ⟨rfl, rfl, hafter⟩
      | false => exact ⟨rfl, rfl, hafter⟩
    | error failure => exact ⟨rfl, rfl, hR.report _ _ hafter⟩
  | sleep timer =>
    rcases hR.poll (hdraws _ rfl) hw with ⟨hexpired, htimer, hafter⟩
    rcases hv : v.poll timer with ⟨expired, timer', v'⟩
    rcases hu : w.poll timer with ⟨expired', timer'', w'⟩
    rw [hv, hu] at hexpired htimer hafter
    subst hexpired htimer
    simp only [Leaf.tick, hv, hu]
    cases expired with
    | true => exact ⟨rfl, rfl, hafter⟩
    | false => exact ⟨rfl, rfl, hafter⟩
  | sleepUntil timer test =>
    rcases hR.poll (hdraws _ rfl) hw with ⟨hexpired, htimer, hpolled⟩
    have hasked := Supplier.get_alike hR h hpolled
    rcases hasked with ⟨htested, hafter⟩
    unfold Leaf.tick
    simp only [hexpired, htimer, htested]
    split
    · exact ⟨rfl, rfl, hafter⟩
    · split
      · exact ⟨rfl, rfl, hR.report _ _ hafter⟩
      · exact ⟨rfl, rfl, hafter⟩
  | sleepUntilIdle watch test bypass =>
    have hwatch := IdleWatch.tick_alike hR h.1 h.2 watch (sleepUntilIdle watch test bypass).name hw
    exact hwatch.map fun h => congrArg (fun watch => Leaf.sleepUntilIdle watch test bypass) h
  | probe name script hooks =>
    have hobserved := hR.emit (.observed script.seat name .tick) hw
    have hasked := h hobserved
    rcases hasked with ⟨hvalue, hafter⟩
    unfold Leaf.tick
    simp only [hvalue]
    exact ⟨rfl, rfl, hR.emit _ hafter⟩
  | countdown name count remaining =>
    cases remaining with
    | zero => exact ⟨rfl, rfl, hw⟩
    | succ remaining => exact ⟨rfl, rfl, hw⟩

/-- Leaves give the same status in coupled worlds. -/
theorem Leaf.tick_coupled (hR : World.Coupling R) (hs : Service.Alike R s t) (part : Leaf)
    (hw : R v w) : Ticked.Coupled Eq R (part.tick s v) (part.tick t w) :=
  part.tick_alike hR.toTracking (fun source _ => hR.drawsAlike source)
    (part.every_of_all (Callback.alike hR hs)) hw

/-- A reference finds the same tree on both sides. -/
theorem Reference.resolve_coupled (hR : World.Coupling R) (hs : Service.Alike R s t)
    (r : Reference) (hw : R v w) : Coupled R (r.resolve s v) (r.resolve t w) := by
  have hfind : ∀ {v w : World}, R v w →
      Coupled R (s.find (r.supplier.get s v).1 (r.supplier.get s v).2)
        (t.find (r.supplier.get t w).1 (r.supplier.get t w).2) := by
    intro v w hw
    have hasked := Supplier.get_coupled hR hs r.supplier hw
    rcases hasked with ⟨hsupply, hafter⟩
    rw [hsupply]
    exact Service.find_coupled hR hs _ hafter
  unfold Reference.resolve
  split
  · cases r.kind with
    | sticky => exact hfind (hR.report _ _ hw)
    | dynamic => exact hfind hw
  · exact ⟨rfl, hw⟩

/-- A reference reports the same on both sides. -/
theorem Reference.announce_coupled (hR : World.Tracking R) (r : Reference)
    (found : Option TreeId) (hw : R v w) : R (r.announce found v) (r.announce found w) := by
  unfold Reference.announce
  split
  · exact hR.report _ _ hw
  · exact hw
  · split
    · exact hR.report _ _ hw
    · exact hw

/-- A reference gives the same status when it finds the same tree and its requests are answered
alike. -/
theorem Reference.tick_alike (hR : World.Tracking R) {r : Reference}
    (hresolved : Coupled R (r.resolve s v) (r.resolve t w))
    (hs : ∀ request ∈ r.tickRequests (r.resolve t w).1, Service.AlikeTo R s t request) :
    Ticked.Coupled Eq R (r.tick s v) (r.tick t w) := by
  rcases hresolved with ⟨hfound, hresolved⟩
  unfold Reference.tick
  simp only [hfound]
  have hannounced := r.announce_coupled hR (r.resolve t w).1 hresolved
  have hsent := Service.send_coupled (r.tickRequests (r.resolve t w).1) hs .failure hannounced
  rcases hsent with ⟨hstatus, hafter⟩
  exact ⟨hstatus, rfl, hafter⟩

/-- References give the same status in coupled worlds. -/
theorem Reference.tick_coupled (hR : World.Coupling R) (hs : Service.Alike R s t)
    (r : Reference) (hw : R v w) : Ticked.Coupled Eq R (r.tick s v) (r.tick t w) :=
  r.tick_alike hR.toTracking (r.resolve_coupled hR hs hw)
    fun request _ _ _ hw => hs.ask request.1 request.2 hw

end

end TickTree
