import Mathlib.Data.List.Chain
import TickTree.Proofs.Forest

/-!
# Hooks

The starts and finishes that a probe receives, as they stand in the history of a world.  They are
balanced when they take turns and begin with a start.  Callbacks that ask nothing of shared trees
change neither the hooks nor the trees.

Main results:

- Definitions `World.observedAt` and `World.hooks`: what a probe received, in order.
- Theorems `World.Fair.start` and `World.Fair.finish`: which hook may come next.
- Theorem `Reference.aside_resolve`: looking for a target changes neither trees nor hooks.
-/

namespace TickTree

/-! ## What probes observe -/

/-- The operation that a probe at the seat observed in an event. -/
def Event.observedAt? (seat : Nat) : Event → Option Operation
  | .observed probe _ operation => if probe = seat then some operation else none
  | _ => none

/-- The operations that a probe at the seat observed, the earliest first. -/
def World.observedAt (seat : Nat) (w : World) : List Operation :=
  w.history.reverse.filterMap (Event.observedAt? seat)

/-- A start or a finish. -/
def Operation.isHook : Operation → Bool
  | start => true
  | finish => true
  | _ => false

/-- The hooks that a probe at the seat received, the earliest first. -/
def World.hooks (seat : Nat) (w : World) : List Operation :=
  (w.observedAt seat).filter Operation.isHook

/-- The hook that a probe at the seat received in an event. -/
def Event.hooksAt (seat : Nat) (e : Event) : List Operation :=
  (e.observedAt? seat).toList.filter Operation.isHook

/-- What a probe observes is a hook of its own seat, if it is a hook. -/
theorem Event.hooksAt_observed (seat probe : Nat) (name : String) (operation : Operation) :
    (Event.observed probe name operation).hooksAt seat =
      if probe = seat ∧ operation.isHook = true then [operation] else [] := by
  unfold hooksAt observedAt?
  by_cases hseat : probe = seat
  · by_cases hhook : operation.isHook = true <;> simp [hseat, hhook]
  · simp [hseat]

/-- An event adds its own hook. -/
theorem World.hooks_emit (seat : Nat) (e : Event) (w : World) :
    (w.emit e).hooks seat = w.hooks seat ++ e.hooksAt seat := by
  unfold hooks observedAt Event.hooksAt
  rw [history_emit, List.reverse_cons, List.filterMap_append, List.filter_append]
  cases h : e.observedAt? seat <;> simp [h]

/-! ## Balance -/

namespace World

variable {strict : Prop} {seat : Nat} {w : World}

/-- The last hook was a start. -/
def IsOpen (seat : Nat) (w : World) : Prop := (w.hooks seat).getLast? = some .start

/-- No start follows a start; and where this is asked for, starts and finishes take turns and begin
with a start. -/
structure Fair (strict : Prop) (seat : Nat) (w : World) : Prop where
  starts : (w.hooks seat).IsChain fun a b => a ≠ .start ∨ b ≠ .start
  turns : strict → (w.hooks seat).IsChain (· ≠ ·) ∧ (w.hooks seat).head? ≠ some .finish

/-- Fairness is a matter of the hooks alone. -/
theorem Fair.congr {v : World} (h : v.Fair strict seat) (hw : w.hooks seat = v.hooks seat) :
    w.Fair strict seat := by
  constructor
  · rw [hw]
    exact h.starts
  · rw [hw]
    exact h.turns

/-- A start is fair when the last hook was none. -/
theorem Fair.start (h : Fair strict seat w) (hclosed : ¬ w.IsOpen seat) {e : Event}
    (he : e.hooksAt seat = [.start]) :
    (w.emit e).Fair strict seat ∧ (w.emit e).IsOpen seat := by
  have hlast : ∀ a ∈ (w.hooks seat).getLast?, a ≠ .start := by
    rintro a ha rfl
    exact hclosed ha
  refine ⟨⟨?_, fun hstrict => ⟨?_, ?_⟩⟩, ?_⟩
  · rw [hooks_emit, he]
    refine List.isChain_append.2 ⟨h.starts, List.isChain_singleton _, fun a ha b hb => ?_⟩
    exact .inl (hlast a ha)
  · rw [hooks_emit, he]
    refine List.isChain_append.2
      ⟨(h.turns hstrict).1, List.isChain_singleton _, fun a ha b hb => ?_⟩
    cases hb
    exact hlast a ha
  · rw [hooks_emit, he, List.head?_append]
    have hhead := (h.turns hstrict).2
    cases hfirst : (w.hooks seat).head? with
    | none => simp
    | some first => simpa [hfirst] using hhead
  · rw [IsOpen, hooks_emit, he, List.getLast?_append]
    rfl

/-- A finish is fair, where turns are asked for, when the last hook was a start. -/
theorem Fair.finish (h : Fair strict seat w) (hopen : strict → w.IsOpen seat) {e : Event}
    (he : e.hooksAt seat = [.finish]) :
    (w.emit e).Fair strict seat ∧ ¬ (w.emit e).IsOpen seat := by
  refine ⟨⟨?_, fun hstrict => ⟨?_, ?_⟩⟩, ?_⟩
  · rw [hooks_emit, he]
    refine List.isChain_append.2 ⟨h.starts, List.isChain_singleton _, fun a ha b hb => ?_⟩
    cases hb
    exact .inr Operation.noConfusion
  · rw [hooks_emit, he]
    refine List.isChain_append.2
      ⟨(h.turns hstrict).1, List.isChain_singleton _, fun a ha b hb => ?_⟩
    rw [hopen hstrict] at ha
    cases ha
    cases hb
    exact Operation.noConfusion
  · rw [hooks_emit, he, List.head?_append]
    have hhead := (h.turns hstrict).2
    cases hfirst : (w.hooks seat).head? with
    | none =>
      have hlast := hopen hstrict
      rw [IsOpen, List.head?_eq_none_iff.1 hfirst] at hlast
      cases hlast
    | some first => simpa [hfirst] using hhead
  · rw [IsOpen, hooks_emit, he, List.getLast?_append]
    exact fun h => Operation.noConfusion (Option.some.inj h)

end World

/-! ## Work that asks nothing -/

/-- From one world to the other, neither the trees nor their names nor the hooks of the seat have
changed. -/
structure World.Aside (seat : Nat) (v w : World) : Prop where
  trees : w.trees = v.trees
  directory : w.directory = v.directory
  hooks : w.hooks seat = v.hooks seat

namespace World

variable {seat : Nat} {u v w : World}

theorem Aside.refl (w : World) : Aside seat w w := ⟨rfl, rfl, rfl⟩

theorem Aside.trans (h : Aside seat u v) (h' : Aside seat v w) : Aside seat u w :=
  ⟨h'.trees.trans h.trees, h'.directory.trans h.directory, h'.hooks.trans h.hooks⟩

/-- An event without a hook changes nothing. -/
theorem aside_emit {e : Event} (he : e.hooksAt seat = []) (w : World) :
    Aside seat w (w.emit e) :=
  ⟨rfl, rfl, by rw [hooks_emit, he, List.append_nil]⟩

/-- A fault changes nothing. -/
theorem aside_fail (fault : Fault) (w : World) : Aside seat w (w.fail fault) := by
  unfold fail
  split
  · exact Aside.refl w
  · exact ⟨rfl, rfl, (aside_emit rfl w).hooks⟩

/-- A clock that moves changes nothing. -/
theorem aside_advance (clock : ClockId) (step : Duration) (w : World) :
    Aside seat w (w.advance clock step) := by
  unfold advance
  split
  · exact ⟨rfl, rfl, rfl⟩
  · exact aside_fail _ w

end World

/-- An effect that asks nothing of shared trees. -/
def Effect.IsQuiet : Effect → Prop
  | .ask _ _ => False
  | _ => True

/-- A callback that never asks anything of shared trees. -/
def Callback.IsQuiet {α : Type} (c : Callback α) : Prop :=
  ∀ n, ∀ effect ∈ (c.reply n).effects, effect.IsQuiet

/-- A supplier that never asks anything of shared trees. -/
def Supplier.IsQuiet {α : Type} : Supplier α → Prop
  | .constant _ => True
  | .scripted callback => callback.IsQuiet

/-- The tree that there is already and that a supplier's answer means. -/
def Supply.tree? (names : Directory) : Supply → Option TreeId
  | .existing tree => some tree
  | .named name => names.find? name
  | .fresh _ => none

/-- A supplier that chooses among the trees that there are and asks nothing of them. -/
structure Supplier.Chooses (supplier : Supplier (Option Supply)) : Prop where
  quiet : supplier.IsQuiet
  old : ∀ plan, ¬ supplier.Gives (some (.fresh plan))

section

variable {seat : Nat} (s : Service) (w : World)

/-- Quiet effects change nothing. -/
theorem Effect.aside_performAll (effects : List Effect) (h : ∀ effect ∈ effects, effect.IsQuiet) :
    World.Aside seat w (performAll s effects w) := by
  induction effects generalizing w with
  | nil => exact World.Aside.refl w
  | cons effect rest ih =>
    have hquiet : effect.IsQuiet := h effect List.mem_cons_self
    have hfirst : World.Aside seat w (effect.perform s w) := by
      cases effect with
      | advance clock step => exact World.aside_advance clock step w
      | set clock reading => exact ⟨rfl, rfl, rfl⟩
      | ask operation tree => exact hquiet.elim
      | log level message => exact World.aside_emit rfl w
      | fail fault => exact World.aside_fail fault w
    exact hfirst.trans (ih _ fun effect heffect => h effect (List.mem_cons_of_mem _ heffect))

variable (seat) in
/-- A quiet callback changes nothing. -/
theorem Callback.aside_consult {α : Type} {c : Callback α} (h : c.IsQuiet) :
    World.Aside seat w (c.consult s w).2 := by
  have hcounted : World.Aside seat w (w.countCall c.seat).2 := ⟨rfl, rfl, rfl⟩
  exact hcounted.trans (Effect.aside_performAll s _ _ (h _))

/-- A quiet supplier changes nothing. -/
theorem Supplier.aside_get {α : Type} {supplier : Supplier α} (h : supplier.IsQuiet) :
    World.Aside seat w (supplier.get s w).2 := by
  cases supplier with
  | constant value => exact World.Aside.refl w
  | scripted callback => exact (World.aside_emit rfl w).trans (Callback.aside_consult _ s _ h)

variable (seat) in
/-- Looking for a target changes nothing, and what is found is what the supplier's answer means, or
the tree that is held. -/
theorem Reference.aside_resolve {r : Reference} (h : r.supplier.Chooses) :
    World.Aside seat w (r.resolve s w).2 ∧
      ∀ tree, (r.resolve s w).1 = some tree →
        (r.resolves = false ∧ r.held = some tree) ∨
        (r.resolves = true ∧
          ∃ supply, r.supplier.Gives (some supply) ∧ supply.tree? w.directory = some tree) := by
  have hfind : ∀ v, World.Aside seat w v →
      World.Aside seat w (s.find (r.supplier.get s v).1 (r.supplier.get s v).2).2 ∧
        ∀ tree, (s.find (r.supplier.get s v).1 (r.supplier.get s v).2).1 = some tree →
          ∃ supply, r.supplier.Gives (some supply) ∧ supply.tree? w.directory = some tree := by
    intro v hv
    have hgot := hv.trans (Supplier.aside_get s v h.quiet)
    have hgives := r.supplier.gives_get s v
    generalize r.supplier.get s v = got at hgot hgives ⊢
    rcases got with ⟨answer, after⟩
    cases answer with
    | none =>
      refine ⟨hgot, fun tree htree => ?_⟩
      cases htree
    | some supply =>
      refine ⟨?_, fun tree htree => ⟨supply, hgives, ?_⟩⟩
      · cases supply with
        | existing tree => exact hgot
        | named name => exact hgot
        | fresh plan => exact absurd hgives (h.old plan)
      · cases supply with
        | existing other =>
          rcases Option.map_eq_some_iff.1 htree with ⟨_, -, rfl⟩
          rfl
        | named name =>
          have hnames : after.directory = w.directory := hgot.directory
          rw [Supply.tree?, ← hnames]
          exact htree
        | fresh plan => exact absurd hgives (h.old plan)
  unfold resolve
  split
  next hresolves =>
    refine ⟨?_, fun tree htree => .inr ⟨hresolves, ?_⟩⟩
    · cases r.kind with
      | sticky => exact (hfind _ (World.aside_emit rfl w)).1
      | dynamic => exact (hfind w (World.Aside.refl w)).1
    · cases hkind : r.kind with
      | sticky =>
        rw [hkind] at htree
        exact (hfind _ (World.aside_emit rfl w)).2 tree htree
      | dynamic =>
        rw [hkind] at htree
        exact (hfind w (World.Aside.refl w)).2 tree htree
  next hresolves =>
    exact ⟨World.Aside.refl w, fun tree htree => .inl ⟨Bool.eq_false_iff.2 hresolves, htree⟩⟩

/-- Reporting on the target changes nothing. -/
theorem Reference.aside_announce (r : Reference) (found : Option TreeId) :
    World.Aside seat w (r.announce found w) := by
  unfold announce
  split
  · exact World.aside_emit rfl w
  · exact World.Aside.refl w
  · split
    · exact World.aside_emit rfl w
    · exact World.Aside.refl w

end

end TickTree
