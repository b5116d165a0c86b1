import TickTree.Proofs.Hooks
import TickTree.Proofs.Renewal

/-!
# Runs with renewal

Between a completion of a node and its next turn it is reset, whatever is done to the root of its
tree meanwhile.  In a course of a node that keeps this discipline it is enough to know at every
moment whether the node is done: it has completed and was not reset since.

What is recorded of a run is what happens in it: a reset of the node is carried out on the node
itself, after its turn, and whatever the node does in it stands in the history from then on.

Main results:

- Theorem `serve_passes_precedes`: nothing that a node does takes events back.
- Theorem `Node.recorded_attendAll`: in every run the node is ticked and reset as recorded.
- Theorem `Node.renewing_attendAll`: no run of a serial tree ticks a node while it is done.
- Theorem `Node.reset_before_next_turn`: between a completion and the next turn the node is reset.
-/

namespace TickTree

/-! ## Events are not taken back -/

/-- What has happened in the first world has happened in the second as well. -/
def World.Precedes (v w : World) : Prop := v.history <:+ w.history

namespace World

theorem Precedes.refl (w : World) : w.Precedes w := List.suffix_rfl

theorem Precedes.trans {u v w : World} (h : u.Precedes v) (h' : v.Precedes w) : u.Precedes w :=
  List.IsSuffix.trans h h'

/-- Log records and draws take no events back. -/
theorem passage_precedes : Passage Precedes where
  refl := .refl
  trans h h' := h.trans h'
  report _ _ _ := List.suffix_cons _ _
  draw _ _ _ _ := List.suffix_cons _ _

/-- A fault takes no events back. -/
theorem precedes_fail (fault : Fault) (w : World) : w.Precedes (w.fail fault) := by
  unfold fail
  split
  · exact .refl w
  · exact List.suffix_cons _ _

/-- That certain events have happened is an invariant of growth. -/
theorem growth_past (past : List Event) : Growth fun w => past <:+ w.history where
  emit _ hw := hw.trans (List.suffix_cons _ _)
  fail fault hw := hw.trans (precedes_fail fault _)
  advance {w} clock step hw := by
    unfold advance
    split
    · exact hw
    · exact hw.trans (precedes_fail .clockOverflow w)
  setClock _ _ hw := hw
  draw _ _ _ hw := hw.trans (List.suffix_cons _ _)
  countCall _ hw := hw
  issue _ hw := hw
  letLoose _ hw := hw
  addTree _ hw := hw

end World

/-- Nothing that a node does over a forest takes events back. -/
theorem serve_passes_precedes (plans : Array TreePlan) (depth : Nat) :
    (serve (plantFrom plans) depth).Passes World.Precedes := by
  have hkeeps : ∀ past, (serve (plantFrom plans) depth).Keeps fun w => past <:+ w.history :=
    fun past => serve_keeps (World.growth_past past) (fun _ _ hw => hw) (fun _ _ hw => hw) plans
      depth
  have hinvariant : ∀ past, World.Invariant fun w => past <:+ w.history :=
    fun past => (World.growth_past past).toInvariant
  constructor
  case toPassage => exact World.passage_precedes
  case get =>
    intro _ supplier w
    exact (Supplier.get_coupled (hinvariant w.history).coupling (hkeeps w.history).coupled supplier
      ⟨rfl, List.suffix_rfl⟩).2.2
  case perform =>
    intro operation n w
    exact n.perform_keeps (hinvariant w.history) (hkeeps w.history) operation List.suffix_rfl

/-! ## Runs -/

/-- One leg of a run, an operation on the root of a tree: what it does to the node at a place, what
it leaves of the tree, and the worlds before and after. -/
structure Leg where
  before : World
  activity : Activity
  left : Node
  after : World

namespace Node

/-- What one operation on a tree does to the node at a place. -/
def attend (s : Service) (path : List Nat) : Operation → Node → World → Activity
  | .tick, n, w => (n.watch s path w).state.2
  | .reset, n, w => (watchedReset s path (n, .quiet) w).1.2
  | .start, _, _ => .quiet
  | .finish, _, _ => .quiet

/-- Carries out operations on a root, each in a world, and records what happens at a place. -/
def attendAll (s : Service) (path : List Nat) : Node → List (Operation × World) → List Leg
  | _, [] => []
  | n, (operation, w) :: rest =>
    let done := (n.perform s operation w).2
    ⟨w, n.attend s path operation w, done.1, done.2⟩ :: attendAll s path done.1 rest

variable {le : World → World → Prop} {s : Service} (hs : s.Passes le)

include hs in
/-- In one operation on a tree the node at a place is ticked and reset as recorded. -/
theorem recorded_attend (path : List Nat) (operation : Operation) (n : Node) (w : World) :
    Recorded le s path n w (n.perform s operation w).2.2
      ((n.perform s operation w).2.1, n.attend s path operation w) := by
  have hkept := n.cleared_perform s operation w
  cases operation with
  | tick =>
    have hrecord := recorded_watch hs path n w
    rw [world_watch, ← Prod.eta (n.watch s path w).state, fst_state_watch] at hrecord
    exact hrecord
  | reset => exact (Recorded.quiet rfl (hs.refl w)).reset hs (hs.refl w) (hs.refl _)
  | start => exact .quiet hkept (hs.perform .start n w)
  | finish => exact .quiet hkept (hs.perform .finish n w)

include hs in
/-- In every run of a tree the node at a place is ticked and reset as recorded. -/
theorem recorded_attendAll (path : List Nat) (n : Node) (run : List (Operation × World)) :
    ∀ leg ∈ n.attendAll s path run,
      Recorded le s path n leg.before leg.after (leg.left, leg.activity) := by
  induction run generalizing n with
  | nil => exact fun _ hleg => absurd hleg List.not_mem_nil
  | cons entry rest ih =>
    rcases entry with ⟨operation, w⟩
    intro leg hleg
    cases hleg with
    | head => exact recorded_attend hs path operation n w
    | tail _ hleg => exact (ih _ leg hleg).of_cleared (n.cleared_perform s operation w)

end Node

/-! ## Courses -/

/-- A course of a node that is never ticked while it is done. -/
def Renewing : (done : Bool) → List Activity → Prop
  | _, [] => True
  | done, a :: rest => a.Fits done ∧ Renewing (a.leavesDone done) rest

/-- The end of such a course is such a course. -/
theorem Renewing.of_append {done : Bool} {first second : List Activity}
    (h : Renewing done (first ++ second)) : ∃ done', Renewing done' second := by
  induction first generalizing done with
  | nil => exact ⟨done, h⟩
  | cons a rest ih => exact ih h.2

/-- While a node that is done is not reset, it has no turn. -/
theorem Renewing.no_turn {between after : List Activity} {last : Activity}
    (h : Renewing true (between ++ last :: after)) (hkept : ∀ a ∈ between, a.wasReset = false) :
    last.turn = none := by
  have hidle : ∀ a : Activity, a.Fits true → a.turn = none := by
    intro a hfit
    rcases hturn : a.turn with _ | turn
    · rfl
    · exact absurd (hfit (by rw [hturn]; rfl)).symm Bool.false_ne_true
  induction between with
  | nil => exact hidle last h.1
  | cons a rest ih =>
    rcases h with ⟨hfit, hrest⟩
    simp only [Activity.leavesDone, hkept a List.mem_cons_self, hidle a hfit] at hrest
    exact ih hrest fun b hb => hkept b (List.mem_cons_of_mem _ hb)

/-- Between a completion and a later turn in such a course there is a reset. -/
theorem Renewing.wasReset_between {fresh : Bool} {before between after : List Activity}
    {first second : Activity} {done again : Turn}
    (h : Renewing fresh (before ++ first :: (between ++ second :: after)))
    (hdone : first.turn = some done) (hcompleted : done.status.isCompleted = true)
    (hagain : second.turn = some again) : ∃ a ∈ first :: between, a.wasReset = true := by
  rcases h.of_append with ⟨_, -, hrest⟩
  by_contra hnone
  have hkept : ∀ a ∈ first :: between, a.wasReset = false :=
    fun a ha => Bool.eq_false_iff.2 fun hreset => hnone ⟨a, ha, hreset⟩
  simp only [Activity.leavesDone, hkept first List.mem_cons_self, hdone, hcompleted] at hrest
  have hidle := hrest.no_turn fun a ha => hkept a (List.mem_cons_of_mem _ ha)
  rw [hidle] at hagain
  cases hagain

namespace Node

/-- The kind of a node is not a matter of its state. -/
theorem restarts_cleared (n : Node) : n.cleared.Restarts ↔ n.Restarts := by
  cases n with
  | decorator part child => exact part.restarts_reset
  | leaf part => exact Iff.rfl
  | composite part children => exact Iff.rfl
  | reference part => exact Iff.rfl
  | embedded tag root => exact Iff.rfl

/-- In one operation on a serial tree that restarts, a node below the root has no turn while it is
done, and what is left of the tree is ready for the next operation. -/
theorem renewed_attend (s : Service) {path : List Nat} (hpath : path ≠ []) {n : Node}
    (hn : n.Serial) (hroot : n.Restarts) {done : Bool}
    (hready : done = true → n.hasPassed path = true) (operation : Operation) (w : World) :
    (n.attend s path operation w).Fits done ∧
      Ready path done ((n.perform s operation w).2.1, n.attend s path operation w) := by
  cases operation with
  | tick =>
    rcases renewed_watch s path done hn hready w with ⟨hfit, hnext⟩
    have hleft := hnext (.inr ⟨hpath, hroot⟩)
    rw [← Prod.eta (n.watch s path w).state, fst_state_watch] at hleft
    exact ⟨hfit, hleft⟩
  | reset =>
    exact ⟨fun h => absurd h Bool.false_ne_true, ready_watchedReset (n, .quiet) w⟩
  | start =>
    refine ⟨fun h => absurd h Bool.false_ne_true, fun h => ?_⟩
    simp only [perform, fst_start]
    exact hready h
  | finish =>
    refine ⟨fun h => absurd h Bool.false_ne_true, fun h => ?_⟩
    have hfinish : (n.finish s w).1 = n := by
      cases hn with
      | leaf _ => exact hroot.elim
      | reference _ => exact hroot.elim
      | composite _ _ => rfl
      | decorator _ _ => rfl
      | embedded _ => exact hroot.elim
    simp only [perform, hfinish]
    exact hready h

/-- In every run of a serial tree that restarts, the nodes below the root are never ticked while
they are done. -/
theorem renewing_attendAll (s : Service) {path : List Nat} (hpath : path ≠ []) {n : Node}
    (hn : n.Serial) (hroot : n.Restarts) (run : List (Operation × World)) {done : Bool}
    (hready : done = true → n.hasPassed path = true) :
    Renewing done ((n.attendAll s path run).map Leg.activity) := by
  induction run generalizing n done with
  | nil => trivial
  | cons entry rest ih =>
    rcases entry with ⟨operation, w⟩
    have hrestarts : (n.perform s operation w).2.1.Restarts := by
      rw [← restarts_cleared, cleared_perform, restarts_cleared]
      exact hroot
    rcases renewed_attend s hpath hn hroot hready operation w with ⟨hfit, hnext⟩
    exact ⟨hfit, ih (hn.perform s operation w) hrestarts hnext⟩

end Node

/-! ## Resets in a run -/

/-- In a leg the node at a place is reset: the reset is carried out on the node itself, after its
turn if it has one, and leaves it in its first state; and what happens in the reset is part of what
happens in the leg.  A probe that records all operations records this one. -/
structure Leg.Renews (s : Service) (path : List Nat) (m : Node) (leg : Leg)
    (reset : Reset) : Prop where
  node : reset.node.cleared = m.cleared
  carried : reset.after = (reset.node.reset s reset.before).2
  observed : ∀ name script, m = .leaf (.probe name script true) →
    reset.after = reset.before.emit (.observed script.seat name .reset)
  begins : leg.before.Precedes reset.before
  late : ∀ turn, leg.activity.turn = some turn → turn.after.Precedes reset.before
  ends : reset.after.Precedes leg.after
  renewed : leg.left.at? path = some m.cleared

/-- A reset of a probe is recorded by it. -/
theorem Node.reset_of_probe {n : Node} {name : String} {script : Callback Status}
    (h : n.cleared = .leaf (.probe name script true)) (s : Service) (w : World) :
    (n.reset s w).2 = w.emit (.observed script.seat name .reset) := by
  cases n with
  | leaf part =>
    cases part with
    | probe name' script' hooks =>
      cases h
      rfl
    | _ => cases h
  | _ => cases h

/-- The resets that are recorded of a leg are carried out. -/
theorem Recorded.renews {s : Service} {path : List Nat} {n m : Node} {leg : Leg}
    {reset : Reset}
    (h : Recorded World.Precedes s path n leg.before leg.after (leg.left, leg.activity))
    (hm : n.at? path = some m) (hreset : reset ∈ leg.activity.resets) :
    leg.Renews s path m reset := by
  have hplace : n.cleared.at? path = some m.cleared := by rw [Node.at?_cleared, hm, Option.map_some]
  have hcarried := h.resets reset hreset
  have hnode : reset.node.cleared = m.cleared := by
    have hsame := hcarried.node
    rw [hplace] at hsame
    exact (Option.some.inj hsame).symm
  have hwasReset : leg.activity.wasReset = true := Activity.wasReset_iff.2 ⟨reset, hreset⟩
  constructor
  case node => exact hnode
  case carried => exact hcarried.carried
  case observed =>
    rintro name script rfl
    rw [hcarried.carried]
    exact Node.reset_of_probe hnode s reset.before
  case begins => exact hcarried.begins
  case late => exact fun turn hturn => h.order turn hturn reset hreset
  case ends => exact hcarried.ends
  case renewed => rw [← hplace, h.renewed hwasReset]

/-- A leg leads to another one: whatever the host does in between takes no events back. -/
def Leg.Leads (leg next : Leg) : Prop := leg.after.Precedes next.before

/-- Where each leg leads to the next, it leads to all later ones. -/
theorem Leg.pairwise_leads {legs : List Leg} (h : legs.IsChain Leads)
    (hpass : ∀ leg ∈ legs, leg.before.Precedes leg.after) : legs.Pairwise Leads := by
  induction legs with
  | nil => exact .nil
  | cons first rest ih =>
    have hrest : rest.Pairwise Leads :=
      ih h.tail fun leg hleg => hpass leg (List.mem_cons_of_mem _ hleg)
    refine .cons (fun leg hleg => ?_) hrest
    cases rest with
    | nil => cases hleg
    | cons second others =>
      have hsecond : first.Leads second := h.rel
      rcases List.mem_cons.1 hleg with rfl | hlater
      · exact hsecond
      · have hthrough : second.before.Precedes second.after :=
          hpass second (List.mem_cons_of_mem _ List.mem_cons_self)
        exact (hsecond.trans hthrough).trans (List.rel_of_pairwise_cons hrest hlater)

namespace Node

/-- Between a completion and the next turn a node is reset.  In a tree without parallel nodes,
repetitions without a limit and references, whose root is a sequence, a selector, a random selector,
a repetition, a retry or a wait for success, let any operations be carried out on the root, each in
any world.  When a node below the root completes in one of its turns, a reset is carried out on the
node itself before it has its next turn: in the course of the operation that gave it the first turn,
or of a later one before that which gives it the second.  Where no events are taken back between the
operations, the first turn has ended before that reset begins, and the reset has ended before the
second turn begins. -/
theorem reset_before_next_turn (plans : Array TreePlan) (depth : Nat) {path : List Nat}
    (hpath : path ≠ []) {n m : Node} (hn : n.Serial) (hroot : n.Restarts)
    (hm : n.at? path = some m) (run : List (Operation × World))
    {before between after : List Leg} {first second : Leg} {done again : Turn}
    (hcourse : n.attendAll (serve (plantFrom plans) depth) path run =
      before ++ first :: (between ++ second :: after))
    (hdone : first.activity.turn = some done) (hcompleted : done.status.isCompleted = true)
    (hagain : second.activity.turn = some again) :
    ∃ leg ∈ first :: between, ∃ reset ∈ leg.activity.resets,
      leg.Renews (serve (plantFrom plans) depth) path m reset ∧
      ((n.attendAll (serve (plantFrom plans) depth) path run).IsChain Leg.Leads →
        done.after.Precedes reset.before ∧ reset.after.Precedes again.before) := by
  have hrecorded := recorded_attendAll (serve_passes_precedes plans depth) path n run
  have hrenewing := renewing_attendAll (serve (plantFrom plans) depth) hpath hn hroot run
    fun h => absurd h Bool.false_ne_true
  rw [hcourse] at hrecorded hrenewing ⊢
  simp only [List.map_append, List.map_cons] at hrenewing
  rw [← List.cons_append] at hrecorded ⊢
  have hpass := fun leg hleg => (hrecorded leg hleg).pass
  simp only [List.forall_mem_append] at hrecorded
  rcases hrecorded with ⟨-, hearlier, hlater⟩
  rcases hrenewing.wasReset_between hdone hcompleted hagain with ⟨_, hactivity, hwasReset⟩
  rw [← List.map_cons] at hactivity
  rcases List.mem_map.1 hactivity with ⟨leg, hleg, rfl⟩
  rcases Activity.wasReset_iff.1 hwasReset with ⟨reset, hreset⟩
  have hrenews := (hearlier leg hleg).renews hm hreset
  refine ⟨leg, hleg, reset, hreset, hrenews, fun hchain => ?_⟩
  have hends := ((hearlier first List.mem_cons_self).turn done hdone).ends
  have hbegins := ((hlater second List.mem_cons_self).turn again hagain).begins
  have hleads := (List.pairwise_append.1 (Leg.pairwise_leads hchain hpass)).2.1
  rcases List.pairwise_append.1 hleads with ⟨hfirst, -, hsecond⟩
  constructor
  · rcases List.mem_cons.1 hleg with rfl | hnext
    · exact hrenews.late done hdone
    · have hon : first.Leads leg := List.rel_of_pairwise_cons hfirst hnext
      exact hends.trans (hon.trans hrenews.begins)
  · have hon : leg.Leads second := hsecond leg hleg second List.mem_cons_self
    exact hrenews.ends.trans (hon.trans hbegins)

/-- A sequence of an inverted probe that fails and a countdown of one tick. -/
def probeThenCountdown : Node :=
  composite (.ofKind .sequence)
    [decorator .inverter (some (.leaf (.probe "p" ⟨0, "p", fun _ => ⟨[], .failure⟩⟩ true))),
    .leaf (.countdown "one" 1 1)]

/-- The probe has its second turn in the third tick; it observes a reset when the second tick
completes the sequence. -/
theorem reset_before_next_turn_probe :
    let s := serve (plantFrom #[]) 1
    let w := World.start (.empty .start) (.empty (.seeded 0))
    let first := probeThenCountdown.tick s w
    let second := first.state.tick s first.world
    let third := second.state.tick s second.world
    let legs := probeThenCountdown.attendAll s [0, 0]
      [(.tick, w), (.tick, first.world), (.tick, second.world)]
    probeThenCountdown.Serial ∧ probeThenCountdown.Restarts ∧ legs.IsChain Leg.Leads ∧
      third.world.observedAt 0 = [.tick, .reset, .tick] ∧
      ∃ done again : Turn, ∃ reset : Reset,
        legs.map (fun leg => leg.activity.turn) = [some done, none, some again] ∧
        done.status = .failure ∧
        reset.after = reset.before.emit (.observed 0 "p" .reset) ∧
        done.after.Precedes reset.before ∧ reset.after.Precedes again.before := by
  intro s w first second third legs
  have hserial : probeThenCountdown.Serial := by
    refine .composite trivial fun child hchild => ?_
    rcases List.mem_cons.1 hchild with rfl | hchild
    · refine .decorator rfl fun inner hinner => ?_
      cases hinner
      exact .leaf trivial
    · rw [List.mem_singleton.1 hchild]
      exact .leaf trivial
  have hchain : legs.IsChain Leg.Leads :=
    .cons_cons (.refl first.world) (.cons_cons (.refl second.world) (.singleton _))
  have hobserved : third.world.observedAt 0 = [.tick, .reset, .tick] := by decide +kernel
  have hstatuses : legs.map (fun leg => leg.activity.turn.map Turn.status) =
      [some .failure, none, some .failure] := by decide +kernel
  have hcourse : ∃ a b c : Leg, legs = [] ++ a :: ([b] ++ c :: []) := ⟨_, _, _, rfl⟩
  rcases hcourse with ⟨a, b, c, hcourse⟩
  simp only [hcourse, List.nil_append, List.cons_append, List.map_cons, List.map_nil,
    List.cons.injEq, Option.map_eq_some_iff, Option.map_eq_none_iff, and_true] at hstatuses
  rcases hstatuses with ⟨⟨done, hdone, hstatus⟩, hnone, ⟨again, hagain, -⟩⟩
  have hcompleted : done.status.isCompleted = true := by
    rw [hstatus]
    rfl
  have hturns : legs.map (fun leg => leg.activity.turn) = [some done, none, some again] := by
    simp only [hcourse, List.nil_append, List.cons_append, List.map_cons, List.map_nil, hdone,
      hnone, hagain]
  have hpath : ([0, 0] : List Nat) ≠ [] := List.cons_ne_nil 0 [0]
  rcases reset_before_next_turn #[] 1 hpath hserial trivial rfl _ hcourse hdone hcompleted hagain
    with ⟨leg, -, reset, -, hrenews, hbetween⟩
  rcases hbetween hchain with ⟨hbefore, hafter⟩
  exact ⟨hserial, trivial, hchain, hobserved, done, again, reset, hturns, hstatus,
    hrenews.observed _ _ rfl, hbefore, hafter⟩

end Node

end TickTree
