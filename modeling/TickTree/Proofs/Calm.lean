import TickTree.Proofs.Reset.Target

/-!
# Operations other than ticks

Resets, starts and finishes are calm: they run nothing.  Of the nodes that such an operation reaches
some are left as they are, some let a target go, and some return to their first state; it reaches
the node itself and what can be reached from there over the targets that references hold.  All
else in the world stays as it is, and the history gains observations and refused requests only.

The requests that calm operations make of each other's trees can form cycles.  So the proof is by
induction on the nesting depth, and what is reached is fixed at the beginning: no calm operation
adds a target, so nothing further comes within reach on the way.

Main results:

- Theorem `serve_eases`: a calm request eases what can be reached from its tree.
- Theorem `serve_eq_serveTicking`: calm requests go the same way however ticks are answered.
- Theorem `calm_operations_only_clear`: calm operations call and draw nothing, tick no node, move no
  clock, and clear at most the states of nodes within reach.
-/

namespace TickTree

/-! ## Eased nodes -/

namespace Node

/-- A node that is told to stop being an active target: a dynamic sub-tree lets its target go, and
every other node stays as it is. -/
def released : Node → Node
  | reference part => reference (part.after .finish)
  | embedded tag root => embedded tag (released root)
  | n => n

/-- What calm operations may leave of a node: the node as it is, without the target that it stands
for, or in its first state. -/
inductive Eased (n : Node) : Node → Prop
  | kept : Eased n n
  | released : Eased n n.released
  | cleared : Eased n n.cleared

/-- A finish leaves the released node. -/
theorem fst_finish (s : Service) (n : Node) (w : World) : (n.finish s w).1 = n.released := by
  induction n with
  | leaf part => rfl
  | composite part children => rfl
  | decorator part child => rfl
  | reference part => rfl
  | embedded tag root ih => simp only [finish, released, ih]

/-- A node is released once. -/
theorem released_released (n : Node) : n.released.released = n.released := by
  induction n with
  | leaf part => rfl
  | composite part children => rfl
  | decorator part child => rfl
  | reference part =>
    rcases part with ⟨kind, name, supplier, held⟩
    cases kind <;> rfl
  | embedded tag root ih => simp only [released, ih]

/-- A node that was released has the same first state. -/
theorem cleared_released (n : Node) : n.released.cleared = n.cleared := by
  induction n with
  | leaf part => rfl
  | composite part children => rfl
  | decorator part child => rfl
  | reference part => simp only [released, cleared, Reference.letGo_after]
  | embedded tag root ih => simp only [released, cleared, ih]

/-- A node in its first state has nothing to release. -/
theorem released_cleared (n : Node) : n.cleared.released = n.cleared := by
  induction n with
  | leaf part => rfl
  | composite part children => rfl
  | decorator part child => rfl
  | reference part =>
    rcases part with ⟨kind, name, supplier, held⟩
    cases kind <;> rfl
  | embedded tag root ih => simp only [released, cleared, ih]

/-- What is left of an eased node is the node eased. -/
theorem Eased.trans {n m k : Node} (h : n.Eased m) (hk : m.Eased k) : n.Eased k := by
  cases hk with
  | kept => exact h
  | released =>
    cases h with
    | kept => exact .released
    | released =>
      rw [released_released]
      exact .released
    | cleared =>
      rw [released_cleared]
      exact .cleared
  | cleared =>
    cases h with
    | kept => exact .cleared
    | released =>
      rw [cleared_released]
      exact .cleared
    | cleared =>
      rw [cleared_cleared]
      exact .cleared

/-- Releasing a node adds no target. -/
theorem mem_targets_of_released {n : Node} {tree : TreeId} (h : tree ∈ n.released.targets) :
    tree ∈ n.targets := by
  induction n with
  | leaf part => exact h
  | composite part children => exact h
  | decorator part child => exact h
  | reference part =>
    rcases part with ⟨kind, name, supplier, held⟩
    cases kind with
    | sticky => exact h
    | dynamic => exact absurd h List.not_mem_nil
  | embedded tag root ih => exact ih h

/-- Easing a node adds no target. -/
theorem Eased.mem_targets {n m : Node} {tree : TreeId} (h : n.Eased m) (htree : tree ∈ m.targets) :
    tree ∈ n.targets := by
  cases h with
  | kept => exact htree
  | released => exact mem_targets_of_released htree
  | cleared =>
    rw [targets_cleared] at htree
    exact absurd htree List.not_mem_nil

/-- Calm operations give no status. -/
theorem fst_perform_of_ne_tick (s : Service) {operation : Operation} (h : operation ≠ .tick)
    (n : Node) (w : World) : (n.perform s operation w).1 = .done := by
  cases operation with
  | tick => exact absurd rfl h
  | reset => rfl
  | start => rfl
  | finish => rfl

/-- What calm operations leave of a node depends on nothing else. -/
theorem perform_eq_of_ne_tick (s t : Service) {operation : Operation} (h : operation ≠ .tick)
    (n : Node) (v w : World) :
    (n.perform s operation v).2.1 = (n.perform t operation w).2.1 := by
  cases operation with
  | tick => exact absurd rfl h
  | reset => simp only [perform, fst_reset]
  | start => simp only [perform, fst_start]
  | finish => simp only [perform, fst_finish]

/-- Calm operations ease a node. -/
theorem eased_perform (s : Service) {operation : Operation} (h : operation ≠ .tick) (n : Node)
    (w : World) : n.Eased (n.perform s operation w).2.1 := by
  cases operation with
  | tick => exact absurd rfl h
  | reset =>
    simp only [perform, fst_reset]
    exact .cleared
  | start =>
    simp only [perform, fst_start]
    exact .kept
  | finish =>
    simp only [perform, fst_finish]
    exact .released

end Node

/-- A shared tree with its root eased. -/
def Tree.Eased (x y : Tree) : Prop := x.root.Eased y.root ∧ x.inUse = y.inUse

/-! ## Within reach -/

/-- The trees that can be reached from certain trees over the targets that references hold. -/
inductive World.InReach (w : World) (first : List TreeId) : TreeId → Prop
  | first {tree : TreeId} (h : tree ∈ first) : InReach w first tree
  | further {tree target : TreeId} (h : InReach w first tree)
    (htarget : w.HasRoot tree fun root => target ∈ root.targets) : InReach w first target

/-- Fewer first trees and fewer targets reach less far. -/
theorem World.InReach.mono {v w : World} {first first' : List TreeId} {tree : TreeId}
    (h : v.InReach first tree) (hfirst : ∀ tree ∈ first, w.InReach first' tree)
    (htargets : ∀ tree target, v.HasRoot tree (fun root => target ∈ root.targets) →
      w.HasRoot tree fun root => target ∈ root.targets) : w.InReach first' tree := by
  induction h with
  | first h => exact hfirst _ h
  | further _ htarget ih => exact .further ih (htargets _ _ htarget)

/-! ## Eased worlds -/

/-- What may be recorded in calm operations: a refused request, and that a probe observes an
operation other than a tick. -/
inductive Event.IsCalm : Event → Prop
  | refused : IsCalm .refusal
  | observed (seat : Nat) (name : String) {operation : Operation} (h : operation ≠ .tick) :
    IsCalm (.observed seat name operation)

/-- A world without trees has no tree beyond the stored ones. -/
theorem Table.blank_noTrees : (Table.empty (none : Option Tree)).blank = none := rfl

/-- All of a world but its trees and its history: the clocks, the random sources, the numbers of
calls, the names of trees, the loose nodes, the numbers given out and the fault. -/
def World.setting (w : World) : World :=
  { w with
    trees := Table.empty none
    trees_blank := Table.blank_noTrees
    history := [] }

/-- What calm operations may leave of a world when they reach certain trees.  The setting is the
same, only calm events are recorded, trees within reach are eased, and all others stay as they
are. -/
structure World.EasedTo (reach : TreeId → Prop) (v w : World) : Prop where
  setting : w.setting = v.setting
  history : ∃ records, (∀ event ∈ records, event.IsCalm) ∧ w.history = records ++ v.history
  trees : ∀ tree, Option.Rel Tree.Eased (v.trees.get tree) (w.trees.get tree)
  beyond : ∀ tree, ¬ reach tree → w.trees.get tree = v.trees.get tree

namespace World

variable {reach reach' : TreeId → Prop} {u v w : World} {tree : TreeId} {root : Node}

theorem EasedTo.refl (reach : TreeId → Prop) (w : World) : w.EasedTo reach w where
  setting := rfl
  history := ⟨[], fun _ h => absurd h List.not_mem_nil, rfl⟩
  trees tree := by
    cases w.trees.get tree with
    | none => exact .none
    | some found => exact .some ⟨.kept, rfl⟩
  beyond _ _ := rfl

theorem EasedTo.trans (h : u.EasedTo reach v) (h' : v.EasedTo reach' w)
    (hreach : ∀ tree, reach' tree → reach tree) : u.EasedTo reach w where
  setting := h'.setting.trans h.setting
  history := by
    rcases h.history with ⟨first, hfirst, hv⟩
    rcases h'.history with ⟨second, hsecond, hw⟩
    refine ⟨second ++ first, fun event hevent => ?_, by rw [hw, hv, List.append_assoc]⟩
    exact (List.mem_append.1 hevent).elim (hsecond event) (hfirst event)
  trees tree := by
    have hfirst := h.trees tree
    have hsecond := h'.trees tree
    generalize u.trees.get tree = x, v.trees.get tree = y, w.trees.get tree = z
      at hfirst hsecond
    cases hfirst with
    | none => exact hsecond
    | some hxy =>
      cases hsecond with
      | some hyz => exact .some ⟨hxy.1.trans hyz.1, hxy.2.trans hyz.2⟩
  beyond tree htree := (h'.beyond tree fun hwithin => htree (hreach tree hwithin)).trans
    (h.beyond tree htree)

/-- Recording a calm event eases a world. -/
theorem EasedTo.emit (h : v.EasedTo reach w) {event : Event} (hevent : event.IsCalm) :
    v.EasedTo reach (w.emit event) where
  setting := h.setting
  history := by
    rcases h.history with ⟨records, hrecords, hw⟩
    exact ⟨event :: records, List.forall_mem_cons.2 ⟨hevent, hrecords⟩, congrArg _ hw⟩
  trees := h.trees
  beyond := h.beyond

/-- An eased world has no new targets. -/
theorem EasedTo.hasRoot (h : v.EasedTo reach w) {tree target : TreeId}
    (htarget : w.HasRoot tree fun root => target ∈ root.targets) :
    v.HasRoot tree fun root => target ∈ root.targets := by
  rcases htarget with ⟨root, inUse, hroot, htarget⟩
  have hrel := h.trees tree
  rw [hroot] at hrel
  generalize hfound : v.trees.get tree = found at hrel
  cases hrel with
  | @some found _ heased => exact ⟨found.root, found.inUse, hfound, heased.1.mem_targets htarget⟩

/-- In an eased world nothing further is within reach. -/
theorem EasedTo.inReach {first first' : List TreeId} (h : v.EasedTo (v.InReach first) w)
    (hfirst : ∀ tree ∈ first', v.InReach first tree) {tree : TreeId}
    (htree : w.InReach first' tree) : v.InReach first tree :=
  htree.mono hfirst fun _ _ => h.hasRoot

/-- Taking a tree into use changes no root. -/
theorem hasRoot_of_holdTree {C : Node → Prop} (hfree : w.trees.get tree = some ⟨root, false⟩)
    {other : TreeId} (h : (w.holdTree tree root).HasRoot other C) : w.HasRoot other C := by
  rcases h with ⟨found, inUse, hfound, hC⟩
  by_cases hother : other = tree
  · subst hother
    rw [show (w.holdTree other root).trees.get other = _ from Table.get_set_self _ _ _] at hfound
    cases hfound
    exact ⟨root, false, hfree, hC⟩
  · rw [get_holdTree_of_ne hother] at hfound
    exact ⟨found, inUse, hfound, hC⟩

/-- A use of a tree in which its root is eased eases what can be reached from the tree. -/
theorem EasedTo.putTree {root' : Node} (hfree : w.trees.get tree = some ⟨root, false⟩)
    (hroot : root.Eased root')
    (h : (w.holdTree tree root).EasedTo ((w.holdTree tree root).InReach root.targets) u) :
    w.EasedTo (w.InReach [tree]) (u.putTree tree root') where
  setting := h.setting
  history := h.history
  trees other := by
    by_cases hother : other = tree
    · subst hother
      rw [get_putTree_self, hfree]
      exact .some ⟨hroot, rfl⟩
    · have hrel := h.trees other
      rw [get_holdTree_of_ne hother] at hrel
      rwa [get_putTree_of_ne hother]
  beyond other hother := by
    have hne : other ≠ tree := fun heq => hother (.first (List.mem_singleton.2 heq))
    have hbeyond : ¬ (w.holdTree tree root).InReach root.targets other := by
      intro hwithin
      refine hother (hwithin.mono (fun target htarget => ?_) fun _ _ => hasRoot_of_holdTree hfree)
      exact .further (.first List.mem_cons_self) ⟨root, false, hfree, htarget⟩
    rw [get_putTree_of_ne hne, h.beyond other hbeyond, get_holdTree_of_ne hne]

end World

/-! ## Calm requests -/

/-- Calm operations ease what can be reached from the targets of a node, when requests to each of
them do so. -/
theorem Node.eases {s : Service}
    (hs : ∀ asked, asked ≠ .tick → ∀ (tree : TreeId) (w : World),
      w.EasedTo (w.InReach [tree]) (s.ask asked tree w).2)
    {operation : Operation} (h : operation ≠ .tick) (n : Node) (w : World) :
    w.EasedTo (w.InReach n.targets) (n.perform s operation w).2.2 := by
  refine n.calm_keeps (P := fun u => w.EasedTo (w.InReach n.targets) u)
    (fun seat name _ hu => hu.emit (.observed seat name h)) h ?_ (.refl _ w)
  intro asked hasked tree htree u hu
  refine hu.trans (hs asked hasked tree u) fun other hother => ?_
  exact hu.inReach (fun first hfirst => .first (List.mem_singleton.1 hfirst ▸ htree)) hother

/-- Refusing a request eases a world. -/
theorem World.easedTo_refuse (reach : TreeId → Prop) (w : World) : w.EasedTo reach w.refuse :=
  (EasedTo.refl reach w).emit .refused

/-- A calm request eases what can be reached from its tree. -/
theorem serve_eases (plant : PlanId → World → Option TreeId × World) (depth : Nat)
    {operation : Operation} (h : operation ≠ .tick) (tree : TreeId) (w : World) :
    w.EasedTo (w.InReach [tree]) ((serve plant depth).ask operation tree w).2 := by
  induction depth generalizing operation tree w with
  | zero => exact w.easedTo_refuse _
  | succ depth ih =>
    rw [serve_ask]
    refine World.withTree_keeps (.refl _ w) (w.easedTo_refuse _) fun root hfree => ?_
    have hs : ∀ asked, asked ≠ .tick → ∀ (tree : TreeId) (w : World),
        w.EasedTo (w.InReach [tree]) ((serve plant depth).ask asked tree w).2 :=
      fun asked hasked tree w => ih hasked tree w
    exact .putTree hfree (root.eased_perform _ h _) (root.eases hs h _)

/-- A calm request is carried out or refused. -/
theorem serve_ask_of_ne_tick (plant : PlanId → World → Option TreeId × World) (depth : Nat)
    {operation : Operation} (h : operation ≠ .tick) (tree : TreeId) (w : World) :
    ((serve plant depth).ask operation tree w).1 = .done ∨
      ((serve plant depth).ask operation tree w).1 = .refused := by
  rcases serve_ask_cases plant depth operation tree w with
    ⟨further, root, -, -, hasked⟩ | hasked | ⟨-, hasked⟩
  · rw [hasked]
    exact .inl (root.fst_perform_of_ne_tick _ h _)
  · exact .inr (congrArg Prod.fst hasked)
  · exact .inr (congrArg Prod.fst hasked)

/-! ## Ticks that are not asked for -/

/-- The service of a forest in which ticks are answered in some other way, at every level. -/
def serveTicking (onTick : TreeId → World → Answer × World)
    (plant : PlanId → World → Option TreeId × World) : (depth : Nat) → Service
  | 0 =>
    { ask := fun operation tree w =>
        if operation = .tick then onTick tree w else (.refused, w.refuse)
      plant := plant }
  | depth + 1 =>
    { ask := fun operation tree w =>
        if operation = .tick then
          onTick tree w
        else
          let used := w.withTree tree (Node.perform (serveTicking onTick plant depth) operation)
          (used.1.getD .refused, used.2)
      plant := plant }

section

variable (onTick : TreeId → World → Answer × World)
  (plant plant' : PlanId → World → Option TreeId × World) (depth : Nat)

/-- Calm requests go the same way however ticks are answered and plans are carried out. -/
theorem serve_eq_serveTicking {operation : Operation} (h : operation ≠ .tick) :
    Service.AlikeAt (World.Itself fun _ => True) (serve plant depth)
      (serveTicking onTick plant' depth) operation := by
  induction depth generalizing operation with
  | zero =>
    intro v w tree hw
    simp only [serve, serveTicking, if_neg h]
    exact ⟨rfl, hw.step (f := World.refuse) fun _ => trivial⟩
  | succ depth ih =>
    intro v w tree hw
    rcases hw with ⟨rfl, -⟩
    have hused : Coupled (World.Itself fun _ => True)
        (v.withTree tree (Node.perform (serve plant depth) operation))
        (v.withTree tree (Node.perform (serveTicking onTick plant' depth) operation)) := by
      apply World.withTree_coupled rfl ⟨rfl, trivial⟩ ⟨rfl, trivial⟩
      intro root _
      have hperformed := root.perform_coupled_of_ne_tick World.coupling_itself
        (fun _ hasked => ih hasked) h (v := v.holdTree tree root) ⟨rfl, trivial⟩
      rcases hperformed with ⟨hanswer, hleft, hafter, -⟩
      exact ⟨hanswer, by rw [hleft, hafter], trivial⟩
    rw [serve_ask, hused.1]
    simp only [serveTicking, if_neg h]
    exact ⟨rfl, hused.2⟩

/-- Calm operations on a node go the same way however ticks are answered. -/
theorem Node.perform_eq_serveTicking {operation : Operation} (h : operation ≠ .tick) (n : Node)
    (w : World) :
    n.perform (serve plant depth) operation w =
      n.perform (serveTicking onTick plant' depth) operation w := by
  have hperformed := n.perform_coupled_of_ne_tick World.coupling_itself
    (fun _ hasked => serve_eq_serveTicking onTick plant plant' depth hasked) h
    (v := w) ⟨rfl, trivial⟩
  rcases hperformed with ⟨hanswer, hleft, hafter, -⟩
  exact Prod.ext hanswer (Prod.ext hleft hafter)

end

/-! ## Calm operations only clear -/

/-- Operations other than ticks run nothing.  Take any forest, whatever its trees refer to and
however their references form cycles, in any state, and reset, start or finish a node or a shared
tree.  The operation goes the same way however ticks of trees are answered and plans are carried
out, at every level: it ticks nothing and plants nothing.  Afterwards all clocks, random sources,
numbers of calls and all else that belongs to no tree are the same.  The only new records are those
of refused requests and of what probes observe.  The node and each tree that can be reached over
held targets is as it was, or without the target it stands for, or in its first state; every tree
beyond is as it was. -/
theorem calm_operations_only_clear (onTick : TreeId → World → Answer × World)
    (plant plant' : PlanId → World → Option TreeId × World) (depth : Nat) {operation : Operation}
    (h : operation ≠ .tick) (w : World) :
    let s := serve plant depth
    let t := serveTicking onTick plant' depth
    (∀ n : Node, ∃ left after, n.perform s operation w = (.done, left, after) ∧
      n.perform t operation w = (.done, left, after) ∧
      n.Eased left ∧ w.EasedTo (w.InReach n.targets) after) ∧
    ∀ tree : TreeId, ∃ answer after, s.ask operation tree w = (answer, after) ∧
      t.ask operation tree w = (answer, after) ∧
      (answer = .done ∨ answer = .refused) ∧ w.EasedTo (w.InReach [tree]) after := by
  intro s t
  constructor
  · intro n
    have hsame : n.perform s operation w = n.perform t operation w :=
      n.perform_eq_serveTicking onTick plant plant' depth h w
    have hdone : (n.perform s operation w).1 = .done := n.fst_perform_of_ne_tick s h w
    refine ⟨_, _, Prod.ext hdone rfl, hsame ▸ Prod.ext hdone rfl, n.eased_perform s h w, ?_⟩
    exact n.eases (fun _ hasked => serve_eases plant depth hasked) h w
  · intro tree
    rcases serve_eq_serveTicking onTick plant plant' depth h tree (v := w) ⟨rfl, trivial⟩ with
      ⟨hanswer, hafter, -⟩
    exact ⟨_, _, rfl, Prod.ext hanswer.symm hafter.symm, serve_ask_of_ne_tick plant depth h tree w,
      serve_eases plant depth h tree w⟩

/-- Two trees hold each other.  A reset of the first one clears both, and the request with which the
second one lets the first one go is refused. -/
theorem calm_operations_only_clear_cycle :
    let first := Node.reference ⟨.dynamic, "first", .constant (some (.existing 1)), some 1⟩
    let second := Node.composite (.chain .sequence "second" 1)
      [.leaf (.countdown "count" 3 1),
        .reference ⟨.sticky, "back", .constant (some (.existing 0)), some 0⟩]
    let empty := World.start (.empty .start) (.empty (.seeded 0))
    let w := (empty.putTree 0 first).putTree 1 second
    let after := ((serve (plantFrom #[]) 3).ask .reset 0 w).2
    Operation.reset ≠ .tick ∧ w.EasedTo (w.InReach [0]) after ∧ w.InReach [0] 1 ∧
      after.trees.get 0 = some ⟨first.cleared, false⟩ ∧
      after.trees.get 1 = some ⟨second.cleared, false⟩ ∧ after.history = [.refusal] := by
  have hreset : Operation.reset ≠ .tick := by decide
  have heased : ∀ w : World,
      w.EasedTo (w.InReach [0]) ((serve (plantFrom #[]) 3).ask .reset 0 w).2 := by
    intro w
    rcases calm_operations_only_clear (fun _ w => (.refused, w)) (plantFrom #[]) (plantFrom #[]) 3
      hreset w with ⟨-, hshared⟩
    rcases hshared 0 with ⟨answer, left, hasked, -, -, heased⟩
    rw [hasked]
    exact heased
  exact ⟨hreset, heased _, .further (.first List.mem_cons_self) ⟨_, false, rfl, by decide⟩, rfl,
    rfl, rfl⟩

end TickTree
