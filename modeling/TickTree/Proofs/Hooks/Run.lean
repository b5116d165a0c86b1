import TickTree.Proofs.Hooks.Balance

/-!
# Balance of hooks

A dynamic sub-tree starts and finishes its targets, and forwarding trees pass this on to the custom
node at the end.  Whichever trees a run passes through, the custom node is never started twice
without a finish in between.  Where its tree is found by dynamic sub-trees only, it is not finished
without having been started either.

Main results:

- Theorem `ForwardingForest.hooks_balanced`: the hooks of a custom node are balanced.
- Theorem `ForwardingForest.finish_without_start`: below a sub-tree they may not be.
-/

namespace TickTree

namespace ForwardingForest

variable {f : ForwardingForest} {s : Service} {w : World} {path : List TreeId}

/-! ## Runs -/

/-- A fresh forest is poised for someone who holds nothing, and its custom node is closed. -/
theorem poised_origin (f : ForwardingForest) :
    f.Poised f.origin none [] ∧ f.Phase f.origin [] := by
  have hclosed : ¬ f.origin.IsOpen f.seat := by
    unfold World.IsOpen seat
    rw [f.unobserved]
    exact fun h => Option.some_ne_none _ h.symm
  have hheld : ∀ tree root, f.origin.trees.get tree = some ⟨root, false⟩ → root.held? = none :=
    fun tree root hroot => (f.forwards tree _ hroot).2.held?_eq_none
  refine ⟨⟨?_, rfl, .nil, List.nodup_nil, fun tree root hroot _ => hheld tree root hroot, ?_, ?_⟩,
    phase_of_closed hclosed fun _ => List.not_mem_nil⟩
  · intro tree
    rcases hfound : f.origin.trees.get tree with _ | found
    · rfl
    · exact congrArg some (f.forwards tree found hfound).2.cleared
  · intro tree root hroot _ r hr _
    rw [← Node.held?_of_reference hr, hheld tree root hroot]
    exact (Option.some_ne_none _).symm
  · constructor
    · unfold seat
      rw [f.unobserved]
      exact .nil
    · unfold seat
      rw [f.unobserved]
      exact fun _ => ⟨.nil, (Option.some_ne_none _).symm⟩

/-- A tick or a reset of a dynamic sub-tree leads from one path to another. -/
theorem Balances.perform_dynamic (hs : f.Balances s) {r : Reference} (hkind : r.kind = .dynamic)
    (hchooses : r.supplier.Chooses) {operation : Operation}
    (hoperation : operation = .tick ∨ operation = .reset) (h : f.Poised w r.held path)
    (hphase : f.Phase w path)
    (hcalm : ¬ (Node.perform s operation (.reference r) w).2.2.HasRefusal) :
    ∃ after,
      f.Poised (Node.perform s operation (.reference r) w).2.2 (r.next s operation w).held after ∧
      f.Phase (Node.perform s operation (.reference r) w).2.2 after := by
  rcases hoperation with rfl | rfl
  · have hspares : f.SparesReference r := by
      constructor
      · intro _ hsticky
        rw [hkind] at hsticky
        cases hsticky
      · intro _ hsticky
        rw [hkind] at hsticky
        cases hsticky
    rcases hs.tick_reference hchooses hspares h hphase hcalm with ⟨after, hafter, hphase, -⟩
    exact ⟨after, hafter, hphase⟩
  · rcases hs.release hkind h hphase .failure hcalm with ⟨hnothing, hclosed⟩
    exact ⟨[], hnothing, phase_of_closed hclosed fun _ => List.not_mem_nil⟩

end ForwardingForest

/-- Carries out operations on a node, one after the other. -/
def Node.performAll (s : Service) : List Operation → Node → World → Node × World
  | [], n, w => (n, w)
  | operation :: rest, n, w =>
    let performed := n.perform s operation w
    performAll s rest performed.2.1 performed.2.2

/-- A property that the service keeps is kept by all operations together. -/
theorem Node.performAll_keeps {P : World → Prop} {s : Service} (hP : World.Invariant P)
    (hs : s.Keeps P) (operations : List Operation) (n : Node) {w : World} (hw : P w) :
    P (n.performAll s operations w).2 := by
  induction operations generalizing n w with
  | nil => exact hw
  | cons operation rest ih => exact ih _ (n.perform_keeps hP hs operation hw)

namespace ForwardingForest

variable {f : ForwardingForest} {plans : Array TreePlan} {depth : Nat}

/-- Ticks and resets of a dynamic sub-tree lead from one path to another. -/
theorem performAll_dynamic {r : Reference} (hkind : r.kind = .dynamic)
    (hchooses : r.supplier.Chooses) (operations : List Operation)
    (hoperations : ∀ operation ∈ operations, operation = .tick ∨ operation = .reset)
    {w : World} {path : List TreeId} (h : f.Poised w r.held path) (hphase : f.Phase w path)
    (hcalm : ¬ (Node.performAll (serve (plantFrom plans) depth) operations
      (.reference r) w).2.HasRefusal) :
    ∃ held after, f.Poised (Node.performAll (serve (plantFrom plans) depth) operations
      (.reference r) w).2 held after := by
  let s := serve (plantFrom plans) depth
  induction operations generalizing r w path with
  | nil => exact ⟨r.held, path, h⟩
  | cons operation rest ih =>
    have hfirst := hoperations operation List.mem_cons_self
    have hrest := fun operation h => hoperations operation (List.mem_cons_of_mem _ h)
    simp only [Node.performAll, Reference.perform_reference] at hcalm ⊢
    have hnow : ¬ (Node.perform s operation (.reference r) w).2.2.HasRefusal := by
      intro hrefusal
      apply hcalm
      have hkeeps := serve_keeps World.growth_hasRefusal (fun _ _ hw => hw) (fun _ _ hw => hw)
        plans depth
      exact Node.performAll_keeps World.growth_hasRefusal.toInvariant hkeeps rest _ hrefusal
    rcases (f.serve_balances plans depth).perform_dynamic hkind hchooses hfirst h hphase hnow with
      ⟨after, hafter, hphase⟩
    have hnext := r.kind_next s operation w
    exact ih (hnext.1.trans hkind) (hnext.2 ▸ hchooses) hrest hafter hphase hcalm

/-- The hooks of a custom node are balanced.  A fresh dynamic sub-tree chooses among the trees of a
fresh forest, whose roots do nothing but forward, and is ticked and reset in any order without any
request being refused.  Then the custom node at the end of one of the trees is never started twice
without a finish in between.  Where no sub-tree finds the custom node's own tree, starts and
finishes take turns and begin with a start. -/
theorem hooks_balanced (f : ForwardingForest) (plans : Array TreePlan) (depth : Nat)
    (name : String) (supplier : Supplier (Option Supply)) (hchooses : supplier.Chooses)
    (operations : List Operation)
    (hoperations : ∀ operation ∈ operations, operation = .tick ∨ operation = .reset) :
    let final := (Node.performAll (serve (plantFrom plans) depth) operations
      (.reference (.new .dynamic name supplier)) f.origin).2
    ¬ final.HasRefusal →
      ((final.hooks f.seat).IsChain fun a b => a ≠ .start ∨ b ≠ .start) ∧
      (f.Spared → (final.hooks f.seat).IsChain (· ≠ ·) ∧
        (final.hooks f.seat).head? ≠ some .finish) := by
  intro final hcalm
  rcases f.poised_origin with ⟨hpoised, hphase⟩
  rcases performAll_dynamic (r := .new .dynamic name supplier) rfl hchooses operations hoperations
    hpoised hphase hcalm with ⟨held, after, hafter⟩
  exact ⟨hafter.fair.starts, hafter.fair.turns⟩

/-! ## A forest of two trees -/

/-- The script of a custom node that always runs. -/
def restless : Callback Status := ⟨0, "restless", fun _ => ⟨[], .running⟩⟩

/-- The world of a custom node and of a reference to its tree. -/
def pairWorld (kind : Reference.Kind) : World :=
  let empty := World.start (.empty .start) (.empty (.seeded 0))
  let custom := empty.addTree (.leaf (.probe "restless" restless true))
  (custom.2.addTree (.reference (.new kind "forward" (.constant (some (.existing 0)))))).2

/-- There are no other trees. -/
theorem get_pairWorld {kind : Reference.Kind} {tree : TreeId} {found : Tree}
    (h : (pairWorld kind).trees.get tree = some found) :
    tree = 0 ∧ found = ⟨.leaf (.probe "restless" restless true), false⟩ ∨
      tree = 1 ∧
        found = ⟨.reference (.new kind "forward" (.constant (some (.existing 0)))), false⟩ := by
  match tree, h with
  | 0, h => exact .inl ⟨rfl, (Option.some.inj h).symm⟩
  | 1, h => exact .inr ⟨rfl, (Option.some.inj h).symm⟩
  | tree + 2, h => cases h

/-- The forest of a custom node and of a reference to its tree. -/
def pair (kind : Reference.Kind) : ForwardingForest where
  origin := pairWorld kind
  forwards := by
    intro tree found h
    have hquiet : restless.IsQuiet := fun _ _ heffect => absurd heffect List.not_mem_nil
    have hchooses : (Supplier.constant (some (Supply.existing 0))).Chooses :=
      ⟨trivial, fun _ h => by cases h⟩
    rcases get_pairWorld h with ⟨-, rfl⟩ | ⟨-, rfl⟩
    · exact ⟨rfl, .probe hquiet⟩
    · exact ⟨rfl, .reference hchooses⟩
  custom := 0
  root := .leaf (.probe "restless" restless true)
  name := "restless"
  script := restless
  root_eq := rfl
  bottom_eq := rfl
  alone := by
    intro tree found name script h hbottom _
    rcases get_pairWorld h with ⟨htree, -⟩ | ⟨-, rfl⟩
    · exact htree
    · cases hbottom
  unobserved := rfl

/-- Ticks and resets of a dynamic sub-tree that always finds the reference of a pair. -/
def pairRun (kind : Reference.Kind) (operations : List Operation) : World :=
  (Node.performAll (serve (plantFrom #[]) 2) operations
    (.reference (.new .dynamic "outer" (.constant (some (.existing 1))))) (pair kind).origin).2

/-- Two dynamic sub-trees in a row keep the hooks of the custom node balanced. -/
theorem hooks_balanced_pair :
    (pairRun .dynamic [.tick, .reset, .tick]).hooks (pair .dynamic).seat =
        [.start, .finish, .start] ∧
      ((pairRun .dynamic [.tick, .reset, .tick]).hooks (pair .dynamic).seat).IsChain (· ≠ ·) := by
  have hchooses : (Supplier.constant (some (Supply.existing 1))).Chooses :=
    ⟨trivial, fun _ h => by cases h⟩
  have hspared : (pair .dynamic).Spared := by
    intro tree found r supply hfound hbottom hsticky
    rcases get_pairWorld hfound with ⟨-, rfl⟩ | ⟨-, rfl⟩
    · cases hbottom
    · cases hbottom
      cases hsticky
  have hcalm : ¬ (pairRun .dynamic [.tick, .reset, .tick]).HasRefusal :=
    World.not_hasRefusal (by decide +kernel)
  have hoperations : ∀ operation ∈ [Operation.tick, .reset, .tick],
      operation = .tick ∨ operation = .reset := by decide
  have hbalanced := hooks_balanced (pair .dynamic) #[] 2 "outer" (.constant (some (.existing 1)))
    hchooses [.tick, .reset, .tick] hoperations hcalm
  exact ⟨by decide +kernel, (hbalanced.2 hspared).1⟩

/-- A sub-tree to which a dynamic sub-tree switches passes no start on, since it finds its target
only when it is ticked; but it passes the finish on. -/
theorem finish_without_start :
    ¬ (pairRun .sticky [.tick, .reset]).HasRefusal ∧
      (pairRun .sticky [.tick, .reset]).hooks (pair .sticky).seat = [.finish] :=
  ⟨World.not_hasRefusal (by decide +kernel), by decide +kernel⟩

end ForwardingForest

end TickTree
