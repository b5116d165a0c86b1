import Mathlib.Data.Finset.Card
import Mathlib.Data.Finset.Range
import TickTree.Host
import TickTree.Proofs.Forest

/-!
# How deep requests are nested

A forest in which no trees are made answers requests by a recursion that has no limit in itself: the
request takes a tree into use, and the root, its references and its callbacks make further requests
until the tree is put back.  The recursion ends because every request inside another one takes one
of the free trees.  What else happens meanwhile plays no part, so trees may refer to each other in
any pattern and callbacks may ask any tree.

Main results:

- Theorem `serveWithin_alike`: with room for the free trees no request is nested further.
- Theorem `Host.ask_deeper`: the depth of a host without plans is never reached.
- Theorem `forest_unlimited`: the recursion without a limit has a solution.
- Theorem `forest_ends`: it is the only one, and no more trees than there are work at a time.
-/

namespace TickTree

/-! ## Free trees -/

namespace World

/-- All trees that are not in use are among the given ones. -/
def FreeWithin (free : Finset TreeId) (w : World) : Prop :=
  ∀ tree root, w.trees.get tree = some ⟨root, false⟩ → tree ∈ free

/-- Taking a tree into use leaves one free tree less. -/
theorem FreeWithin.holdTree {free : Finset TreeId} {w : World} (h : w.FreeWithin free)
    (tree : TreeId) (root : Node) : (w.holdTree tree root).FreeWithin (free.erase tree) := by
  intro other found hfound
  by_cases hother : other = tree
  · subst hother
    simp [World.holdTree] at hfound
  · rw [get_holdTree_of_ne hother] at hfound
    exact Finset.mem_erase.2 ⟨hother, h other found hfound⟩

/-- Putting a tree back frees no other tree. -/
theorem FreeWithin.putTree {free : Finset TreeId} {w : World} {tree : TreeId}
    (h : w.FreeWithin (free.erase tree)) (htree : tree ∈ free) (root : Node) :
    (w.putTree tree root).FreeWithin free := by
  intro other found hfound
  by_cases hother : other = tree
  · rw [hother]
    exact htree
  · rw [get_putTree_of_ne hother] at hfound
    exact Finset.mem_of_mem_erase (h other found hfound)

/-- Which trees are free is a matter of the trees alone. -/
theorem invariant_freeWithin (free : Finset TreeId) : Invariant (FreeWithin free) :=
  Invariant.ofTrees fun {v w} htrees hv tree root hroot =>
    hv tree root (by rw [← htrees, hroot])

end World

/-! ## Room for requests -/

/-- The service of a forest in which no trees are made and only so many trees work at a time.  What
is done on a tree while they all work is not the forest's: it is given from outside. -/
def serveWithin (beyond : Operation → Node → World → Answer × Node × World) : (room : Nat) → Service
  | 0 =>
    { ask := fun operation tree w =>
        let used := w.withTree tree (beyond operation)
        (used.1.getD .refused, used.2)
      plant := plantFrom #[] }
  | room + 1 =>
    { ask := fun operation tree w =>
        let used := w.withTree tree (Node.perform (serveWithin beyond room) operation)
        (used.1.getD .refused, used.2)
      plant := plantFrom #[] }

section

variable (beyond : Operation → Node → World → Answer × Node × World)

/-- No plan makes a tree. -/
theorem plantFrom_empty (plan : PlanId) (w : World) : plantFrom #[] plan w = (none, w) := by
  simp [plantFrom]

@[simp] theorem plant_serveWithin (room : Nat) :
    (serveWithin beyond room).plant = plantFrom #[] := by
  cases room <;> rfl

/-- With room for all free trees nothing is ever done beyond the room, and with a greater depth no
request is refused for its depth.  The induction gives every granted request its own tree: one free
tree less, one less room and one less depth inside it. -/
theorem serveWithin_alike {free : Finset TreeId} {room depth : Nat} (hroom : free.card ≤ room)
    (hdepth : free.card < depth) :
    Service.Alike (World.Itself (World.FreeWithin free)) (serveWithin beyond room)
      (serve (plantFrom #[]) depth) := by
  induction depth generalizing free room with
  | zero => exact absurd hdepth (Nat.not_lt_zero _)
  | succ depth ih =>
    constructor
    · intro operation v w tree hw
      rcases hw with ⟨rfl, hfree⟩
      have hsmaller : ∀ root, v.trees.get tree = some ⟨root, false⟩ →
          tree ∈ free ∧ (free.erase tree).card + 1 = free.card := by
        intro root hroot
        have htree : tree ∈ free := hfree tree root hroot
        exact ⟨htree, Finset.card_erase_add_one htree⟩
      cases room with
      | zero =>
        have hused : Coupled (World.Itself (World.FreeWithin free))
            (v.withTree tree (beyond operation))
            (v.withTree tree (Node.perform (serve (plantFrom #[]) depth) operation)) := by
          apply World.withTree_coupled rfl ⟨rfl, hfree⟩ ⟨rfl, hfree⟩
          intro root hroot
          -- No tree is free, so this one is not.
          have hcard := (hsmaller root hroot).2
          omega
        rw [serve_ask, ← hused.1]
        exact ⟨rfl, hused.2⟩
      | succ room =>
        have hused : Coupled (World.Itself (World.FreeWithin free))
            (v.withTree tree (Node.perform (serveWithin beyond room) operation))
            (v.withTree tree (Node.perform (serve (plantFrom #[]) depth) operation)) := by
          apply World.withTree_coupled rfl ⟨rfl, hfree⟩ ⟨rfl, hfree⟩
          intro root hroot
          rcases hsmaller root hroot with ⟨htree, hcard⟩
          have hinner : Service.Alike (World.Itself (World.FreeWithin (free.erase tree)))
              (serveWithin beyond room) (serve (plantFrom #[]) depth) :=
            ih (by omega) (by omega)
          have hperformed := root.perform_coupled (World.invariant_freeWithin _).coupling hinner
            operation ⟨rfl, hfree.holdTree tree root⟩
          rcases hperformed with ⟨hanswer, hleft, hafter, hstill⟩
          exact ⟨hanswer, by rw [hleft, hafter], hstill.putTree htree _⟩
        rw [serve_ask, ← hused.1]
        exact ⟨rfl, hused.2⟩
    · intro v w plan hw
      rw [plant_serve, plant_serveWithin, plantFrom_empty, plantFrom_empty]
      exact ⟨rfl, hw⟩

/-- What is done beyond the room has no influence on a request. -/
theorem serveWithin_ask {free : Finset TreeId} {room depth : Nat} {w : World}
    (hfree : w.FreeWithin free) (hroom : free.card ≤ room) (hdepth : free.card < depth)
    (operation : Operation) (tree : TreeId) :
    (serveWithin beyond room).ask operation tree w =
      (serve (plantFrom #[]) depth).ask operation tree w := by
  have halike := serveWithin_alike beyond hroom hdepth
  rcases halike.ask operation tree ⟨rfl, hfree⟩ with ⟨hanswer, hworld, -⟩
  exact Prod.ext hanswer hworld

end

/-- Nesting depths beyond the number of free trees are as good as each other. -/
theorem serve_ask_of_freeWithin {free : Finset TreeId} {depth deeper : Nat} {w : World}
    (hfree : w.FreeWithin free) (hdepth : free.card < depth) (hdeeper : free.card < deeper)
    (operation : Operation) (tree : TreeId) :
    (serve (plantFrom #[]) depth).ask operation tree w =
      (serve (plantFrom #[]) deeper).ask operation tree w := by
  let beyond : Operation → Node → World → Answer × Node × World :=
    fun _ root v => (.refused, root, v)
  calc (serve (plantFrom #[]) depth).ask operation tree w
      = (serveWithin beyond free.card).ask operation tree w :=
        (serveWithin_ask beyond hfree (Nat.le_refl _) hdepth operation tree).symm
    _ = (serve (plantFrom #[]) deeper).ask operation tree w :=
        serveWithin_ask beyond hfree (Nat.le_refl _) hdeeper operation tree

/-! ## The trees of a world -/

namespace World

/-- The trees that there are. -/
def population (w : World) : Finset TreeId :=
  (Finset.range w.trees.size).filter fun tree => (w.trees.get tree).isSome

/-- Numbers that were never given out have no tree. -/
@[simp] theorem mem_population {tree : TreeId} {w : World} :
    tree ∈ w.population ↔ (w.trees.get tree).isSome := by
  simp only [population, Finset.mem_filter, Finset.mem_range, and_iff_right_iff_imp]
  intro hsome
  by_contra hsize
  rw [Table.get, Array.getElem?_eq_none (Nat.le_of_not_lt hsize), Option.getD_none,
    w.trees_blank] at hsome
  cases hsome

/-- Free trees are trees. -/
theorem freeWithin_population (w : World) : w.FreeWithin w.population := by
  intro tree root hroot
  rw [mem_population, hroot]
  rfl

/-- Which trees there are is a matter of the trees alone. -/
theorem invariant_population (trees : Finset TreeId) : Invariant fun w => w.population = trees := by
  apply Invariant.ofTrees
  intro v w htrees hv
  rw [← hv]
  ext tree
  rw [mem_population, mem_population, htrees]

/-- Taking a tree into use makes no new tree. -/
theorem population_holdTree {tree : TreeId} {w : World} (htree : tree ∈ w.population)
    (root : Node) : (w.holdTree tree root).population = w.population := by
  ext other
  by_cases hother : other = tree
  · subst hother
    rw [mem_population] at htree
    simp [holdTree, htree]
  · rw [mem_population, mem_population, get_holdTree_of_ne hother]

/-- Putting a tree back makes no new tree. -/
theorem population_putTree {tree : TreeId} {w : World} (htree : tree ∈ w.population)
    (root : Node) : (w.putTree tree root).population = w.population := by
  ext other
  by_cases hother : other = tree
  · subst hother
    rw [mem_population] at htree
    simp [get_putTree_self, htree]
  · rw [mem_population, mem_population, get_putTree_of_ne hother]

/-- A use of a tree makes no new tree if the work done meanwhile makes none. -/
theorem population_withTree (tree : TreeId) {use : Node → World → Answer × Node × World}
    (huse : ∀ root v, (use root v).2.2.population = v.population) (w : World) :
    (w.withTree tree use).2.population = w.population := by
  apply withTree_keeps (P := fun v => v.population = w.population) rfl rfl
  intro root hroot
  have htree : tree ∈ w.population := by
    rw [mem_population, hroot]
    rfl
  have hworked : (use root (w.holdTree tree root)).2.2.population = w.population :=
    (huse root _).trans (population_holdTree htree root)
  rw [← hworked] at htree
  exact (population_putTree htree _).trans hworked

end World

/-- Without plans no request makes a new tree. -/
theorem serve_population (depth : Nat) (trees : Finset TreeId) :
    (serve (plantFrom #[]) depth).Keeps fun w => w.population = trees := by
  induction depth generalizing trees with
  | zero =>
    constructor
    · intro operation tree w hw
      exact hw
    · intro plan w hw
      rw [plant_serve, plantFrom_empty]
      exact hw
  | succ depth ih =>
    constructor
    · intro operation tree w hw
      have huse : ∀ root v,
          (Node.perform (serve (plantFrom #[]) depth) operation root v).2.2.population =
            v.population := by
        intro root v
        exact root.perform_keeps (World.invariant_population v.population) (ih v.population)
          operation rfl
      exact (World.population_withTree tree huse w).trans hw
    · intro plan w hw
      rw [plant_serve, plantFrom_empty]
      exact hw

/-- The depth of a host without plans is never reached: its trees answer as they would at any
greater depth. -/
theorem Host.ask_deeper (h : Host) (hplans : h.plans = #[]) (extra : Nat) (operation : Operation)
    (tree : TreeId) :
    (serve (plantFrom h.plans) (h.depth + extra)).ask operation tree h.world =
      h.service.ask operation tree h.world := by
  have hcard : h.world.population.card ≤ h.world.trees.size :=
    (Finset.card_filter_le _ _).trans_eq (Finset.card_range _)
  have hdepth : h.world.population.card < h.depth := by
    rw [Host.depth, Host.plantedTrees, hplans]
    simp
    omega
  unfold Host.service
  rw [hplans]
  exact serve_ask_of_freeWithin h.world.freeWithin_population (by omega) hdepth operation tree

/-! ## Requests without a limit -/

/-- No trees are made, and requests are answered by a use of the tree in which all further requests
are answered in the same way. -/
structure Service.Unlimited (s : Service) : Prop where
  plant : s.plant = plantFrom #[]
  ask : ∀ operation tree w, s.ask operation tree w =
    ((w.withTree tree (Node.perform s operation)).1.getD .refused,
      (w.withTree tree (Node.perform s operation)).2)

/-- The service of a forest in which no trees are made. -/
def forest : Service where
  ask operation tree w := (serve (plantFrom #[]) (w.population.card + 1)).ask operation tree w
  plant := plantFrom #[]

/-- The depth of the recursion is not looked at. -/
theorem forest_ask {depth : Nat} {w : World} (h : w.population.card < depth)
    (operation : Operation) (tree : TreeId) :
    (serve (plantFrom #[]) depth).ask operation tree w = forest.ask operation tree w :=
  serve_ask_of_freeWithin w.freeWithin_population h (Nat.lt_succ_self _) operation tree

/-- While there are only the given trees, a depth beyond their number does not show. -/
theorem serve_alike_forest {trees : Finset TreeId} {depth : Nat} (h : trees.card < depth) :
    Service.Alike (World.Itself fun w => w.population = trees) (serve (plantFrom #[]) depth)
      forest := by
  constructor
  · intro operation v w tree hw
    rcases hw with ⟨rfl, hv⟩
    have hkept := (serve_population depth trees).1 operation tree hv
    rw [← hv] at h
    rw [← forest_ask h operation tree]
    exact ⟨rfl, rfl, hkept⟩
  · intro v w plan hw
    rw [plant_serve]
    show Coupled _ (plantFrom #[] plan v) (plantFrom #[] plan w)
    rw [plantFrom_empty, plantFrom_empty]
    exact ⟨rfl, hw⟩

/-- The recursion without a limit has a solution. -/
theorem forest_unlimited : forest.Unlimited := by
  refine ⟨rfl, ?_⟩
  intro operation tree w
  let trees := w.population
  let s := serve (plantFrom #[]) (trees.card + 1)
  have hused : Coupled (World.Itself fun _ => True) (w.withTree tree (Node.perform s operation))
      (w.withTree tree (Node.perform forest operation)) := by
    apply World.withTree_coupled rfl ⟨rfl, trivial⟩ ⟨rfl, trivial⟩
    intro root hroot
    have htree : tree ∈ w.population := by
      rw [World.mem_population, hroot]
      rfl
    have hperformed := root.perform_coupled (World.invariant_population trees).coupling
      (serve_alike_forest (Nat.lt_succ_self trees.card)) operation
      ⟨rfl, World.population_holdTree htree root⟩
    rcases hperformed with ⟨hanswer, hleft, hafter, -⟩
    exact ⟨hanswer, by rw [hleft, hafter], trivial⟩
  have hdeep : w.population.card < trees.card + 2 := by
    show w.population.card < w.population.card + 2
    omega
  rw [← forest_ask hdeep operation tree, serve_ask, hused.1, hused.2.1]

/-- What answers without a limit has room for any number of requests. -/
theorem Service.Unlimited.serveWithin {s : Service} (h : s.Unlimited) (room : Nat) :
    serveWithin (fun operation root => root.perform s operation) room = s := by
  have hself : ∀ use : Operation → Node → World → Answer × Node × World,
      (∀ operation root, use operation root = root.perform s operation) →
      (⟨fun operation tree w =>
        ((w.withTree tree (use operation)).1.getD .refused, (w.withTree tree (use operation)).2),
        plantFrom #[]⟩ : Service) = s := by
    intro use huse
    rw [← h.plant]
    have hask : (fun operation tree w =>
        ((w.withTree tree (use operation)).1.getD .refused,
          (w.withTree tree (use operation)).2)) = s.ask := by
      funext operation tree w
      rw [h.ask operation tree w, show use operation = Node.perform s operation from
        funext (huse operation)]
    rw [hask]
  induction room with
  | zero => exact hself _ fun _ _ => rfl
  | succ room ih =>
    unfold TickTree.serveWithin
    rw [ih]
    exact hself _ fun _ _ => rfl

/-- Trees that refer to each other in any pattern do not run away.  In a forest in which no trees
are made, the recursion by which requests are answered has exactly one solution, although nothing
limits it: a request has one outcome, which every nesting depth beyond the number of trees gives.
At no moment do more trees work inside each other than there are: what would be done on one more
tree has no influence, whatever it is.  There are the same trees afterwards. -/
theorem forest_ends (operation : Operation) (tree : TreeId) (w : World) :
    forest.Unlimited ∧
    (∀ s : Service, s.Unlimited →
      s.ask operation tree w = forest.ask operation tree w) ∧
    (∀ depth, w.population.card < depth →
      (serve (plantFrom #[]) depth).ask operation tree w = forest.ask operation tree w) ∧
    (∀ beyond room, w.population.card ≤ room →
      (serveWithin beyond room).ask operation tree w = forest.ask operation tree w) ∧
    (forest.ask operation tree w).2.population = w.population := by
  have hwithin : ∀ beyond room, w.population.card ≤ room →
      (serveWithin beyond room).ask operation tree w = forest.ask operation tree w :=
    fun beyond room hroom =>
      serveWithin_ask beyond w.freeWithin_population hroom (Nat.lt_succ_self _) operation tree
  refine ⟨forest_unlimited, ?_, ?_, hwithin, ?_⟩
  · intro s hs
    rw [← hwithin _ w.population.card (Nat.le_refl _), hs.serveWithin]
  · intro depth hdepth
    exact forest_ask hdepth operation tree
  · rw [← forest_ask (Nat.lt_succ_self _) operation tree]
    have hkeeps := serve_population (w.population.card + 1) w.population
    exact hkeeps.1 operation tree rfl

/-- Two trees that refer to each other: with room for both, what would be done on a third one does
not matter; with room for one, it does. -/
theorem forest_ends_twoCycle :
    let w := (((World.start (.empty .start) (.empty (.seeded 0))).addTree
      (.reference (.toTree "there" 1))).2.addTree (.reference (.toTree "back" 0))).2
    let beyond : Operation → Node → World → Answer × Node × World :=
      fun _ root v => (.ticked .success, root, v)
    w.population.card = 2 ∧ (forest.ask .tick 0 w).1 = .ticked .failure ∧
      (serveWithin beyond 2).ask .tick 0 w = forest.ask .tick 0 w ∧
      ((serveWithin beyond 1).ask .tick 0 w).1 = .ticked .success := by
  intro w beyond
  have hcard : w.population.card = 2 := rfl
  have hends := forest_ends .tick 0 w
  refine ⟨hcard, ?_, hends.2.2.2.1 beyond 2 hcard.le, rfl⟩
  rw [← hends.2.2.1 3 (by omega)]
  rfl

end TickTree
