import TickTree.Proofs.Locality.Schedule

/-!
# What trees reach

A party uses a cell when it does not keep to all the rest.  It reaches what it uses, and what the
roots of the shared trees use that it reaches.  Parties are separate when no cell is reached by two
of them, and when all callbacks and suppliers on the way are tame.  What a party reaches is the
least closed region to which it keeps, so separate trees are independent.

Main results:

- Theorem `Node.within_of_forall`: nodes that keep to several regions keep to what these have in
  common.
- Theorem `Scene.separate_iff`: trees are separate when they are independent in some regions.
- Theorem `independent_trees_commute`: operations on separate trees may change places.
-/

namespace TickTree

/-! ## Several regions -/

section

variable {κ : Type} [Nonempty κ] {regions : κ → Region} {region : Region} {names : Directory}
  (hregion : ∀ cell, (∀ k, cell ∈ regions k) → cell ∈ region)
include hregion

theorem Callback.within_of_forall (α : Type) (c : Callback α) (h : ∀ k, c.Within (regions k)) :
    c.Within region :=
  ⟨hregion _ fun k => (h k).1, (h (Classical.arbitrary κ)).2⟩

theorem Supply.within_of_forall {supply : Supply} (h : ∀ k, supply.Within (regions k) names) :
    supply.Within region names where
  old := (h (Classical.arbitrary κ)).old
  inside tree htree := hregion _ fun k => (h k).inside tree htree

/-- Parts that use nothing outside of several regions use nothing outside of what these have in
common. -/
theorem Trait.within_followsFrom :
    (Trait.within region names).FollowsFrom fun k => Trait.within (regions k) names where
  leaf _ h := ⟨fun source hsource => hregion _ fun k => (h k).1 source hsource,
    Leaf.Every.of_forall (Callback.within_of_forall hregion) fun k => (h k).2⟩
  composite _ h := fun source hsource => hregion _ fun k => h k source hsource
  decorator _ h := ⟨fun source hsource => hregion _ fun k => (h k).1 source hsource,
    Decorator.Every.of_forall (Callback.within_of_forall hregion) fun k => (h k).2⟩
  reference _ h := ⟨Supplier.Every.of_forall (Callback.within_of_forall hregion) fun k => (h k).1,
    fun supply hsupply => Supply.within_of_forall hregion fun k => (h k).2 supply hsupply⟩

/-- A node that keeps to several regions keeps to what these have in common. -/
theorem Node.within_of_forall {n : Node} (h : ∀ k, n.Within (regions k) names) :
    n.Within region names where
  parts := .of_forall (Trait.within_followsFrom hregion) fun k => (h k).parts
  targets tree htree := hregion _ fun k => (h k).targets tree htree

/-- A party that keeps to several regions keeps to what these have in common. -/
theorem Party.within_of_forall {party : Party} (h : ∀ k, party.Within (regions k) names) :
    party.Within region names := by
  cases party with
  | owned n => exact n.within_of_forall hregion h
  | shared tree => exact hregion _ h

end

/-! ## Use -/

namespace Party

variable {region : Region} {names : Directory} {party : Party}

/-- All callbacks of a party change neither clocks nor trees, and its suppliers give trees that
there are already. -/
def Tame (names : Directory) (party : Party) : Prop := party.Within Set.univ names

/-- A party uses a cell when it does not keep to all the rest.  A tame party then draws from the
source, it has a callback at the seat, or it is the tree, holds it as a target or has a supplier
that may give it. -/
def Uses (names : Directory) (cell : Cell) (party : Party) : Prop := ¬ party.Within {cell}ᶜ names

/-- A party that keeps to a region keeps to every larger one. -/
theorem Within.mono (h : party.Within region names) {larger : Region} (hlarger : region ⊆ larger) :
    party.Within larger names :=
  within_of_forall (fun _ hcell => hlarger (hcell ())) fun _ : Unit => h

/-- A party uses only what lies in a region to which it keeps. -/
theorem Within.mem_of_uses (h : party.Within region names) {cell : Cell}
    (hcell : party.Uses names cell) : cell ∈ region := by
  by_contra hbeyond
  exact hcell (h.mono (Set.subset_compl_singleton_iff.2 hbeyond))

/-- A tame party keeps to what it uses. -/
theorem Tame.within (h : party.Tame names)
    (hregion : ∀ cell, party.Uses names cell → cell ∈ region) : party.Within region names := by
  -- The region is what all the complements of cells beyond it have in common.
  let cuts : Option {cell // cell ∉ region} → Region
    | none => Set.univ
    | some beyond => {beyond.1}ᶜ
  have hcuts : ∀ cell, (∀ k, cell ∈ cuts k) → cell ∈ region := by
    intro cell hcell
    by_contra hbeyond
    exact hcell (some ⟨cell, hbeyond⟩) rfl
  refine within_of_forall hcuts fun k => ?_
  cases k with
  | none => exact h
  | some beyond => exact not_not.1 fun huses => beyond.2 (hregion _ huses)

end Party

/-! ## Reach -/

section

variable {ι : Type}

namespace Scene

/-- What a party reaches: the cells that it uses, and those that the roots of shared trees use that
it reaches. -/
inductive Reaches (scene : Scene ι) (i : ι) : Cell → Prop
  | used {cell : Cell} (h : (scene.parties i).Uses scene.world.directory cell) :
    Reaches scene i cell
  | through {tree : TreeId} {found : Tree} {cell : Cell} (h : Reaches scene i (.tree tree))
    (hfound : scene.world.trees.get tree = some found)
    (hused : (Party.owned found.root).Uses scene.world.directory cell) : Reaches scene i cell

/-- Parties that reach no common random source, callback or shared tree.  The callbacks of all trees
that they reach change neither clocks nor trees, and the suppliers give trees that there are
already. -/
structure Separate (scene : Scene ι) : Prop where
  tame : ∀ i, (scene.parties i).Tame scene.world.directory
  tame_root : ∀ i tree found, scene.Reaches i (.tree tree) →
    scene.world.trees.get tree = some found →
    (Party.owned found.root).Tame scene.world.directory
  apart : ∀ i j cell, i ≠ j → scene.Reaches i cell → ¬ scene.Reaches j cell

variable {scene : Scene ι} {regions : ι → Region} {i : ι} {cell : Cell}

/-- What a party reaches lies in a closed region to which it keeps. -/
theorem Independent.mem_of_reaches (h : scene.Independent regions) (hcell : scene.Reaches i cell) :
    cell ∈ regions i := by
  induction hcell with
  | used hused => exact (h.within i).mem_of_uses hused
  | through _ hfound hused ih =>
    have hroot : (Party.owned _).Within (regions i) scene.world.directory :=
      h.closed i _ _ ih hfound
    exact hroot.mem_of_uses hused

/-- Separate trees keep to what they reach. -/
theorem Separate.independent (h : scene.Separate) :
    scene.Independent fun i => {cell | scene.Reaches i cell} where
  apart := h.apart
  within i := (h.tame i).within fun _ hcell => .used hcell
  closed i tree found htree hfound :=
    (h.tame_root i tree found htree hfound).within fun _ hcell => .through htree hfound hcell

/-- Trees are separate exactly when they keep to closed regions without a common cell. -/
theorem separate_iff : scene.Separate ↔ ∃ regions, scene.Independent regions := by
  constructor
  · exact fun h => ⟨_, h.independent⟩
  · rintro ⟨regions, h⟩
    refine ⟨fun i => (h.within i).mono (Set.subset_univ _), fun i tree found htree hfound => ?_,
      fun i j cell hij hi hj => ?_⟩
    · have hroot : (Party.owned found.root).Within (regions i) scene.world.directory :=
        h.closed i tree found (h.mem_of_reaches htree) hfound
      exact hroot.mono (Set.subset_univ _)
    · exact h.apart i j cell hij (h.mem_of_reaches hi) (h.mem_of_reaches hj)

end Scene

/-- Independent trees commute.  Take trees that reach no common random source, callback or shared
tree, where the suppliers give trees that there are already and the callbacks change neither clocks
nor trees.  Clocks they may share.  Two operations on different trees may change places; any two
schedules in which each tree is asked the same at the same clock readings agree; and the trees stay
separate, so this is so in all states that can be reached. -/
theorem independent_trees_commute [DecidableEq ι]
    (plant : PlanId → World → Option TreeId × World) (depth : Nat) {scene : Scene ι}
    (h : scene.Separate) :
    let s := serve plant depth
    (∀ i j opI opJ, i ≠ j →
      let first := (scene.parties i).perform s opI scene.world
      let thenSecond := (scene.parties j).perform s opJ first.2.2
      let second := (scene.parties j).perform s opJ scene.world
      let thenFirst := (scene.parties i).perform s opI second.2.2
      first.1 = thenFirst.1 ∧ thenSecond.1 = second.1 ∧ first.2.1 = thenFirst.2.1 ∧
        thenSecond.2.1 = second.2.1 ∧ thenSecond.2.2.SameWithin Set.univ thenFirst.2.2) ∧
    (∀ first second : List (Scene.Turn ι),
      (∀ i, scene.course s i first = scene.course s i second) →
      (∀ i, scene.answers s i first = scene.answers s i second) ∧
        (scene.play s first).parties = (scene.play s second).parties ∧
        (scene.play s first).world.SameCells Set.univ (scene.play s second).world ∧
        (scene.play s first).world.directory = (scene.play s second).world.directory) ∧
    ∀ schedule, (scene.play s schedule).Separate := by
  have hregions := h.independent
  refine ⟨fun _ _ opI opJ hij => hregions.commute plant depth hij opI opJ,
    fun _ _ hcourses => hregions.interleavings plant depth hcourses, fun schedule => ?_⟩
  exact Scene.separate_iff.2 ⟨_, hregions.play plant depth schedule⟩

end

/-! ## Two trees with one clock -/

/-- A sub-tree and a node of the host, both with a cooldown on one clock. -/
def twoCooldowns : Scene Bool :=
  let ready := Node.decorator (.cooldown 0 (.constant ⟨1000, by decide⟩) none)
    (some (.leaf (.fixed "ready" .success)))
  let count := Leaf.infallible "count" ⟨0, "count", fun _ => ⟨[.log .info "counted"], .failure⟩⟩
  let counting := Node.decorator (.cooldown 0 (.constant ⟨2000, by decide⟩) none)
    (some (.leaf count))
  { parties := fun
      | false => .owned (.reference (.toTree "ready" 0))
      | true => .owned counting
    world := ((World.start (.empty .start) (.empty (.seeded 0))).addTree ready).2 }

/-- The sub-tree keeps to its target, the node to its callback. -/
def twoCooldowns.regions : Bool → Region
  | false => {Cell.tree 0}
  | true => {Cell.seat 0}

theorem twoCooldowns.independent : twoCooldowns.Independent regions := by
  -- A cooldown with a fixed period uses nothing itself, so it keeps to where its child keeps to.
  have hcooldown : ∀ {region names period part}, (Trait.within region names).leaf part →
      (Node.decorator (.cooldown 0 (.constant period) none) (some (.leaf part))).Within region
        names := by
    intro region names period part hpart
    refine ⟨.decorator ⟨nofun, trivial⟩ fun inner hinner => ?_, nofun⟩
    cases hinner
    exact .leaf hpart
  constructor
  · intro i j cell hij hi hj
    cases i with
    | false =>
      cases j with
      | false => exact hij rfl
      | true =>
        cases hi
        cases hj
    | true =>
      cases j with
      | false =>
        cases hi
        cases hj
      | true => exact hij rfl
  · intro i
    cases i with
    | false =>
      refine ⟨.reference ⟨trivial, fun supply hsupply => ?_⟩, nofun⟩
      cases hsupply
      refine ⟨nofun, fun tree htree => ?_⟩
      cases htree
      rfl
    | true =>
      refine hcooldown ⟨nofun, rfl, fun n effect heffect => ?_⟩
      rw [List.mem_singleton.1 heffect]
      trivial
  · intro i tree found htree hfound
    cases i with
    | false =>
      cases htree
      cases hfound
      exact hcooldown ⟨nofun, trivial⟩
    | true => cases htree

/-- A schedule in which the sub-tree has the first turns. -/
def twoCooldowns.first : List (Scene.Turn Bool) :=
  [.perform false .tick, .perform true .tick, .advance 0 ⟨1500, by decide⟩,
    .perform false .tick, .perform true .tick]

/-- A schedule in which the node of the host has the first turns and the clock takes two steps. -/
def twoCooldowns.second : List (Scene.Turn Bool) :=
  [.perform true .tick, .perform false .tick, .advance 0 ⟨1000, by decide⟩,
    .advance 0 ⟨500, by decide⟩, .perform true .tick, .perform false .tick]

theorem twoCooldowns.courses (i : Bool) :
    twoCooldowns.course (serve (plantFrom #[]) 1) i first =
      twoCooldowns.course (serve (plantFrom #[]) 1) i second := by
  have hreadings : ∀ {scene other : Scene Bool}, scene.world.clocks = other.world.clocks →
      scene.readings = other.readings :=
    fun hclocks => funext fun clock => congrArg (fun clocks => (Table.get clocks clock).now) hclocks
  have htwice : ∀ {now now' later later' : ClockId → Duration}, now = now' → later = later' →
      [(Operation.tick, now), (.tick, later)] = [(.tick, now'), (.tick, later')] := by
    rintro now _ later _ rfl rfl
    rfl
  cases i with
  | false => exact htwice (hreadings rfl) (hreadings rfl)
  | true => exact htwice (hreadings rfl) (hreadings rfl)

/-- The schedules agree.  In both of them the sub-tree may run its target again afterwards, and the
node may not run its child yet. -/
theorem independent_trees_commute_twoCooldowns :
    let s := serve (plantFrom #[]) 1
    let first := twoCooldowns.first
    let second := twoCooldowns.second
    twoCooldowns.Separate ∧
      (∀ i, twoCooldowns.course s i first = twoCooldowns.course s i second) ∧
      (∀ i, twoCooldowns.answers s i first = twoCooldowns.answers s i second) ∧
      twoCooldowns.answers s false first = [.ticked .success, .ticked .success] ∧
      twoCooldowns.answers s true first = [.ticked .failure, .ticked .failure] := by
  have hseparate : twoCooldowns.Separate := Scene.separate_iff.2 ⟨_, twoCooldowns.independent⟩
  have hcommute := independent_trees_commute (plantFrom #[]) 1 hseparate
  refine ⟨hseparate, twoCooldowns.courses, ?_, ?_, ?_⟩
  · exact (hcommute.2.1 _ _ twoCooldowns.courses).1
  · rfl
  · rfl

end TickTree
