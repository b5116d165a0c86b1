import Mathlib.Data.Set.Lattice
import TickTree.Proofs.Locality.Node

/-!
# Schedules of independent trees

A host works on several trees in one world, in turns, and moves clocks in between.  The trees are
independent when they keep to closed regions that have no cell in common; clocks they may share.
Then a tree notices nothing of the turns of the others.  What it does depends on its own course
only, that is, on what it is asked and on the clock readings at these turns.  How the turns of
different trees are interleaved makes no difference.

Main results:

- Definition `Scene.Independent`: trees that keep to closed regions apart from each other.
- Theorem `Scene.Independent.step`: a turn leaves independent trees independent.
- Theorem `Scene.Independent.agree`: trees with the same course do the same.
- Theorem `Scene.Independent.interleavings`: interleavings of independent trees agree.
-/

namespace TickTree

/-! ## Parties -/

/-- Something on which a host operates: a node of its own, or a shared tree. -/
inductive Party where
  | owned (n : Node)
  | shared (tree : TreeId)

/-- Carries out an operation on a party. -/
def Party.perform (s : Service) (operation : Operation) : Party → World → Answer × Party × World
  | owned n, w =>
    let performed := n.perform s operation w
    (performed.1, owned performed.2.1, performed.2.2)
  | shared tree, w =>
    let asked := s.ask operation tree w
    (asked.1, shared tree, asked.2)

/-- A party keeps to a region. -/
def Party.Within (region : Region) (names : Directory) : Party → Prop
  | owned n => n.Within region names
  | shared tree => Cell.tree tree ∈ region

/-- Whatever a party is asked to do, it stays inside of a region to which it keeps. -/
theorem Party.perform_within (plant : PlanId → World → Option TreeId × World) (depth : Nat)
    (operation : Operation) {region : Region} {v₀ w₀ v w : World} {party : Party}
    (h : party.Within region v₀.directory) (hw : World.Alongside region v₀ w₀ v w) :
    let first := party.perform (serve plant depth) operation v
    let second := party.perform (serve plant depth) operation w
    first.1 = second.1 ∧ first.2.1 = second.2.1 ∧ first.2.1.Within region v₀.directory ∧
      World.Alongside region v₀ w₀ first.2.2 second.2.2 := by
  have hs := serve_within plant depth region v₀ w₀
  cases party with
  | owned n =>
    rcases n.perform_within hs operation h hw with ⟨hanswer, ⟨hsame, hwithin⟩, hafter⟩
    exact ⟨hanswer, congrArg owned hsame, hwithin, hafter⟩
  | shared tree =>
    rcases hs operation tree h hw with ⟨hanswer, hafter⟩
    exact ⟨hanswer, rfl, h, hafter⟩

/-! ## Schedules -/

section

variable {ι : Type}

/-- Parties and the world that they are in. -/
structure Scene (ι : Type) where
  parties : ι → Party
  world : World

namespace Scene

/-- A turn in a schedule: a party is asked an operation, or a clock is moved. -/
inductive Turn (ι : Type) where
  | perform (party : ι) (operation : Operation)
  | advance (clock : ClockId) (step : Duration)
  | set (clock : ClockId) (reading : Duration)

/-- The operation that a turn asks of a party, if it does. -/
def Turn.asked? [DecidableEq ι] (party : ι) : Turn ι → Option Operation
  | perform other operation => if other = party then some operation else none
  | advance _ _ => none
  | set _ _ => none

/-- Only turns of a party itself ask something of it. -/
theorem Turn.eq_perform_of_asked? [DecidableEq ι] {i : ι} {turn : Turn ι} {operation : Operation}
    (h : turn.asked? i = some operation) : turn = .perform i operation := by
  cases turn with
  | perform j asked =>
    rcases Option.ite_none_right_eq_some.1 h with ⟨rfl, hasked⟩
    rw [Option.some.inj hasked]
  | advance clock step => cases h
  | set clock reading => cases h

variable [DecidableEq ι] (s : Service)

/-- What is left after a turn. -/
def step : Turn ι → Scene ι → Scene ι
  | .perform party operation, scene =>
    let performed := (scene.parties party).perform s operation scene.world
    ⟨Function.update scene.parties party performed.2.1, performed.2.2⟩
  | .advance clock step, scene => ⟨scene.parties, scene.world.advance clock step⟩
  | .set clock reading, scene => ⟨scene.parties, scene.world.setClock clock reading⟩

/-- The answer of a party to an operation. -/
def answer (party : ι) (operation : Operation) (scene : Scene ι) : Answer :=
  ((scene.parties party).perform s operation scene.world).1

/-- The readings of all clocks. -/
def readings (scene : Scene ι) (clock : ClockId) : Duration := scene.world.now clock

/-- What is left after a schedule. -/
def play : List (Turn ι) → Scene ι → Scene ι
  | [], scene => scene
  | turn :: rest, scene => play rest (scene.step s turn)

/-- The answers of a party in a schedule. -/
def answers (party : ι) : List (Turn ι) → Scene ι → List Answer
  | [], _ => []
  | turn :: rest, scene =>
    ((turn.asked? party).map fun operation => scene.answer s party operation).toList ++
      answers party rest (scene.step s turn)

/-- What is asked of a party in a schedule, each time with the clock readings at this turn. -/
def course (party : ι) : List (Turn ι) → Scene ι → List (Operation × (ClockId → Duration))
  | [], _ => []
  | turn :: rest, scene =>
    ((turn.asked? party).map fun operation => (operation, scene.readings)).toList ++
      course party rest (scene.step s turn)

end Scene

/-! ## Time -/

namespace World

variable {region : Region} {v w : World}

/-- A step of a clock changes no cell. -/
theorem sameCells_advance (region : Region) (clock : ClockId) (step : Duration) (w : World) :
    w.SameCells region (w.advance clock step) := by
  unfold advance
  split
  · exact ⟨fun _ _ => rfl, fun _ _ => rfl, fun _ _ => rfl⟩
  · exact (SameOutside.sameWithin (outside_fail _ w).symm region).toSameCells

/-- A step of a clock changes no name. -/
theorem directory_advance (clock : ClockId) (step : Duration) (w : World) :
    (w.advance clock step).directory = w.directory := by
  unfold advance
  split
  · rfl
  · exact congrArg Outside.directory (outside_fail _ w)

/-- Worlds that are the same in each of some regions are the same in all of them together. -/
theorem SameCells.iUnion {ι : Type} {regions : ι → Region} (h : ∀ i, v.SameCells (regions i) w) :
    v.SameCells (⋃ i, regions i) w := by
  refine ⟨fun source hsource => ?_, fun seat hseat => ?_, fun tree htree => ?_⟩
  · rcases Set.mem_iUnion.1 hsource with ⟨i, hi⟩
    exact (h i).sources source hi
  · rcases Set.mem_iUnion.1 hseat with ⟨i, hi⟩
    exact (h i).calls seat hi
  · rcases Set.mem_iUnion.1 htree with ⟨i, hi⟩
    exact (h i).trees tree hi

/-- A region is closed in a world with the same names that is the same there. -/
theorem Closed.of_sameCells (h : v.Closed region) (hsame : v.SameCells region w)
    (hnames : v.directory = w.directory) : w.Closed region := by
  intro tree found htree hfound
  rw [← hnames]
  exact h tree found htree ((hsame.trees tree htree).trans hfound)

end World

/-! ## Independent trees -/

namespace Scene

/-- Parties that keep to closed regions without a common cell. -/
structure Independent (regions : ι → Region) (scene : Scene ι) : Prop where
  apart : ∀ i j cell, i ≠ j → cell ∈ regions i → cell ∉ regions j
  within : ∀ i, (scene.parties i).Within (regions i) scene.world.directory
  closed : ∀ i, scene.world.Closed (regions i)

/-- Two scenes are the same for a party that keeps to a region, clock readings apart. -/
structure SameFor (region : Region) (party : ι) (first second : Scene ι) : Prop where
  party : first.parties party = second.parties party
  cells : first.world.SameCells region second.world
  directory : first.world.directory = second.world.directory

variable {region : Region} {regions : ι → Region} {i : ι} {first second third : Scene ι}

theorem SameFor.refl (region : Region) (i : ι) (scene : Scene ι) : scene.SameFor region i scene :=
  ⟨rfl, .refl _ _, rfl⟩

theorem SameFor.symm (h : first.SameFor region i second) : second.SameFor region i first :=
  ⟨h.party.symm, h.cells.symm, h.directory.symm⟩

theorem SameFor.trans (h : first.SameFor region i second) (h' : second.SameFor region i third) :
    first.SameFor region i third :=
  ⟨h.party.trans h'.party, h.cells.trans h'.cells, h.directory.trans h'.directory⟩

variable {scene other : Scene ι} (plant : PlanId → World → Option TreeId × World) (depth : Nat)

/-- A party that is asked stays independent, and what others keep to does not change. -/
theorem Independent.perform (h : scene.Independent regions) (operation : Operation) (i : ι) :
    let performed := (scene.parties i).perform (serve plant depth) operation scene.world
    performed.2.1.Within (regions i) scene.world.directory ∧
      performed.2.2.Closed (regions i) ∧ scene.world.SameWithin (regions i)ᶜ performed.2.2 := by
  have hperformed := Party.perform_within plant depth operation (h.within i)
    ((World.SameWithin.refl _ _).alongside (h.closed i))
  exact ⟨hperformed.2.2.1, hperformed.2.2.2.closed, hperformed.2.2.2.left⟩

variable [DecidableEq ι]

/-- A turn in which a party is not asked is not noticed by it. -/
theorem Independent.aside (h : scene.Independent regions) {turn : Turn ι}
    (hturn : turn.asked? i = none) :
    scene.SameFor (regions i) i (scene.step (serve plant depth) turn) := by
  cases turn with
  | perform j operation =>
    have hother : j ≠ i := by simpa [Turn.asked?] using hturn
    rcases h.perform plant depth operation j with ⟨-, -, houtside⟩
    have hbeyond : regions i ⊆ (regions j)ᶜ := fun cell => h.apart i j cell hother.symm
    refine ⟨?_, (houtside.mono hbeyond).toSameCells, houtside.directory⟩
    exact (Function.update_of_ne hother.symm _ _).symm
  | advance clock step =>
    exact ⟨rfl, World.sameCells_advance _ clock step _,
      (World.directory_advance clock step _).symm⟩
  | set clock reading => exact ⟨rfl, ⟨fun _ _ => rfl, fun _ _ => rfl, fun _ _ => rfl⟩, rfl⟩

/-- A party that is asked the same at the same readings, in scenes that are the same for it, does
the same. -/
theorem Independent.together (h : scene.Independent regions)
    (hsame : scene.SameFor (regions i) i other) (hreadings : scene.readings = other.readings)
    (operation : Operation) :
    scene.answer (serve plant depth) i operation = other.answer (serve plant depth) i operation ∧
      (scene.step (serve plant depth) (.perform i operation)).SameFor (regions i) i
        (other.step (serve plant depth) (.perform i operation)) := by
  have hworlds : scene.world.SameWithin (regions i) other.world :=
    ⟨hsame.cells, congrFun hreadings, hsame.directory⟩
  rcases Party.perform_within plant depth operation (h.within i) (hworlds.alongside (h.closed i))
    with ⟨hanswer, hparty, -, hafter⟩
  simp only [answer, Scene.step, ← hsame.party, hanswer]
  refine ⟨trivial, ?_, hafter.inside.toSameCells, hafter.inside.directory⟩
  simp only [Function.update_self]
  exact hparty

/-- A turn in which a party is asked moves no clock. -/
theorem Independent.readings_perform (h : scene.Independent regions) (i : ι)
    (operation : Operation) :
    (scene.step (serve plant depth) (.perform i operation)).readings = scene.readings :=
  funext fun clock => ((h.perform plant depth operation i).2.2.now clock).symm

/-- A turn leaves independent trees independent. -/
theorem Independent.step (h : scene.Independent regions) (turn : Turn ι) :
    (scene.step (serve plant depth) turn).Independent regions := by
  have hothers : ∀ j, turn.asked? j = none →
      ((scene.step (serve plant depth) turn).parties j).Within (regions j)
          (scene.step (serve plant depth) turn).world.directory ∧
        (scene.step (serve plant depth) turn).world.Closed (regions j) := by
    intro j hj
    have hunnoticed := h.aside plant depth hj
    rw [← hunnoticed.party, ← hunnoticed.directory]
    exact ⟨h.within j, (h.closed j).of_sameCells hunnoticed.cells hunnoticed.directory⟩
  have hall : ∀ j, ((scene.step (serve plant depth) turn).parties j).Within (regions j)
          (scene.step (serve plant depth) turn).world.directory ∧
        (scene.step (serve plant depth) turn).world.Closed (regions j) := by
    intro j
    cases hj : turn.asked? j with
    | none => exact hothers j hj
    | some operation =>
      cases Turn.eq_perform_of_asked? hj
      rcases h.perform plant depth operation j with ⟨hwithin, hclosed, houtside⟩
      simp only [Scene.step, Function.update_self, ← houtside.directory]
      exact ⟨hwithin, hclosed⟩
  exact ⟨h.apart, fun j => (hall j).1, fun j => (hall j).2⟩

/-- Independent trees stay independent. -/
theorem Independent.play (h : scene.Independent regions) (schedule : List (Turn ι)) :
    (scene.play (serve plant depth) schedule).Independent regions := by
  induction schedule generalizing scene with
  | nil => exact h
  | cons turn rest ih => exact ih (h.step plant depth turn)

/-! ## Courses -/

/-- A party of which nothing is asked answers nothing and notices nothing. -/
theorem Independent.idle (h : scene.Independent regions) {schedule : List (Turn ι)}
    (hcourse : scene.course (serve plant depth) i schedule = []) :
    scene.answers (serve plant depth) i schedule = [] ∧
      scene.SameFor (regions i) i (scene.play (serve plant depth) schedule) := by
  induction schedule generalizing scene with
  | nil => exact ⟨rfl, .refl _ i scene⟩
  | cons turn rest ih =>
    cases hturn : turn.asked? i with
    | none =>
      simp only [course, hturn, Option.map_none, Option.toList_none, List.nil_append] at hcourse
      rcases ih (h.step plant depth turn) hcourse with ⟨hanswers, hleft⟩
      simp only [answers, hturn, Option.map_none, Option.toList_none, List.nil_append, hanswers]
      exact ⟨trivial, (h.aside plant depth hturn).trans hleft⟩
    | some operation => simp [course, hturn] at hcourse

/-- Where a party is asked for the first time, it finds what was there in the beginning, at the
readings of its course. -/
theorem Independent.reach (h : scene.Independent regions) {schedule : List (Turn ι)}
    {operation : Operation} {readings : ClockId → Duration}
    {later : List (Operation × (ClockId → Duration))}
    (hcourse : scene.course (serve plant depth) i schedule = (operation, readings) :: later) :
    ∃ (before : Scene ι) (rest : List (Turn ι)),
      before.Independent regions ∧ scene.SameFor (regions i) i before ∧
      before.readings = readings ∧
      (before.step (serve plant depth) (.perform i operation)).course (serve plant depth) i rest =
        later ∧
      scene.answers (serve plant depth) i schedule =
        before.answer (serve plant depth) i operation ::
          (before.step (serve plant depth) (.perform i operation)).answers (serve plant depth) i
            rest ∧
      scene.play (serve plant depth) schedule =
        (before.step (serve plant depth) (.perform i operation)).play (serve plant depth) rest := by
  induction schedule generalizing scene with
  | nil => simp only [course] at hcourse; cases hcourse
  | cons turn rest ih =>
    cases hturn : turn.asked? i with
    | none =>
      simp only [course, hturn, Option.map_none, Option.toList_none, List.nil_append] at hcourse
      rcases ih (h.step plant depth turn) hcourse with
        ⟨before, left, hbefore, hsame, hreadings, hlater, hanswers, hplay⟩
      refine ⟨before, left, hbefore, (h.aside plant depth hturn).trans hsame, hreadings, hlater,
        ?_, hplay⟩
      simpa only [answers, hturn, Option.map_none, Option.toList_none, List.nil_append]
        using hanswers
    | some asked =>
      cases Turn.eq_perform_of_asked? hturn
      simp only [course, hturn, Option.map_some, Option.toList_some, List.cons_append,
        List.nil_append, List.cons.injEq, Prod.mk.injEq] at hcourse
      rcases hcourse with ⟨⟨rfl, hreadings⟩, hlater⟩
      refine ⟨scene, rest, h, .refl _ i scene, hreadings, hlater, ?_, rfl⟩
      simp only [answers, hturn, Option.map_some, Option.toList_some, List.cons_append,
        List.nil_append]

/-- A party with the same course does the same in two schedules, whatever else happens in them. -/
theorem Independent.agree (h : scene.Independent regions) (h' : other.Independent regions)
    (hsame : scene.SameFor (regions i) i other) {first second : List (Turn ι)}
    (hcourse : scene.course (serve plant depth) i first =
      other.course (serve plant depth) i second) :
    scene.answers (serve plant depth) i first = other.answers (serve plant depth) i second ∧
      (scene.play (serve plant depth) first).SameFor (regions i) i
        (other.play (serve plant depth) second) := by
  generalize hfirst : scene.course (serve plant depth) i first = asked at hcourse
  have hsecond := hcourse.symm
  clear hcourse
  induction asked generalizing scene other first second with
  | nil =>
    rcases h.idle plant depth hfirst with ⟨hanswers, hleft⟩
    rcases h'.idle plant depth hsecond with ⟨hanswers', hright⟩
    exact ⟨hanswers.trans hanswers'.symm, hleft.symm.trans (hsame.trans hright)⟩
  | cons asked later ih =>
    rcases h.reach plant depth hfirst with
      ⟨before, rest, hbefore, hleft, hreadings, hlater, hanswers, hplay⟩
    rcases h'.reach plant depth hsecond with
      ⟨before', rest', hbefore', hright, hreadings', hlater', hanswers', hplay'⟩
    rcases hbefore.together plant depth (hleft.symm.trans (hsame.trans hright))
      (hreadings.trans hreadings'.symm) asked.1 with ⟨hanswer, hboth⟩
    rcases ih (hbefore.step plant depth _) (hbefore'.step plant depth _) hboth hlater hlater' with
      ⟨hothers, hafter⟩
    rw [hanswers, hanswers', hplay, hplay', hanswer, hothers]
    exact ⟨rfl, hafter⟩

/-! ## Interleavings -/

/-- A schedule changes no cell outside of all regions, and no name. -/
theorem Independent.beyond (h : scene.Independent regions) (schedule : List (Turn ι)) :
    scene.world.SameCells (⋃ i, regions i)ᶜ (scene.play (serve plant depth) schedule).world ∧
      scene.world.directory = (scene.play (serve plant depth) schedule).world.directory := by
  induction schedule generalizing scene with
  | nil => exact ⟨.refl _ _, rfl⟩
  | cons turn rest ih =>
    rcases ih (h.step plant depth turn) with ⟨hcells, hnames⟩
    have hturn : scene.world.SameCells (⋃ i, regions i)ᶜ
          (scene.step (serve plant depth) turn).world ∧
        scene.world.directory = (scene.step (serve plant depth) turn).world.directory := by
      cases turn with
      | perform i operation =>
        rcases h.perform plant depth operation i with ⟨-, -, houtside⟩
        have hbeyond : (⋃ i, regions i)ᶜ ⊆ (regions i)ᶜ :=
          Set.compl_subset_compl.2 (Set.subset_iUnion regions i)
        exact ⟨(houtside.mono hbeyond).toSameCells, houtside.directory⟩
      | advance clock step =>
        exact ⟨World.sameCells_advance _ clock step _, (World.directory_advance clock step _).symm⟩
      | set clock reading => exact ⟨⟨fun _ _ => rfl, fun _ _ => rfl, fun _ _ => rfl⟩, rfl⟩
    exact ⟨hturn.1.trans hcells, hturn.2.trans hnames⟩

/-- Schedules in which every party has the same course agree: the parties give the same answers and
are left the same, and so are sources, numbers of calls, shared trees and names. -/
theorem Independent.interleavings (h : scene.Independent regions) {first second : List (Turn ι)}
    (hcourses : ∀ i, scene.course (serve plant depth) i first =
      scene.course (serve plant depth) i second) :
    (∀ i, scene.answers (serve plant depth) i first = scene.answers (serve plant depth) i second) ∧
      (scene.play (serve plant depth) first).parties =
        (scene.play (serve plant depth) second).parties ∧
      (scene.play (serve plant depth) first).world.SameCells Set.univ
        (scene.play (serve plant depth) second).world ∧
      (scene.play (serve plant depth) first).world.directory =
        (scene.play (serve plant depth) second).world.directory := by
  have hboth := fun i => h.agree plant depth h (.refl (regions i) i scene) (hcourses i)
  rcases h.beyond plant depth first with ⟨hleft, hnames⟩
  rcases h.beyond plant depth second with ⟨hright, hnames'⟩
  have hinside := World.SameCells.iUnion fun i => (hboth i).2.cells
  refine ⟨fun i => (hboth i).1, funext fun i => (hboth i).2.party, ?_, hnames.symm.trans hnames'⟩
  exact hinside.glue ((hleft.symm.trans hright).mono Set.inter_subset_right)

/-- Two operations on different parties may change places. -/
theorem Independent.commute (h : scene.Independent regions) {i j : ι} (hij : i ≠ j)
    (opI opJ : Operation) :
    let s := serve plant depth
    let first := (scene.parties i).perform s opI scene.world
    let thenSecond := (scene.parties j).perform s opJ first.2.2
    let second := (scene.parties j).perform s opJ scene.world
    let thenFirst := (scene.parties i).perform s opI second.2.2
    first.1 = thenFirst.1 ∧ thenSecond.1 = second.1 ∧ first.2.1 = thenFirst.2.1 ∧
      thenSecond.2.1 = second.2.1 ∧ thenSecond.2.2.SameWithin Set.univ thenFirst.2.2 := by
  have hcourses : ∀ k,
      scene.course (serve plant depth) k [.perform i opI, .perform j opJ] =
        scene.course (serve plant depth) k [.perform j opJ, .perform i opI] := by
    intro k
    simp only [course, h.readings_perform, Turn.asked?]
    by_cases hi : i = k
    · have hj : j ≠ k := fun hj => hij (hi.trans hj.symm)
      simp only [if_pos hi, if_neg hj]
      rfl
    · simp only [if_neg hi]
      simp
  rcases h.interleavings plant depth hcourses with ⟨hanswers, hparties, hcells, hnames⟩
  have hclocks : ∀ k l opK opL,
      (scene.play (serve plant depth) [.perform k opK, .perform l opL]).readings =
        scene.readings := by
    intro k l opK opL
    have hnext := h.step plant depth (.perform k opK)
    exact (hnext.readings_perform plant depth l opL).trans (h.readings_perform plant depth k opK)
  have hnow := (hclocks i j opI opJ).trans (hclocks j i opJ opI).symm
  have hworld : (scene.play (serve plant depth) [.perform i opI, .perform j opJ]).world.SameWithin
      Set.univ (scene.play (serve plant depth) [.perform j opJ, .perform i opI]).world :=
    ⟨hcells, congrFun hnow, hnames⟩
  have hfirst := hanswers i
  have hsecond := hanswers j
  have hleft := congrFun hparties i
  have hright := congrFun hparties j
  simp only [answers, answer, Turn.asked?, Scene.step, Scene.play, if_pos, if_neg hij,
    if_neg hij.symm, Function.update_self, Function.update_of_ne hij,
    Function.update_of_ne hij.symm, Option.map_some, Option.map_none, Option.toList_some,
    Option.toList_none, List.nil_append, List.append_nil, List.cons.injEq, and_true]
    at hfirst hsecond hleft hright hworld
  exact ⟨hfirst, hsecond, hleft, hright, hworld⟩

end Scene

end

end TickTree
