import TickTree.Proofs.Dealing.Episode

/-!
# Resumable folds

A sequence goes through its children from the left and stops at the first that does not succeed; a
selector stops at the first that does not fail.  When the child that stops it is pending, the next
tick resumes there.  So in the course of an activation each child lets it go on at most once, and
the children that have done so are those before the cursor.

Main results:

- Theorem `Chain.exists_reach`: how far one pass gets, and what it does with the children.
- Theorem `Chain.resumes`: every tick in a run of a sequence or selector goes on where the
  activation stands.
-/

namespace TickTree

variable {κ : Type}

open Dealing (LeadAll)

namespace Chain

/-! ## One pass -/

/-- A pass over so many children goes on at `passed` of them, from a position, and then stops at one
with the status `last`, which is the first that does not let it go on; or it gets to the end. -/
structure Reach (kind : Chain) (count position passed : Nat) (last : Option Status) : Prop where
  stopped : ∀ status ∈ last, status ≠ kind.passes ∧ position + passed < count
  through : last = none → position + passed = count

/-- The ticks of such a pass: each child once, in order, and no other child. -/
def ticked (kind : Chain) (position passed : Nat) (last : Option Status) : List (Nat × Status) :=
  (List.range' position passed).map (·, kind.passes) ++ last.toList.map (position + passed, ·)

/-- One more child before the others. -/
theorem ticked_succ (kind : Chain) (position passed : Nat) (last : Option Status) :
    kind.ticked position (passed + 1) last =
      (position, kind.passes) :: kind.ticked (position + 1) passed last := by
  have hnext : position + 1 + passed = position + (passed + 1) := by omega
  simp only [ticked, List.range'_succ, List.map_cons, List.cons_append, hnext]

/-- How far one pass gets, and what it does with the children. -/
theorem exists_reach (u : Units κ) (kind : Chain) (name : String) (position : Nat) (rest : List κ)
    (w : World) :
    let pass := kind.pass name position (rest.map u.offer) w
    ∃ passed last, kind.Reach (position + rest.length) position passed last ∧
      (kind.dealings u name position rest w).filter Dealing.isHandling =
        (kind.ticked position passed last).map (fun t => .tick t.1 t.2) ∧
      pass.status = last.getD kind.passes ∧ pass.position = position + passed := by
  induction rest generalizing position w with
  | nil =>
    refine ⟨0, none, ⟨?_, fun _ => rfl⟩, rfl, rfl, rfl⟩
    exact fun _ hlast => absurd hlast (Option.not_mem_none _)
  | cons k rest ih =>
    simp only [List.map_cons, pass, dealings, Units.offer]
    by_cases hgoes : (u.tick k w).status = kind.passes
    · simp only [if_pos hgoes]
      rcases ih (position + 1) ((u.tick k w).world.report .trace
        s!"{name} {kind.progress} {position + 1}") with
        ⟨passed, last, hreach, hdealings, hstatus, hposition⟩
      refine ⟨passed + 1, last, ⟨?_, ?_⟩, ?_, hstatus, ?_⟩
      · intro status hlast
        have hstopped := hreach.stopped status hlast
        rw [List.length_cons]
        exact ⟨hstopped.1, by omega⟩
      · intro hnone
        have hthrough := hreach.through hnone
        rw [List.length_cons]
        omega
      · rw [ticked_succ, List.map_cons, ← hdealings, hgoes]
        rfl
      · rw [hposition]
        omega
    · simp only [if_neg hgoes]
      refine ⟨0, some (u.tick k w).status, ⟨?_, fun h => by cases h⟩, rfl, rfl, rfl⟩
      intro status hlast
      cases hlast
      exact ⟨hgoes, by simp⟩

/-! ## One tick -/

/-- What a tick of a sequence or selector comes to that has so many children and stands at a
cursor. -/
structure Turn (kind : Chain) (name : String) (count cursor passed : Nat) (last : Option Status)
    (step : Episode × (Composite × List κ) × World) : Prop where
  /-- It gets from the cursor to the first child that does not let it go on, or to the end. -/
  reach : kind.Reach count cursor passed last
  /-- It gives the status of that child, or else the one with which children let it go on. -/
  answer : step.1.answer = .ticked (last.getD kind.passes)
  /-- It ticks these children and no others, and then it resets all children in order if the status
  ends the activation, and none otherwise. -/
  handlings : step.1.dealings.filter Dealing.isHandling =
    (kind.ticked cursor passed last).map (fun t => .tick t.1 t.2) ++
      Dealing.ending (last.getD kind.passes) count
  /-- It stands at that child if the child is pending, and at the first child otherwise. -/
  stands : step.2.1.1 =
    .chain kind name (if (last.getD kind.passes).isPending then cursor + passed else 0)

/-- The children that are ticked in a turn. -/
theorem Turn.ticks {kind : Chain} {name : String} {count cursor passed : Nat} {last : Option Status}
    {step : Episode × (Composite × List κ) × World}
    (h : kind.Turn name count cursor passed last step) :
    step.1.ticks = kind.ticked cursor passed last := by
  unfold Episode.ticks
  rw [← Dealing.filterMap_tick?_filter, h.handlings, List.filterMap_append,
    Dealing.filterMap_tick?_ending, List.append_nil, List.filterMap_map]
  exact List.filterMap_some

/-- A tick of a sequence or selector is a turn. -/
theorem exists_turn (u : Units κ) (kind : Chain) (name : String) {cursor : Nat} {children : List κ}
    (hcursor : cursor ≤ children.length) (w : World) :
    ∃ passed last, kind.Turn name children.length cursor passed last
      (Composite.conduct u .tick (.chain kind name cursor, children) w) := by
  rcases exists_reach u kind name cursor (children.drop cursor) w with
    ⟨passed, last, hreach, hdealings, hstatus, hposition⟩
  rw [List.length_drop, Nat.add_sub_cancel' hcursor] at hreach
  rw [List.map_drop] at hstatus hposition
  have hticked : (Composite.tick u.reset (.chain kind name cursor) (children.map u.offer) w).status
      = last.getD kind.passes := by
    rw [Composite.tick, Composite.status_settle]
    exact hstatus
  refine ⟨passed, last, hreach, congrArg Answer.ticked hticked, ?_, ?_⟩
  · simp only [Composite.conduct, Composite.dealings, List.filter_append, hdealings, hticked,
      Dealing.filter_isHandling_ending]
  · simp only [Composite.conduct, Composite.tick, Composite.settle, hstatus, hposition,
      Status.isPending_eq_not_isCompleted]
    cases (last.getD kind.passes).isCompleted <;> rfl

/-! ## Runs -/

/-- Where a sequence or selector with so many children stands in the course of its activation. -/
structure Standing (kind : Chain) (name : String) (count : Nat) (episodes : List Episode)
    (x : Composite × List κ) (cursor : Nat) : Prop where
  part : x.1 = .chain kind name cursor
  length : x.2.length = count
  within : cursor ≤ count
  /-- The children before the cursor have let it go on, in order and each once, and no others. -/
  passed : ((Episode.current episodes).filter (·.2 = kind.passes)).map Prod.fst = List.range cursor
  /-- No child that has let it go on was ticked again. -/
  once : (Episode.current episodes).Pairwise fun a b => a.2 = kind.passes → b.1 ≠ a.1

variable {kind : Chain} {name : String} {count cursor passed : Nat} {last : Option Status}
  {episodes : List Episode} {x : Composite × List κ}
  {step : Episode × (Composite × List κ) × World}

/-- A pass ticks no child before its first position. -/
theorem le_of_mem_ticked {t : Nat × Status} (h : t ∈ kind.ticked cursor passed last) :
    cursor ≤ t.1 := by
  simp only [ticked, List.mem_append, List.mem_map, List.mem_range'_1] at h
  rcases h with ⟨position, hposition, rfl⟩ | ⟨status, -, rfl⟩
  · exact hposition.1
  · exact Nat.le_add_right cursor passed

/-- A pass ticks no child twice. -/
theorem pairwise_ticked (kind : Chain) (cursor passed : Nat) (last : Option Status) :
    (kind.ticked cursor passed last).Pairwise fun a b => b.1 ≠ a.1 := by
  induction passed generalizing cursor with
  | zero => cases last <;> simp [ticked]
  | succ passed ih =>
    rw [ticked_succ, List.pairwise_cons]
    refine ⟨?_, ih (cursor + 1)⟩
    intro t ht
    have hlater : cursor + 1 ≤ t.1 := le_of_mem_ticked ht
    show t.1 ≠ cursor
    omega

/-- A pass does not get beyond the last child. -/
theorem Reach.le (h : kind.Reach count cursor passed last) : cursor + passed ≤ count := by
  cases last with
  | none => exact Nat.le_of_eq (h.through rfl)
  | some status => exact Nat.le_of_lt (h.stopped status rfl).2

/-- The children that let a pass go on are those that it has passed. -/
theorem Reach.filter_ticked (h : kind.Reach count cursor passed last) :
    ((kind.ticked cursor passed last).filter (·.2 = kind.passes)).map Prod.fst =
      List.range' cursor passed := by
  have hlast : (last.toList.map (cursor + passed, ·)).filter (·.2 = kind.passes) = [] := by
    rw [List.filter_eq_nil_iff]
    intro t ht
    rcases List.mem_map.1 ht with ⟨status, hstatus, rfl⟩
    simpa using (h.stopped status (Option.mem_toList.1 hstatus)).1
  rw [ticked, List.filter_append, hlast, List.append_nil, List.filter_map]
  simp [Function.comp_def]

/-- No child that has let the activation go on is ticked again. -/
theorem Standing.once_turn (h : kind.Standing name count episodes x cursor)
    (hturn : kind.Turn name count cursor passed last step) :
    (Episode.current episodes ++ step.1.ticks).Pairwise
      fun a b => a.2 = kind.passes → b.1 ≠ a.1 := by
  rw [hturn.ticks, List.pairwise_append]
  refine ⟨h.once, ?_, ?_⟩
  · refine (pairwise_ticked kind cursor passed last).imp ?_
    intro a b hne _
    exact hne
  · intro a ha b hb hpassed
    have hbefore : a.1 < cursor := by
      have hmem : a.1 ∈ ((Episode.current episodes).filter (·.2 = kind.passes)).map Prod.fst :=
        List.mem_map_of_mem (List.mem_filter.2 ⟨ha, decide_eq_true hpassed⟩)
      rwa [h.passed, List.mem_range] at hmem
    have hafter : cursor ≤ b.1 := le_of_mem_ticked hb
    omega

/-- At the beginning of an activation a sequence or selector stands at its first child. -/
theorem standing_zero (hpart : x.1 = .chain kind name 0) (hlength : x.2.length = count)
    (hcurrent : Episode.current episodes = []) : kind.Standing name count episodes x 0 := by
  refine ⟨hpart, hlength, Nat.zero_le count, ?_, ?_⟩
  · rw [hcurrent]
    rfl
  · rw [hcurrent]
    exact .nil

/-- Where it stands is a matter of the current activation only. -/
theorem Standing.congr (h : kind.Standing name count episodes x cursor) {others : List Episode}
    (hcurrent : Episode.current others = Episode.current episodes) :
    kind.Standing name count others x cursor :=
  ⟨h.part, h.length, h.within, hcurrent ▸ h.passed, hcurrent ▸ h.once⟩

/-- After a tick it stands where the tick says. -/
theorem Standing.turn (h : kind.Standing name count episodes x cursor)
    (hturn : kind.Turn name count cursor passed last step) (hlength : step.2.1.2.length = count)
    (hoperation : step.1.operation = .tick) :
    ∃ cursor', kind.Standing name count (episodes ++ [step.1]) step.2.1 cursor' := by
  have hends : step.1.ends = (last.getD kind.passes).isCompleted := by
    rw [Episode.ends, hoperation, hturn.answer]
  cases hcompleted : (last.getD kind.passes).isCompleted with
  | true =>
    have hstands := hturn.stands
    rw [Status.isPending_eq_not_isCompleted, hcompleted] at hstands
    refine ⟨0, standing_zero hstands hlength ?_⟩
    rw [Episode.current_concat, hends, hcompleted, if_pos rfl]
  | false =>
    have hstands := hturn.stands
    rw [Status.isPending_eq_not_isCompleted, hcompleted] at hstands
    have hcurrent : Episode.current (episodes ++ [step.1]) =
        Episode.current episodes ++ step.1.ticks := by
      rw [Episode.current_concat, hends, hcompleted]
      rfl
    refine ⟨cursor + passed, hstands, hlength, hturn.reach.le, ?_, ?_⟩
    · have hrange := List.range'_append_1 (s := 0) (m := cursor) (n := passed)
      rw [Nat.zero_add] at hrange
      rw [hcurrent, List.filter_append, List.map_append, h.passed, hturn.ticks,
        hturn.reach.filter_ticked, List.range_eq_range', List.range_eq_range']
      exact hrange
    · rw [hcurrent]
      exact h.once_turn hturn

/-- After every run a sequence or selector stands somewhere in its activation. -/
theorem exists_standing (u : Units κ) (kind : Chain) (name : String) (children : List κ)
    (steps : List (Operation × World)) :
    let before := (Composite.conduct u).run (Composite.named kind name, children) steps
    ∃ cursor, kind.Standing name children.length before.1 before.2 cursor := by
  refine (Composite.conduct u).run_induction
    (P := fun episodes x => ∃ cursor, kind.Standing name children.length episodes x cursor)
    ⟨0, standing_zero rfl rfl rfl⟩ ?_ steps
  rintro episodes ⟨part, states⟩ operation w ⟨cursor, h⟩
  have hpart : part = .chain kind name cursor := h.part
  have hstates : states.length = children.length := h.length
  subst hpart
  cases operation with
  | tick =>
    rcases exists_turn u kind name (hstates ▸ h.within) w with ⟨passed, last, hturn⟩
    rw [hstates] at hturn
    exact h.turn hturn ((Composite.length_state_tick _ states w).trans hstates) rfl
  | reset =>
    have hlength := (length_resetAll u.reset states w).trans hstates
    exact ⟨0, standing_zero rfl hlength (Episode.current_reset episodes _ _)⟩
  | start => exact ⟨cursor, h.congr (Episode.current_idle episodes (by decide))⟩
  | finish => exact ⟨cursor, h.congr (Episode.current_idle episodes (by decide))⟩

/-- Every tick in a run of a sequence or selector goes on where the activation stands: at the
cursor.  The children before it are those that have let the activation go on, each once, and none
of them is ticked again before the activation ends; the tick does what a turn from there does, and
nothing else with its children. -/
theorem resumes (s : Service) (u : Units κ) (kind : Chain) (name : String) (children : List κ)
    (steps : List (Operation × World)) (w : World) :
    let before := (Composite.conduct u).run (Composite.named kind name, children) steps
    let step := Composite.conduct u .tick before.2 w
    ∃ cursor passed last,
      kind.Standing name children.length before.1 before.2 cursor ∧
      kind.Turn name children.length cursor passed last step ∧
      LeadAll s u step.1.dealings (before.2.2, w) (step.2.1.2, step.2.2) ∧
      (Episode.current before.1 ++ step.1.ticks).Pairwise
        (fun a b => a.2 = kind.passes → b.1 ≠ a.1) := by
  intro before step
  rcases exists_standing u kind name children steps with ⟨cursor, h⟩
  have hpart : before.2 = (.chain kind name cursor, before.2.2) := Prod.ext h.part rfl
  have hwithin : cursor ≤ before.2.2.length := h.length ▸ h.within
  rcases exists_turn u kind name hwithin w with ⟨passed, last, hturn⟩
  rw [h.length, ← hpart] at hturn
  exact ⟨cursor, passed, last, h, hturn, Composite.leadAll_conduct .tick before.2 w,
    h.once_turn hturn⟩

/-- The second of three children sleeps at first; the sequence comes back to it, and not to the
first one. -/
example :
    let u : Units (List Status) := ⟨fun k w => ⟨k.headD .success, k.tail, w⟩, fun k w => (k, w)⟩
    let w := World.start (.empty .start) (.empty (.seeded 0))
    let children := [[.success], [.sleeping, .success], [.failure]]
    let run := (Composite.conduct u).run (Composite.named .sequence "watch", children)
      [(.tick, w), (.tick, w)]
    run.1.map Episode.ticks =
      [[(0, .success), (1, .sleeping)], [(1, .success), (2, .failure)]] := by
  rfl

end Chain

end TickTree
