import TickTree.Proofs.Dealing.Episode

/-!
# Committed selections

A random selector draws one of its children when an activation begins, and stays with it until the
activation ends, however often it is ticked.  The draw is part of the first tick of an activation
and of no other one.

Main results:

- Theorem `Episode.current_eq`: the ticks of children are those of the episodes in the activation.
- Theorem `Composite.exists_selecting`: in every run the selection is the child that the activation
  has ticked, and there is none before its first tick.
- Theorem `Composite.selection_commits`: what a tick of a random selector does.
-/

namespace TickTree

variable {κ : Type}

open Dealing (LeadAll)

/-! ## Draws -/

/-- The position that is drawn in a dealing. -/
def Dealing.drawn? : Dealing → Option Nat
  | choose _ _ position => some position
  | _ => none

/-- Nothing is drawn when an activation ends. -/
@[simp] theorem Dealing.filterMap_drawn?_ending (status : Status) (count : Nat) :
    (ending status count).filterMap drawn? = [] := by
  unfold ending resets
  split
  · rw [List.filterMap_map]
    exact List.filterMap_eq_nil_iff.2 fun _ _ => rfl
  · rfl

/-- The positions that are drawn in an episode. -/
def Episode.draws (e : Episode) : List Nat := e.dealings.filterMap Dealing.drawn?

namespace Episode

/-! ## Activations -/

/-- The episodes of the current activation, after some episodes. -/
def activation (episodes : List Episode) : List Episode :=
  episodes.foldl (fun earlier e => if e.ends then [] else earlier ++ [e]) []

/-- An episode ends the activation or is a part of it. -/
@[simp] theorem activation_concat (episodes : List Episode) (e : Episode) :
    activation (episodes ++ [e]) = if e.ends then [] else activation episodes ++ [e] := by
  unfold activation
  rw [List.foldl_append]
  rfl

/-- The children that are ticked in an activation are those that are ticked in its episodes. -/
theorem current_eq (episodes : List Episode) :
    current episodes = (activation episodes).flatMap ticks := by
  induction episodes using List.reverseRecOn with
  | nil => rfl
  | append_singleton episodes e ih =>
    rw [current_concat, activation_concat]
    split
    · rfl
    · rw [List.flatMap_append, List.flatMap_singleton, ih]

/-- The activation has a tick in it. -/
def HasBegun (episodes : List Episode) : Prop := ∃ e ∈ activation episodes, e.operation = .tick

/-- A tick that does not end the activation begins it, if it has not begun. -/
theorem hasBegun_tick (episodes : List Episode) {e : Episode} (hoperation : e.operation = .tick)
    (hends : e.ends = false) : HasBegun (episodes ++ [e]) := by
  refine ⟨e, ?_, hoperation⟩
  rw [activation_concat, hends]
  exact List.mem_append_right _ (List.mem_singleton.2 rfl)

/-- After an episode that ends the activation a new one has no episodes yet. -/
theorem activation_of_ends (episodes : List Episode) {e : Episode} (hends : e.ends = true) :
    activation (episodes ++ [e]) = [] := by
  rw [activation_concat, if_pos hends]

/-- Starting and finishing become a part of the activation. -/
theorem activation_idle (episodes : List Episode) {operation : Operation}
    (h : operation ≠ .reset) :
    activation (episodes ++ [⟨operation, .done, []⟩]) =
      activation episodes ++ [⟨operation, .done, []⟩] := by
  rw [activation_concat]
  cases operation with
  | tick => rfl
  | reset => exact absurd rfl h
  | start => rfl
  | finish => rfl

/-- Starting and finishing begin no activation. -/
theorem hasBegun_idle (episodes : List Episode) {operation : Operation} (htick : operation ≠ .tick)
    (hreset : operation ≠ .reset) :
    HasBegun (episodes ++ [⟨operation, .done, []⟩]) ↔ HasBegun episodes := by
  unfold HasBegun
  rw [activation_idle episodes hreset]
  constructor
  · rintro ⟨e, he, hoperation⟩
    rcases List.mem_append.1 he with hearlier | hlatest
    · exact ⟨e, hearlier, hoperation⟩
    · rw [List.mem_singleton.1 hlatest] at hoperation
      exact absurd hoperation htick
  · rintro ⟨e, he, hoperation⟩
    exact ⟨e, List.mem_append_left _ he, hoperation⟩

end Episode

namespace Composite

/-! ## One tick -/

/-- What a tick of a random selector comes to that has some children and a selection, when it ticks
the child at a position, which gives a status. -/
structure Commitment (source : SourceId) (count : Nat) (selected : Option Nat) (position : Nat)
    (status : Status) (step : Episode × (Composite × List κ) × World) : Prop where
  within : position < count
  /-- It is the selected child, if there is a selection. -/
  kept : ∀ chosen ∈ selected, chosen = position
  /-- The status of the child is passed on. -/
  answer : step.1.answer = .ticked status
  /-- Without a selection the child is drawn first.  It is ticked once, and no other child is.  Then
  all children are reset in order if the status ends the activation, and none otherwise. -/
  dealings : step.1.dealings =
    (if selected = none then [.choose source count position] else []) ++
      .tick position status :: Dealing.ending status count
  /-- The selection is the child as long as the activation goes on. -/
  left : step.2.1.1 = .randomSelector source (if status.isPending then some position else none)

/-- A selection is kept, and a new one is within the children. -/
theorem choose_within (source : SourceId) {selected : Option Nat} {bound : Nat}
    (hbound : 0 < bound) (hselected : ∀ chosen ∈ selected, chosen < bound) (w : World) :
    (choose source selected bound w).1 < bound ∧
      (∀ chosen ∈ selected, chosen = (choose source selected bound w).1) ∧
      chooseDealings source selected bound w =
        if selected = none then [.choose source bound (choose source selected bound w).1]
        else [] := by
  cases selected with
  | some chosen =>
    refine ⟨hselected chosen rfl, ?_, rfl⟩
    intro other hother
    cases hother
    rfl
  | none =>
    refine ⟨Source.index_lt hbound _, ?_, rfl⟩
    intro other hother
    cases hother

/-- A tick of a random selector with children commits it to one of them. -/
theorem exists_commitment (u : Units κ) (source : SourceId) {selected : Option Nat}
    {children : List κ} (hchildren : children ≠ [])
    (hselected : ∀ chosen ∈ selected, chosen < children.length) (w : World) :
    ∃ position status, Commitment source children.length selected position status
      (conduct u .tick (.randomSelector source selected, children) w) := by
  have hempty : children.isEmpty = false := by
    rw [Bool.eq_false_iff]
    exact fun h => hchildren (List.isEmpty_iff.1 h)
  have hbound : 0 < children.length := List.length_pos_iff.2 hchildren
  rcases choose_within source hbound hselected w with ⟨hwithin, hkept, hdealings⟩
  let chosen := choose source selected children.length w
  have hchild : children[chosen.1]? = some children[chosen.1] := List.getElem?_eq_getElem hwithin
  let t := u.tick children[chosen.1] chosen.2
  have hat : tickAt chosen.1 (children.map u.offer) chosen.2 =
      ⟨t.status, children.set chosen.1 t.state, t.world⟩ := by
    rw [tickAt_offer, hchild]
  have htick : tick u.reset (.randomSelector source selected) (children.map u.offer) w =
      settle u.reset (.randomSelector source (some chosen.1))
        ⟨t.status, children.set chosen.1 t.state, t.world⟩ := by
    rw [← hat]
    simp only [tick, List.isEmpty_map, hempty, List.length_map, Bool.false_eq_true, if_false,
      chosen]
  refine ⟨chosen.1, t.status, hwithin, hkept, ?_, ?_, ?_⟩
  · simp only [conduct, htick, status_settle]
  · simp only [conduct, dealings, htick, status_settle, hempty, Bool.false_eq_true, if_false]
    rw [hdealings, tickAtDealings, hchild, List.append_assoc]
    rfl
  · simp only [conduct, htick, settle, Status.isPending_eq_not_isCompleted]
    cases t.status.isCompleted <;> rfl

variable {source : SourceId} {selected : Option Nat} {count position : Nat} {status : Status}
  {episodes : List Episode} {x : Composite × List κ}
  {step : Episode × (Composite × List κ) × World}

/-- In a commitment only the child is ticked. -/
theorem Commitment.ticks (h : Commitment source count selected position status step) :
    step.1.ticks = [(position, status)] := by
  rw [Episode.ticks, h.dealings, List.filterMap_append]
  simp only [List.filterMap_cons, Dealing.tick?, Dealing.filterMap_tick?_ending]
  split <;> rfl

/-- In a commitment only a child that was not selected is drawn. -/
theorem Commitment.draws (h : Commitment source count selected position status step) :
    step.1.draws = if selected = none then [position] else [] := by
  rw [Episode.draws, h.dealings, List.filterMap_append]
  simp only [List.filterMap_cons, Dealing.drawn?, Dealing.filterMap_drawn?_ending]
  split <;> rfl

/-! ## Runs -/

/-- Where a random selector with so many children stands in the course of its activation. -/
structure Selecting (source : SourceId) (count : Nat) (episodes : List Episode)
    (x : Composite × List κ) (selected : Option Nat) : Prop where
  part : x.1 = .randomSelector source selected
  length : x.2.length = count
  within : ∀ chosen ∈ selected, chosen < count
  /-- There is a selection from the first tick of the activation on, if there are children. -/
  begun : count ≠ 0 → (selected ≠ none ↔ Episode.HasBegun episodes)
  /-- It is what was drawn in the activation, and nothing else was. -/
  drawn : (Episode.activation episodes).flatMap Episode.draws = selected.toList
  /-- Only the selected child has been ticked. -/
  kept : ∀ t ∈ Episode.current episodes, selected = some t.1

/-- At the beginning of an activation there is no selection. -/
theorem selecting_none (hpart : x.1 = .randomSelector source none) (hlength : x.2.length = count)
    (hactivation : Episode.activation episodes = []) :
    Selecting source count episodes x none := by
  have hcurrent : Episode.current episodes = [] := by
    rw [Episode.current_eq, hactivation]
    rfl
  refine ⟨hpart, hlength, ?_, fun _ => ?_, ?_, ?_⟩
  · intro chosen hchosen
    cases hchosen
  · refine iff_of_false (fun h => h rfl) ?_
    rintro ⟨first, hfirst, -⟩
    rw [hactivation] at hfirst
    exact List.not_mem_nil hfirst
  · rw [hactivation]
    rfl
  · rw [hcurrent]
    exact fun t ht => absurd ht List.not_mem_nil

/-- After a tick it stands where the commitment says. -/
theorem Selecting.commit (h : Selecting source count episodes x selected)
    (hstep : Commitment source count selected position status step)
    (hlength : step.2.1.2.length = count) (hoperation : step.1.operation = .tick) :
    ∃ selected, Selecting source count (episodes ++ [step.1]) step.2.1 selected := by
  have hends : step.1.ends = status.isCompleted := by
    rw [Episode.ends, hoperation, hstep.answer]
  have hleft := hstep.left
  rw [Status.isPending_eq_not_isCompleted] at hleft
  cases hcompleted : status.isCompleted with
  | true =>
    rw [hcompleted] at hends hleft
    exact ⟨none, selecting_none hleft hlength (Episode.activation_of_ends episodes hends)⟩
  | false =>
    rw [hcompleted] at hends hleft
    refine ⟨some position, hleft, hlength, ?_, fun _ => ?_, ?_, ?_⟩
    · intro chosen hchosen
      cases hchosen
      exact hstep.within
    · exact iff_of_true (Option.some_ne_none position)
        (Episode.hasBegun_tick episodes hoperation hends)
    · rw [Episode.activation_concat, hends, if_neg Bool.false_ne_true, List.flatMap_append,
        List.flatMap_singleton, h.drawn, hstep.draws]
      cases selected with
      | none => rfl
      | some chosen => rw [hstep.kept chosen rfl]; rfl
    · intro t ht
      rw [Episode.current_concat, hends, if_neg Bool.false_ne_true, hstep.ticks] at ht
      rcases List.mem_append.1 ht with hearlier | hlatest
      · rw [hstep.kept t.1 (h.kept t hearlier)]
      · rw [List.mem_singleton.1 hlatest]

/-- Without children nothing is ever selected. -/
theorem Selecting.eq_none (h : Selecting source 0 episodes x selected) : selected = none := by
  cases selected with
  | none => rfl
  | some chosen => exact absurd (h.within chosen rfl) (Nat.not_lt_zero chosen)

/-- After every run a random selector stands somewhere in its activation. -/
theorem exists_selecting (u : Units κ) (source : SourceId) (children : List κ)
    (steps : List (Operation × World)) :
    let before := (conduct u).run (.randomSelector source none, children) steps
    ∃ selected, Selecting source children.length before.1 before.2 selected := by
  refine (conduct u).run_induction
    (P := fun episodes x => ∃ selected, Selecting source children.length episodes x selected)
    ⟨none, selecting_none rfl rfl rfl⟩ ?_ steps
  rintro episodes ⟨part, states⟩ operation w ⟨selected, h⟩
  have hpart : part = .randomSelector source selected := h.part
  have hstates : states.length = children.length := h.length
  subst hpart
  have hidle : ∀ {operation : Operation}, operation ≠ .tick → operation ≠ .reset →
      Selecting source children.length (episodes ++ [⟨operation, .done, []⟩])
        (.randomSelector source selected, states) selected := by
    intro operation htick hreset
    refine ⟨rfl, hstates, h.within, ?_, ?_, ?_⟩
    · rw [Episode.hasBegun_idle episodes htick hreset]
      exact h.begun
    · rw [Episode.activation_idle episodes hreset, List.flatMap_append, h.drawn]
      exact List.append_nil _
    · rw [Episode.current_idle episodes hreset]
      exact h.kept
  cases operation with
  | tick =>
    by_cases hempty : states = []
    · subst hempty
      have hnone : selected = none := by
        rw [← hstates] at h
        exact h.eq_none
      subst hnone
      exact ⟨none, selecting_none rfl hstates (Episode.activation_of_ends episodes rfl)⟩
    · rcases exists_commitment u source hempty (hstates ▸ h.within) w with
        ⟨position, status, hstep⟩
      rw [hstates] at hstep
      exact h.commit hstep ((length_state_tick _ states w).trans hstates) rfl
  | reset =>
    have hlength := (length_resetAll u.reset states w).trans hstates
    exact ⟨none, selecting_none rfl hlength (Episode.activation_of_ends episodes rfl)⟩
  | start => exact ⟨selected, hidle (by decide) (by decide)⟩
  | finish => exact ⟨selected, hidle (by decide) (by decide)⟩

/-- What a tick of a random selector does, in every run.  Without children it fails, and nothing
else happens.  With children it is committed to one of them: it is drawn exactly at the first tick
of the activation, it is the only one that is ticked in the activation, and it is the selection
until the activation ends. -/
theorem selection_commits (s : Service) (u : Units κ) (source : SourceId) (children : List κ)
    (steps : List (Operation × World)) (w : World) :
    let before := (conduct u).run (.randomSelector source none, children) steps
    let step := conduct u .tick before.2 w
    (children = [] → before.2 = (.randomSelector source none, []) ∧
      step = (⟨.tick, .ticked .failure, []⟩, before.2, w)) ∧
    (children ≠ [] → ∃ selected position status,
      Selecting source children.length before.1 before.2 selected ∧
      Commitment source children.length selected position status step ∧
      (selected = none ↔ ¬ Episode.HasBegun before.1) ∧
      (∀ e ∈ Episode.activation before.1, ∀ t ∈ e.ticks, t.1 = position) ∧
      LeadAll s u step.1.dealings (before.2.2, w) (step.2.1.2, step.2.2)) := by
  intro before step
  rcases exists_selecting u source children steps with ⟨selected, h⟩
  have hpart : before.2 = (.randomSelector source selected, before.2.2) := Prod.ext h.part rfl
  have hlength : before.2.2.length = children.length := h.length
  constructor
  · rintro rfl
    have hnil : before.2.2 = [] := List.length_eq_zero_iff.1 hlength
    rw [h.eq_none, hnil] at hpart
    refine ⟨hpart, ?_⟩
    simp only [step, hpart]
    rfl
  · intro hchildren
    have hcount : children.length ≠ 0 := mt List.length_eq_zero_iff.1 hchildren
    have hstates : before.2.2 ≠ [] := mt List.length_eq_zero_iff.2 (hlength ▸ hcount)
    rcases exists_commitment u source hstates (hlength ▸ h.within) w with
      ⟨position, status, hstep⟩
    rw [hlength, ← hpart] at hstep
    refine ⟨selected, position, status, h, hstep, ?_, ?_, leadAll_conduct .tick before.2 w⟩
    · rw [← h.begun hcount, not_not]
    · intro e he t ht
      have hcurrent : t ∈ Episode.current before.1 := by
        rw [Episode.current_eq]
        exact List.mem_flatMap.2 ⟨e, he, ht⟩
      exact hstep.kept t.1 (h.kept t hcurrent)

/-- Over a source of zeros the first of two children is drawn; it runs, so the second tick draws
nothing and ticks it again. -/
theorem selection_commits_pair :
    let u : Units Status := ⟨fun k w => ⟨k, k, w⟩, fun k w => (k, w)⟩
    let w := World.start (.empty .start) (.empty ⟨fun _ => 0, 0⟩)
    let children := [Status.running, Status.success]
    let before := (conduct u).run (.randomSelector 0 none, children) [(.tick, w)]
    let step := conduct u .tick before.2 w
    children ≠ [] ∧ before.2.1 = .randomSelector 0 (some 0) ∧
      step.1.dealings = [.tick 0 .running] := by
  intro u w children before step
  let s : Service := ⟨fun _ _ w => (.refused, w), fun _ w => (none, w)⟩
  have hchildren : children ≠ [] := List.cons_ne_nil _ _
  have hfirst : before.2.1 = .randomSelector 0 (some 0) := by
    unfold before children w u
    rfl
  have hanswer : step.1.answer = .ticked .running := by
    unfold step before children w u
    rfl
  rcases (selection_commits s u 0 children [(.tick, w)] w).2 hchildren with
    ⟨selected, position, status, hselecting, hcommitment, -⟩
  have hselected : selected = some 0 := by
    cases hselecting.part.symm.trans hfirst
    rfl
  have hposition : 0 = position := hcommitment.kept 0 hselected
  have hstatus : status = .running := Answer.ticked.inj (hcommitment.answer.symm.trans hanswer)
  refine ⟨hchildren, hfirst, hcommitment.dealings.trans ?_⟩
  rw [hselected, ← hposition, hstatus]
  rfl

end Composite

end TickTree
