import TickTree.Proofs.Coupling.Agreement
import TickTree.Proofs.Duality.Crown

/-!
# Duals of trees

Sequences and selectors are dual to each other, and so are repetitions and retries.  When all of
them are exchanged in the upper part of a tree, and every node below is put under an inverter, the
new tree goes the same way as the old one: it ticks and resets the same nodes in the same order, and
gives success where the old one gives failure.

The nodes below may be anything.  To tell them apart, each is known by its place: the positions of
the children on the way to it, the last one first.

Main results:

- Theorem `course_related`: related ticks and resets give related courses.
- Theorem `Node.node_crownAt`: a tree is the tree of its crown, and its dual that of the dual crown.
- Theorem `Node.dual_mirrors`: the course of the dual of a tree mirrors that of the tree.
-/

namespace TickTree

/-! ## Histories without log records -/

/-- The event is more than a log record. -/
def Event.isDeed : Event → Bool
  | logged _ _ => false
  | _ => true

namespace World

/-- An agreement on a sort of events without log records does not see these. -/
theorem deaf_agreeOn {sort : Event → Bool}
    (h : ∀ level message, sort (.logged level message) = false) : Deaf (AgreeOn sort) where
  left _ _ hw := hw.emit_left (h _ _)
  right _ _ hw := hw.emit_right (h _ _)

/-- An agreement on deeds does not see log records. -/
theorem deaf_agreeOn_isDeed : Deaf (AgreeOn Event.isDeed) := deaf_agreeOn fun _ _ => rfl

/-- Notes an event, if there is one. -/
def note (event : Option Event) (w : World) : World :=
  match event with
  | none => w
  | some event => w.emit event

end World

/-! ## Courses -/

/-- A step in the course of a tree: its root is ticked or reset, or the host does something. -/
inductive Step where
  | tick
  | reset
  | act (effect : Effect)

section

variable {κ μ : Type}

/-- The statuses of the ticks in a course of steps, and the world after it. -/
def course (s : Service) (tick : κ → World → Ticked κ) (reset : κ → World → κ × World) :
    List Step → κ → World → List Status × World
  | [], _, w => ([], w)
  | .tick :: rest, k, w =>
    let t := tick k w
    let others := course s tick reset rest t.state t.world
    (t.status :: others.1, others.2)
  | .reset :: rest, k, w =>
    let after := reset k w
    course s tick reset rest after.1 after.2
  | .act effect :: rest, k, w => course s tick reset rest k (effect.perform s w)

/-- Related ticks and resets give related courses, with the statuses on one side read from those on
the other. -/
theorem course_related {S : κ → μ → Prop} {R : World → World → Prop} {s : Service}
    {tick : κ → World → Ticked κ} {tick' : μ → World → Ticked μ}
    {reset : κ → World → κ × World} {reset' : μ → World → μ × World} {reading : Status → Status}
    (hR : World.Coupling R) (hs : Service.Alike R s s)
    (htick : ∀ {k m v w}, S k m → R v w →
      (tick k v).status = reading (tick' m w).status ∧ S (tick k v).state (tick' m w).state ∧
        R (tick k v).world (tick' m w).world)
    (hreset : ResetsAlike S R reset reset') (steps : List Step) {k : κ} {m : μ} {v w : World}
    (hk : S k m) (hw : R v w) :
    (course s tick reset steps k v).1 = (course s tick' reset' steps m w).1.map reading ∧
      R (course s tick reset steps k v).2 (course s tick' reset' steps m w).2 := by
  induction steps generalizing k m v w with
  | nil => exact ⟨rfl, hw⟩
  | cons step rest ih =>
    cases step with
    | tick =>
      rcases htick hk hw with ⟨hstatus, hstate, hworld⟩
      rcases ih hstate hworld with ⟨hothers, hlast⟩
      refine ⟨?_, hlast⟩
      simp only [course, hstatus, hothers, List.map_cons]
    | reset =>
      rcases hreset hk hw with ⟨hstate, hworld⟩
      exact ih hstate hworld
    | act effect => exact ih hk (Effect.performAll_coupled hR hs [effect] hw)

end

/-- A course of a node. -/
def Node.course (s : Service) (steps : List Step) (n : Node) (w : World) : List Status × World :=
  TickTree.course s (Node.tick s) (Node.reset s) steps n w

/-- A course of a crown. -/
def Crown.course {κ : Type} (s : Service) (u : Units κ) (steps : List Step) (c : Crown κ)
    (w : World) : List Status × World :=
  TickTree.course s (Crown.tick u) (Crown.reset u) steps c w

/-- The course of the dual of a crown mirrors that of the crown. -/
theorem Crown.course_dual {κ : Type} {R : World → World → Prop} {s : Service} {u : Units κ}
    (hR : World.Coupling R) (hdeaf : World.Deaf R) (hs : Service.Alike R s s) (hu : u.Steady R)
    (rename : String → String) (steps : List Step) (c : Crown κ) {v w : World} (hw : R v w) :
    ((c.dual rename).course s u steps v).1 = (c.course s u steps w).1.map Status.invert ∧
      R ((c.dual rename).course s u steps v).2 (c.course s u steps w).2 := by
  apply course_related (S := DualOf rename) hR hs _ (resetsAlike_dual hu rename) steps rfl hw
  intro d c v w hd hw
  rw [show d = c.dual rename from hd]
  have htick := tick_mirrored hu rename hdeaf c hw
  exact ⟨htick.status, htick.state, htick.world⟩

/-- The course of a crown is that of its tree. -/
theorem Crown.course_node {κ : Type} {R : World → World → Prop} {s : Service} {u : Units κ}
    {view : κ → Node} (hR : World.Coupling R) (hs : Service.Alike R s s) (hu : u.StandFor view R s)
    (steps : List Step) (c : Crown κ) {v w : World} (hw : R v w) :
    (c.course s u steps v).1 = ((c.node view).course s steps w).1 ∧
      R (c.course s u steps v).2 ((c.node view).course s steps w).2 := by
  have htick : ∀ {c : Crown κ} {n : Node} {v w : World}, IsNode view c n → R v w →
      (c.tick u v).status = id (n.tick s w).status ∧
        IsNode view (c.tick u v).state (n.tick s w).state ∧
        R (c.tick u v).world (n.tick s w).world := by
    intro c n v w hn hw
    rw [← show c.node view = n from hn]
    have htick := tick_node hu hR c hw
    exact ⟨htick.status, htick.state, htick.world⟩
  have hnode : IsNode view c (c.node view) := rfl
  have hrelated := course_related hR hs htick (resetsAlike_node hu) steps hnode hw
  rw [List.map_id] at hrelated
  exact hrelated

/-! ## Trees and their crowns -/

namespace Node

/-- A node under an inverter. -/
def inverted (n : Node) : Node := decorator .inverter (some n)

mutual

/-- The dual of a tree.  Sequences and selectors are exchanged, and so are repetitions and retries
with positive limits; inverters stay; every other node is inverted.  The exchanged sequences and
selectors may get other names. -/
def dual (rename : String → String) : Node → Node
  | composite (.chain kind name cursor) children =>
    composite (.chain kind.dual (rename name) cursor) (dualAll rename children)
  | decorator .inverter (some child) => decorator .inverter (some (dual rename child))
  | decorator (.repetition limit count) (some child) =>
    if 0 < limit then decorator (.retry limit count) (some (dual rename child))
    else inverted (decorator (.repetition limit count) (some child))
  | decorator (.retry limit count) (some child) =>
    if 0 < limit then decorator (.repetition limit count) (some (dual rename child))
    else inverted (decorator (.retry limit count) (some child))
  | n => inverted n

/-- The duals of the children of a composite. -/
def dualAll (rename : String → String) : List Node → List Node
  | [] => []
  | child :: rest => dual rename child :: dualAll rename rest

end

mutual

/-- The crown of a tree, with every node below it at its place. -/
def crownAt : (place : List Nat) → Node → Crown (List Nat × Node)
  | place, composite (.chain kind name cursor) children =>
    .chain kind name cursor (crownsAt place 0 children)
  | place, decorator .inverter (some child) => .inverter (crownAt place child)
  | place, decorator (.repetition limit count) (some child) =>
    if hlimit : 0 < limit then .rounds .sequence limit count hlimit (crownAt place child)
    else .unit (place, decorator (.repetition limit count) (some child))
  | place, decorator (.retry limit count) (some child) =>
    if hlimit : 0 < limit then .rounds .selector limit count hlimit (crownAt place child)
    else .unit (place, decorator (.retry limit count) (some child))
  | place, n => .unit (place, n)

/-- The crowns of the children of a composite, from a position on. -/
def crownsAt (place : List Nat) : (position : Nat) → List Node → List (Crown (List Nat × Node))
  | _, [] => []
  | position, child :: rest =>
    crownAt (position :: place) child :: crownsAt place (position + 1) rest

end

/-- The crown of a tree. -/
def crown (n : Node) : Crown (List Nat × Node) := crownAt [] n

/-- A tree is the tree of its crown, and its dual is the tree of the dual crown. -/
theorem node_crownAt (rename : String → String) (place : List Nat) (n : Node) :
    (crownAt place n).node Prod.snd = n ∧
      ((crownAt place n).dual rename).node Prod.snd = n.dual rename := by
  induction n generalizing place with
  | leaf part =>
    simp only [crownAt, dual]
    exact ⟨rfl, rfl⟩
  | composite part children ih =>
    cases part with
    | chain kind name cursor =>
      have hall : ∀ position, Crown.nodes Prod.snd (crownsAt place position children) = children ∧
          Crown.nodes Prod.snd (Crown.dualAll rename (crownsAt place position children)) =
            dualAll rename children := by
        induction children with
        | nil => exact fun _ => ⟨rfl, rfl⟩
        | cons first rest ihrest =>
          intro position
          have hfirst := ih first List.mem_cons_self (position :: place)
          have hrest := ihrest (fun n hn => ih n (List.mem_cons_of_mem _ hn)) (position + 1)
          simp only [crownsAt, Crown.dualAll, Crown.nodes, dualAll, hfirst, hrest]
          exact ⟨trivial, trivial⟩
      simp only [crownAt, dual, Crown.dual, Crown.node, hall]
      exact ⟨trivial, trivial⟩
    | randomSelector source selected =>
      simp only [crownAt, dual]
      exact ⟨rfl, rfl⟩
    | parallel success failure =>
      simp only [crownAt, dual]
      exact ⟨rfl, rfl⟩
  | decorator part child ih =>
    have hrounds : ∀ (kind : Chain) (limit count : Int32) (hlimit : 0 < limit) (inner : Node),
        child = some inner →
        (Crown.rounds kind limit count hlimit (crownAt place inner)).node Prod.snd =
          decorator (kind.rounds limit count) child ∧
        ((Crown.rounds kind limit count hlimit (crownAt place inner)).dual rename).node Prod.snd =
          decorator (kind.dual.rounds limit count) (some (inner.dual rename)) := by
      intro kind limit count hlimit inner hinner
      have hchild := ih inner hinner place
      simp only [Crown.dual, Crown.node, hchild, hinner]
      exact ⟨trivial, trivial⟩
    cases child with
    | none => cases part <;> (simp only [crownAt, dual]; exact ⟨rfl, rfl⟩)
    | some inner =>
      cases part with
      | inverter =>
        have hchild := ih inner rfl place
        simp only [crownAt, dual, Crown.dual, Crown.node, hchild]
        exact ⟨trivial, trivial⟩
      | repetition limit count =>
        by_cases hlimit : 0 < limit
        · simp only [crownAt, dual, dif_pos hlimit, if_pos hlimit]
          exact hrounds .sequence limit count hlimit inner rfl
        · simp only [crownAt, dual, dif_neg hlimit, if_neg hlimit]
          exact ⟨rfl, rfl⟩
      | retry limit count =>
        by_cases hlimit : 0 < limit
        · simp only [crownAt, dual, dif_pos hlimit, if_pos hlimit]
          exact hrounds .selector limit count hlimit inner rfl
        · simp only [crownAt, dual, dif_neg hlimit, if_neg hlimit]
          exact ⟨rfl, rfl⟩
      | cooldown clock period last =>
        simp only [crownAt, dual]
        exact ⟨rfl, rfl⟩
      | successRate source percentage =>
        simp only [crownAt, dual]
        exact ⟨rfl, rfl⟩
      | sleepUntilSuccess timer =>
        simp only [crownAt, dual]
        exact ⟨rfl, rfl⟩
  | reference part =>
    simp only [crownAt, dual]
    exact ⟨rfl, rfl⟩
  | embedded tag root ih =>
    simp only [crownAt, dual]
    exact ⟨rfl, rfl⟩

end Node

/-! ## Noting what is done to the nodes below -/

/-- Nodes at places, with an event noted before each tick and each reset. -/
def Units.noted (s : Service) (note : List Nat → Operation → Option Event) :
    Units (List Nat × Node) where
  tick k w := (k.2.tick s (w.note (note k.1 .tick))).map fun n => (k.1, n)
  reset k w :=
    let rest := k.2.reset s (w.note (note k.1 .reset))
    ((k.1, rest.1), rest.2)

section

variable {R : World → World → Prop} {s : Service} (hR : World.Coupling R)
  (hs : Service.Alike R s s) (note : List Nat → Operation → Option Event)
include hR hs

/-- Noted nodes are left the same in related worlds. -/
theorem Units.steady_noted : (Units.noted s note).Steady R := by
  have hnote : ∀ (event : Option Event) {v w : World}, R v w → R (v.note event) (w.note event) := by
    intro event v w hw
    cases event with
    | none => exact hw
    | some event => exact hR.emit event hw
  constructor
  · intro k v w hw
    have htick := k.2.tick_coupled hR hs (hnote (note k.1 .tick) hw)
    exact htick.map fun h => congrArg (Prod.mk k.1) h
  · intro k v w hw
    have hreset := k.2.reset_coupled hR (fun operation _ => hs.ask operation)
      (hnote (note k.1 .reset) hw)
    exact ⟨congrArg (Prod.mk k.1) hreset.1, hreset.2⟩

/-- Noted nodes stand for the nodes, in worlds whose relation does not see the notes. -/
theorem Units.standFor_noted
    (hnote : ∀ place operation {v w}, R v w → R (v.note (note place operation)) w) :
    (Units.noted s note).StandFor Prod.snd R s := by
  constructor
  · intro k v w hw
    have htick := k.2.tick_coupled hR hs (hnote k.1 .tick hw)
    exact ⟨htick.status, htick.state, htick.world⟩
  · intro k v w hw
    exact k.2.reset_coupled hR (fun operation _ => hs.ask operation) (hnote k.1 .reset hw)

end

/-! ## Duality -/

section

variable (plans : Array TreePlan) (depth : Nat) (note : List Nat → Operation → Option Event)
  (rename : String → String) (steps : List Step) (c : Crown (List Nat × Node)) (w : World)

/-- Without notes the course of a crown of nodes is the course of its tree. -/
theorem Crown.course_unnoted (s : Service) :
    c.course s (Units.noted s fun _ _ => none) steps w = (c.node Prod.snd).course s steps w := by
  have hu : (Units.noted s fun _ _ => none).StandFor Prod.snd (World.Itself fun _ => True) s :=
    Units.standFor_noted World.coupling_itself s.alike_itself _ fun _ _ _ _ hw => hw
  have hw : World.Itself (fun _ => True) w w := ⟨rfl, trivial⟩
  have hcourse := Crown.course_node World.coupling_itself s.alike_itself hu steps c hw
  exact Prod.ext hcourse.1 hcourse.2.1

/-- Noting changes nothing but the history. -/
theorem Crown.course_noted :
    let s := serve (plantFrom plans) depth
    let noted := c.course s (Units.noted s note) steps w
    let plain := (c.node Prod.snd).course s steps w
    noted.1 = plain.1 ∧ noted.2.AgreeOn (fun _ => false) plain.2 := by
  have hblind := World.tending_agreeOn fun _ => false
  have hs := serve_coupled hblind plans depth
  refine Crown.course_node hblind.toCoupling hs
    (Units.standFor_noted hblind.toCoupling hs note ?_) steps c (.refl w)
  intro place operation v u hw
  cases note place operation with
  | none => exact hw
  | some event => exact hw.emit_left rfl

/-- The noted course of the dual of a crown mirrors that of the crown. -/
theorem Crown.course_dual_noted :
    let s := serve (plantFrom plans) depth
    let original := c.course s (Units.noted s note) steps w
    let mirror := (c.dual rename).course s (Units.noted s note) steps w
    mirror.1 = original.1.map Status.invert ∧ mirror.2.AgreeOn Event.isDeed original.2 := by
  have hdeeds := World.tending_agreeOn Event.isDeed
  have hs := serve_coupled hdeeds plans depth
  exact Crown.course_dual hdeeds.toCoupling World.deaf_agreeOn_isDeed hs
    (Units.steady_noted hdeeds.toCoupling hs note) rename steps c (.refl w)

end

/-- The dual of a tree mirrors the tree.  In every course of ticks, resets and acts of the host,
from the same world: each tick of the dual gives the exchanged status, and the two histories are the
same but for log records, so that the same callbacks are called and the same numbers are drawn in
the same order.  This is still so when any events are noted at the ticks and resets of the nodes
that the dual only inverts; so they are ticked and reset in the same order.  Noting changes nothing
else. -/
theorem Node.dual_mirrors (plans : Array TreePlan) (depth : Nat) (rename : String → String)
    (steps : List Step) (n : Node) (w : World) :
    let s := serve (plantFrom plans) depth
    let original := n.course s steps w
    let mirror := (n.dual rename).course s steps w
    mirror.1 = original.1.map Status.invert ∧ mirror.2.AgreeOn Event.isDeed original.2 ∧
    ∀ note,
      let notedOriginal := n.crown.course s (Units.noted s note) steps w
      let notedMirror := (n.crown.dual rename).course s (Units.noted s note) steps w
      notedMirror.2.AgreeOn Event.isDeed notedOriginal.2 ∧
      (notedOriginal.1 = original.1 ∧
        notedOriginal.2.AgreeOn (fun _ => false) original.2) ∧
      notedMirror.1 = mirror.1 ∧ notedMirror.2.AgreeOn (fun _ => false) mirror.2 := by
  intro s original mirror
  have hnode : n.crown.node Prod.snd = n := (n.node_crownAt rename []).1
  have hdual : (n.crown.dual rename).node Prod.snd = n.dual rename := (n.node_crownAt rename []).2
  have hmirrored := fun note => n.crown.course_dual_noted plans depth note rename steps w
  have hplain := hmirrored fun _ _ => none
  simp only [Crown.course_unnoted, hnode, hdual] at hplain
  refine ⟨hplain.1, hplain.2, ?_⟩
  intro note notedOriginal notedMirror
  have horiginal := n.crown.course_noted plans depth note steps w
  have hmirror := (n.crown.dual rename).course_noted plans depth note steps w
  rw [hnode] at horiginal
  rw [hdual] at hmirror
  exact ⟨(hmirrored note).2, horiginal, hmirror⟩

-- The dual of a sequence that fails at its second child: both children are ticked and then reset.
example :
    let note := fun place operation => some (Event.observed (place.headD 0) "" operation)
    let tree := Node.composite (.ofKind .sequence)
      [.leaf (.fixed "yes" .success), .leaf (.fixed "no" .failure)]
    let s := serve (plantFrom #[]) 0
    let w := World.start (.empty .start) (.empty (.seeded 0))
    let mirror := (tree.crown.dual id).course s (Units.noted s note) [.tick] w
    mirror.1 = [.success] ∧
      mirror.2.events.filterMap (fun event =>
        match event with
        | .observed place _ operation => some (place, operation)
        | _ => none) =
        [(0, .tick), (1, .tick), (0, .reset), (1, .reset)] := by
  intro note tree s w mirror
  exact ⟨rfl, rfl⟩

end TickTree
