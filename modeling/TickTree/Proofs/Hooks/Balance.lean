import TickTree.Proofs.Hooks.Path
import TickTree.Proofs.Reference.Stint

/-!
# Requests to forwarding trees

What each request to a forwarding tree does to the path below the tree, and to the custom node at
the end.  References are treated first, for any service whose requests do what they should; then
the requests of a forest are shown to do so, by induction on the nesting depth.

Main results:

- Definition `ForwardingForest.Balances`: what each request does to the path below its tree.
- Theorem `ForwardingForest.Balances.tick_reference` and others: what references make of that.
- Theorem `ForwardingForest.Poised.entry`: how a request comes to the end of a root.
- Theorem `ForwardingForest.serve_balances`: the requests of a forest do so at every depth.
-/

namespace TickTree

/-! ## Refusals -/

/-- A request has been refused. -/
def World.HasRefusal (w : World) : Prop := Event.refusal ∈ w.history

/-- A refused request is on record. -/
theorem World.hasRefusal_refuse (w : World) : w.refuse.HasRefusal := List.mem_cons_self

/-- Without a warning on record nothing was refused. -/
theorem World.not_hasRefusal {w : World} (h : w.history.any Event.isWarning = false) :
    ¬ w.HasRefusal := by
  intro hrefusal
  have hany : w.history.any Event.isWarning = true :=
    List.any_eq_true.2 ⟨Event.refusal, hrefusal, rfl⟩
  rw [hany] at h
  cases h

/-- What is on record stays on record. -/
theorem World.growth_hasRefusal : World.Growth World.HasRefusal := by
  have hfail : ∀ {w : World} (fault : Fault), w.HasRefusal → (w.fail fault).HasRefusal := by
    intro w fault hw
    unfold fail
    split
    · exact hw
    · exact List.mem_cons_of_mem _ hw
  exact
    { emit := fun event hw => List.mem_cons_of_mem _ hw
      fail := hfail
      advance := by
        intro w clock step hw
        unfold advance
        split
        · exact hw
        · exact hfail _ hw
      setClock := fun _ _ hw => hw
      draw := fun _ _ _ hw => List.mem_cons_of_mem _ hw
      countCall := fun _ hw => hw
      issue := fun _ hw => hw
      letLoose := fun _ hw => hw
      addTree := fun _ hw => hw }

namespace ForwardingForest

/-! ## What requests do -/

/-- The requests of a service do to the path below a tree what they should, unless one is refused: a
start reaches the end of the path, a tick may change the path, a finish closes the custom node, and
a reset lets the whole path go. -/
structure Balances (f : ForwardingForest) (s : Service) : Prop where
  recorded : ∀ operation tree w, w.HasRefusal → (s.ask operation tree w).2.HasRefusal
  busy : ∀ operation tree w root, w.trees.get tree = some ⟨root, true⟩ →
    (s.ask operation tree w).2.HasRefusal
  start : ∀ tree w, f.Poised w none [] → ¬ w.IsOpen f.seat →
    ¬ (s.ask .start tree w).2.HasRefusal →
      ∃ path, f.Poised (s.ask .start tree w).2 (some tree) path ∧
        ((s.ask .start tree w).2.IsOpen f.seat ↔ f.custom ∈ path)
  tick : ∀ tree w path, f.Poised w (some tree) path → f.Phase w path →
    ¬ (s.ask .tick tree w).2.HasRefusal →
      ∃ after, f.Poised (s.ask .tick tree w).2 (some tree) after ∧
        f.Phase (s.ask .tick tree w).2 after
  finish : ∀ tree w path, f.Poised w (some tree) path → f.Phase w path →
    ¬ (s.ask .finish tree w).2.HasRefusal →
      ∃ after, f.Poised (s.ask .finish tree w).2 (some tree) after ∧
        ¬ (s.ask .finish tree w).2.IsOpen f.seat ∧
        (f.Spared → f.custom ∈ after → tree = f.custom)
  reset : ∀ tree w path, f.Poised w (some tree) path → ¬ w.IsOpen f.seat →
    (f.Spared → f.custom ∈ path → tree = f.custom) →
    ¬ (s.ask .reset tree w).2.HasRefusal →
      f.Poised (s.ask .reset tree w).2 none [] ∧ ¬ (s.ask .reset tree w).2.IsOpen f.seat

variable {f : ForwardingForest} {s : Service} {v w : World} {path : List TreeId}

/-- Whether the custom node is open is a matter of the hooks alone. -/
theorem isOpen_congr (hw : w.hooks f.seat = v.hooks f.seat) :
    w.IsOpen f.seat ↔ v.IsOpen f.seat := by
  unfold World.IsOpen
  rw [hw]

/-- The phase of a path is a matter of the hooks alone. -/
theorem Phase.congr (h : f.Phase v path) (hw : w.hooks f.seat = v.hooks f.seat) :
    f.Phase w path where
  mem hopen := h.mem ((isOpen_congr hw).1 hopen)
  isOpen hspared hmem := (isOpen_congr hw).2 (h.isOpen hspared hmem)

/-- The custom node is closed when nothing is held. -/
theorem Phase.closed (h : f.Phase w []) : ¬ w.IsOpen f.seat :=
  fun hopen => List.not_mem_nil (h.mem hopen)

/-- A closed custom node whose tree is not on the path. -/
theorem phase_of_closed (hclosed : ¬ w.IsOpen f.seat) (hnot : f.Spared → f.custom ∉ path) :
    f.Phase w path :=
  ⟨fun hopen => absurd hopen hclosed, fun hspared hmem => absurd hmem (hnot hspared)⟩

/-! ## References at work -/

section

variable {r : Reference}

/-- A dynamic sub-tree closes the custom node when it lets its target go. -/
theorem Balances.release (hs : f.Balances s) (hkind : r.kind = .dynamic)
    (h : f.Poised w r.held path) (hphase : f.Phase w path) (last : Status)
    (hcalm : ¬ (s.send r.release last w).2.HasRefusal) :
    f.Poised (s.send r.release last w).2 none [] ∧
      ¬ (s.send r.release last w).2.IsOpen f.seat := by
  rw [Reference.release_of_dynamic hkind] at hcalm ⊢
  cases hheld : r.held with
  | none =>
    rw [hheld] at h
    cases h.path_eq_nil
    exact ⟨h, hphase.closed⟩
  | some tree =>
    rw [hheld] at h hcalm
    let u := (s.ask .finish tree w).2
    have hreset : ¬ (s.ask .reset tree u).2.HasRefusal := hcalm
    have hfinish : ¬ u.HasRefusal := fun hrefusal => hreset (hs.recorded _ _ _ hrefusal)
    rcases hs.finish tree w path h hphase hfinish with ⟨after, hafter, hclosed, hmem⟩
    exact hs.reset tree u after hafter hclosed hmem hreset

/-- A dynamic sub-tree does to the path what the tree that it finds calls for. -/
theorem Balances.send_dynamic (hs : f.Balances s) (hkind : r.kind = .dynamic)
    (h : f.Poised w r.held path) (hphase : f.Phase w path) (found : Option TreeId)
    (hcalm : ¬ (s.send (r.tickRequests found) .failure w).2.HasRefusal) :
    ∃ after, f.Poised (s.send (r.tickRequests found) .failure w).2 found after ∧
      f.Phase (s.send (r.tickRequests found) .failure w).2 after := by
  cases found with
  | none =>
    rcases hs.release hkind h hphase .failure hcalm with ⟨hnothing, hclosed⟩
    exact ⟨[], hnothing, phase_of_closed hclosed fun _ => List.not_mem_nil⟩
  | some tree =>
    by_cases hheld : r.held = some tree
    · have hrequests : r.tickRequests (some tree) = [(.tick, tree)] := by
        simp [Reference.tickRequests, hkind, Reference.switches, hheld]
      rw [hrequests] at hcalm ⊢
      rw [hheld] at h
      exact hs.tick tree w path h hphase hcalm
    · -- The old target is let go, and the new one is started before it is ticked.
      have hrequests : r.tickRequests (some tree) =
          r.release ++ [(.start, tree), (.tick, tree)] := by
        simp [Reference.tickRequests, hkind, Reference.switches, hheld]
      rw [hrequests, Service.send_append] at hcalm ⊢
      let released := (s.send r.release .failure w).2
      let started := (s.ask .start tree released).2
      have htick : ¬ (s.ask .tick tree started).2.HasRefusal := hcalm
      have hstart : ¬ started.HasRefusal := fun hrefusal => htick (hs.recorded _ _ _ hrefusal)
      have hrelease : ¬ released.HasRefusal := fun hrefusal => hstart (hs.recorded _ _ _ hrefusal)
      rcases hs.release hkind h hphase .failure hrelease with ⟨hnothing, hclosed⟩
      rcases hs.start tree released hnothing hclosed hstart with ⟨taken, htaken, hopen⟩
      exact hs.tick tree started taken htaken ⟨hopen.1, fun _ => hopen.2⟩ htick

/-- A target that was just taken is ticked like one that is held. -/
theorem Balances.tick_taken (hs : f.Balances s) {tree : TreeId} (h : f.Poised w none path)
    (hclosed : ¬ w.IsOpen f.seat) (hspares : f.Spared → tree ≠ f.custom)
    (hcalm : ¬ (s.ask .tick tree w).2.HasRefusal) :
    ∃ after, f.Poised (s.ask .tick tree w).2 (some tree) after ∧
      f.Phase (s.ask .tick tree w).2 after := by
  rcases h.take tree with ⟨root, hroot⟩ | ⟨-, hlost⟩ | htaken
  · exact absurd (hs.busy _ _ _ _ hroot) hcalm
  · exact hs.tick tree w [] hlost (phase_of_closed hclosed fun _ => List.not_mem_nil) hcalm
  · refine hs.tick tree w [tree] htaken (phase_of_closed hclosed fun hspared hmem => ?_) hcalm
    exact hspares hspared (List.mem_singleton.1 hmem).symm

/-- A sub-tree ticks the tree that it holds, or the one that it finds. -/
theorem Balances.send_sticky (hs : f.Balances s) (hkind : r.kind = .sticky)
    (h : f.Poised w r.held path) (hphase : f.Phase w path) {found : Option TreeId}
    (hfound : r.held = none ∨ found = r.held)
    (hspares : f.Spared → found ≠ some f.custom)
    (hcalm : ¬ (s.send (r.tickRequests found) .failure w).2.HasRefusal) :
    ∃ after, f.Poised (s.send (r.tickRequests found) .failure w).2 found after ∧
      f.Phase (s.send (r.tickRequests found) .failure w).2 after := by
  cases found with
  | none =>
    have hheld : r.held = none := hfound.elim id Eq.symm
    have hrequests : r.tickRequests none = [] := by
      simp [Reference.tickRequests, Reference.release, hheld]
    rw [hrequests]
    rw [hheld] at h
    exact ⟨path, h, hphase⟩
  | some tree =>
    have hrequests : r.tickRequests (some tree) = [(.tick, tree)] := by
      simp [Reference.tickRequests, hkind]
    rw [hrequests] at hcalm ⊢
    rcases hfound with hheld | hheld
    · rw [hheld] at h
      cases h.path_eq_nil
      exact hs.tick_taken h hphase.closed (fun hspared heq => hspares hspared (congrArg some heq))
        hcalm
    · rw [← hheld] at h
      exact hs.tick tree w path h hphase hcalm

/-- A sub-tree neither holds nor finds the tree of the custom node, where this is spared. -/
structure SparesReference (f : ForwardingForest) (r : Reference) : Prop where
  held : f.Spared → r.kind = .sticky → r.held ≠ some f.custom
  supplies : f.Spared → r.kind = .sticky → ∀ supply, r.supplier.Gives (some supply) →
    supply.tree? f.origin.directory ≠ some f.custom

/-- A tick of a reference leads from one path to another. -/
theorem Balances.tick_reference (hs : f.Balances s) (hchooses : r.supplier.Chooses)
    (hspares : f.SparesReference r) (h : f.Poised w r.held path) (hphase : f.Phase w path)
    (hcalm : ¬ (r.tick s w).world.HasRefusal) :
    ∃ after, f.Poised (r.tick s w).world (r.tick s w).state.held after ∧
      f.Phase (r.tick s w).world after ∧
      (f.Spared → r.kind = .sticky → (r.tick s w).state.held ≠ some f.custom) := by
  rcases Reference.aside_resolve f.seat s w hchooses with ⟨hresolve, hfound⟩
  have haside := hresolve.trans (Reference.aside_announce (r.resolve s w).2 r (r.resolve s w).1)
  cases hkind : r.kind with
  | dynamic =>
    rcases hs.send_dynamic hkind (h.aside haside) (hphase.congr haside.hooks) _ hcalm with
      ⟨after, hafter, hphase⟩
    exact ⟨after, hafter, hphase, fun _ hsticky => Reference.Kind.noConfusion hsticky⟩
  | sticky =>
    have hholds : r.held = none ∨ (r.resolve s w).1 = r.held := by
      unfold Reference.resolve Reference.resolves
      rw [hkind]
      cases r.held with
      | none => exact .inl rfl
      | some tree => exact .inr rfl
    have hother : f.Spared → (r.resolve s w).1 ≠ some f.custom := by
      intro hspared hcustom
      rcases hfound f.custom hcustom with ⟨-, hheld⟩ | ⟨-, supply, hgives, hmeans⟩
      · exact hspares.held hspared hkind hheld
      · rw [h.directory] at hmeans
        exact hspares.supplies hspared hkind supply hgives hmeans
    rcases hs.send_sticky hkind (h.aside haside) (hphase.congr haside.hooks) hholds hother
      hcalm with ⟨after, hafter, hphase⟩
    exact ⟨after, hafter, hphase, fun hspared _ => hother hspared⟩

/-- A finish that reaches a reference closes the custom node; where this is spared, its tree is not
on the path any more. -/
theorem Balances.finish_reference (hs : f.Balances s) (hspares : f.SparesReference r)
    (h : f.Poised w r.held path) (hphase : f.Phase w path)
    (hcalm : ¬ (r.perform s .finish w).2.HasRefusal) :
    ∃ after, f.Poised (r.perform s .finish w).2 (r.perform s .finish w).1.held after ∧
      ¬ (r.perform s .finish w).2.IsOpen f.seat ∧ (f.Spared → f.custom ∉ after) ∧
      (f.Spared → r.kind = .sticky → (r.perform s .finish w).1.held ≠ some f.custom) := by
  unfold Reference.perform at hcalm ⊢
  cases hkind : r.kind with
  | dynamic =>
    simp only [Reference.requests, Reference.after, hkind] at hcalm ⊢
    rcases hs.release hkind h hphase .failure hcalm with ⟨hnothing, hclosed⟩
    exact ⟨[], hnothing, hclosed, fun _ => List.not_mem_nil,
      fun _ hsticky => Reference.Kind.noConfusion hsticky⟩
  | sticky =>
    simp only [Reference.requests, Reference.after, hkind] at hcalm ⊢
    have hother := fun hspared => hspares.held hspared hkind
    cases hheld : r.held with
    | none =>
      rw [hheld] at h
      cases h.path_eq_nil
      exact ⟨[], h, hphase.closed, fun _ => List.not_mem_nil,
        fun _ _ => (Option.some_ne_none _).symm⟩
    | some tree =>
      rw [hheld] at h hcalm hother
      rcases hs.finish tree w path h hphase hcalm with ⟨after, hafter, hclosed, hmem⟩
      refine ⟨after, hafter, hclosed, fun hspared hcustom => ?_, fun hspared _ => hother hspared⟩
      exact hother hspared (congrArg some (hmem hspared hcustom))

/-- A reset of a reference lets the path go. -/
theorem Balances.reset_reference (hs : f.Balances s) (h : f.Poised w r.held path)
    (hclosed : ¬ w.IsOpen f.seat) (hnot : f.Spared → f.custom ∉ path)
    (hcalm : ¬ (r.perform s .reset w).2.HasRefusal) :
    f.Poised (r.perform s .reset w).2 none [] ∧ ¬ (r.perform s .reset w).2.IsOpen f.seat := by
  unfold Reference.perform at hcalm ⊢
  cases hkind : r.kind with
  | dynamic => exact hs.release hkind h (phase_of_closed hclosed hnot) .failure hcalm
  | sticky =>
    simp only [Reference.requests, Reference.release, hkind] at hcalm ⊢
    cases hheld : r.held with
    | none =>
      rw [hheld] at h
      cases h.path_eq_nil
      exact ⟨h, hclosed⟩
    | some tree =>
      rw [hheld] at h hcalm
      exact hs.reset tree w path h hclosed (fun hspared hmem => absurd hmem (hnot hspared)) hcalm

end

/-! ## Roots at work -/

section

variable {tree : TreeId} {root : Node}

/-- A request to a free tree is carried out on the bottom of its root, and puts the root back. -/
theorem ask_bottom (plans : Array TreePlan) (depth : Nat) (operation : Operation)
    (hroot : w.trees.get tree = some ⟨root, false⟩) :
    let performed := root.bottom.perform (serve (plantFrom plans) depth) operation
      (w.holdTree tree root)
    ∃ left, ((serve (plantFrom plans) (depth + 1)).ask operation tree w).2 =
        performed.2.2.putTree tree left ∧
      left.bottom = performed.2.1.bottom ∧ left.cleared = root.cleared ∧
      performed.2.2.trees.get tree = some ⟨root, true⟩ := by
  intro performed
  let s := serve (plantFrom plans) depth
  rcases root.bottom_perform s operation (w.holdTree tree root) with ⟨hbottom, hworld⟩
  refine ⟨_, ?_, hbottom, root.cleared_perform s operation _, ?_⟩
  · rw [serve_ask, World.withTree_of_free hroot]
    exact congrArg (World.putTree tree _) hworld
  · have hlocks := root.bottom.locks_perform plans depth operation (w.holdTree tree root)
    rw [← World.locks_eq_some]
    refine (congrFun hlocks tree).trans ?_
    rw [World.locks_holdTree, Function.update_self]

/-- A request to a tree in use is refused. -/
theorem serve_busy (plans : Array TreePlan) (depth : Nat) (operation : Operation)
    (hroot : w.trees.get tree = some ⟨root, true⟩) :
    ((serve (plantFrom plans) depth).ask operation tree w).2.HasRefusal := by
  rcases serve_ask_cases (plantFrom plans) depth operation tree w with
    ⟨further, other, rfl, hfree, -⟩ | hasked | ⟨hnone, -⟩
  · rw [hroot] at hfree
    cases hfree
  · rw [hasked]
    exact w.hasRefusal_refuse
  · rw [hroot] at hnone
    cases hnone

/-- A request to a tree that there is not changes nothing. -/
theorem ask_lost {plans : Array TreePlan} {depth : Nat} (operation : Operation)
    (hnone : w.trees.get tree = none) :
    ((serve (plantFrom plans) (depth + 1)).ask operation tree w).2 = w := by
  rw [serve_ask, World.withTree_of_none hnone]

/-- How a request to the first tree of a path goes: there is no such tree, or its root ends in a
custom node, or in a reference to which the rest of the path is left. -/
inductive Entry (f : ForwardingForest) (s : Service) (operation : Operation) (tree : TreeId)
    (w : World) : (asked : World) → List TreeId → Prop
  | lost : Entry f s operation tree w w []
  | probe {name : String} {script : Callback Status} {root left : Node} {v : World}
    (hquiet : script.IsQuiet) (hseat : script.seat = f.seat ↔ tree = f.custom)
    (hheld : f.Poised (w.holdTree tree root) none [])
    (hv : (Node.perform s operation (.leaf (.probe name script true))
      (w.holdTree tree root)).2.2 = v)
    (hput : f.Poised v none [] → f.Poised (v.putTree tree left) (some tree) [tree])
    (hleft : left.held? = none) :
    Entry f s operation tree w (v.putTree tree left) [tree]
  | reference {r : Reference} {root left : Node} {rest : List TreeId} {v : World}
    (hroot : w.trees.get tree = some ⟨root, false⟩) (hholds : root.held? = r.held)
    (hchooses : r.supplier.Chooses) (hspares : f.SparesReference r) (hne : tree ≠ f.custom)
    (hheld : f.Poised (w.holdTree tree root) r.held rest)
    (hv : (Node.perform s operation (.reference r) (w.holdTree tree root)).2.2 = v)
    (hput : ∀ after, f.Poised v left.held? after →
      (f.Spared → r.kind = .sticky → left.held? ≠ some f.custom) →
        f.Poised (v.putTree tree left) (some tree) (tree :: after))
    (hleft : left.held? = (r.next s operation (w.holdTree tree root)).held) :
    Entry f s operation tree w (v.putTree tree left) (tree :: rest)

/-- Every request to the first tree of a path goes in one of these ways. -/
theorem Poised.entry (plans : Array TreePlan) (depth : Nat) (operation : Operation)
    (h : f.Poised w (some tree) path) :
    f.Entry (serve (plantFrom plans) depth) operation tree w
      ((serve (plantFrom plans) (depth + 1)).ask operation tree w).2 path := by
  cases h.linked with
  | lost hnone =>
    rw [ask_lost operation hnone]
    exact .lost
  | @cons _ root rest hroot _ =>
    have hheld := h.holdTree hroot
    rcases ask_bottom plans depth operation hroot with
      ⟨left, hasked, hleft, hcleared, hinUse⟩
    rw [hasked]
    rcases h.bottom_cases hroot with
      ⟨name, script, hquiet, hprobe, hseat⟩ | ⟨r, hchooses, hreference, hne, hsupplies⟩
    · rw [Node.held?_of_leaf hprobe] at hheld
      cases hheld.path_eq_nil
      rw [hprobe] at hleft hinUse ⊢
      have hbottom : left.bottom = .leaf (.probe name script true) := by
        rw [hleft]
        cases operation <;> rfl
      have hheldNone := Node.held?_of_leaf hbottom
      refine .probe hquiet hseat hheld rfl (fun hperformed => ?_) hheldNone
      rw [← hheldNone] at hperformed
      refine hperformed.putTree hinUse hcleared fun _ r hr => ?_
      rw [hbottom] at hr
      cases hr
    · have hholds := Node.held?_of_reference hreference
      rw [hholds] at hheld
      rw [hreference] at hleft hinUse ⊢
      have hspares : f.SparesReference r :=
        ⟨fun hspared => h.spares tree root hroot hspared r hreference, hsupplies⟩
      have hbottom : left.bottom =
          .reference (r.next (serve (plantFrom plans) depth) operation (w.holdTree tree root)) := by
        rw [hleft, Reference.perform_reference]
        rfl
      have hheldNext := Node.held?_of_reference hbottom
      refine .reference hroot hholds hchooses hspares hne hheld rfl
        (fun after hperformed hother => ?_) hheldNext
      refine hperformed.putTree hinUse hcleared fun hspared other hr hsticky => ?_
      rw [hbottom] at hr
      cases hr
      rw [← hheldNext]
      exact hother hspared ((r.kind_next _ operation _).1.symm.trans hsticky)

/-- A tick of a custom node changes neither trees nor hooks. -/
theorem aside_tick_probe (s : Service) (name : String) {script : Callback Status}
    (hquiet : script.IsQuiet) (w : World) :
    World.Aside f.seat w (Node.perform s .tick (.leaf (.probe name script true)) w).2.2 := by
  have hobserved : World.Aside f.seat w (w.emit (.observed script.seat name .tick)) :=
    World.aside_emit (by simp [Event.hooksAt_observed, Operation.isHook]) w
  have hconsulted := Callback.aside_consult f.seat s (w.emit (.observed script.seat name .tick))
    hquiet
  exact (hobserved.trans hconsulted).trans (World.aside_emit rfl _)

/-- A custom node at another seat, and any custom node that is reset, changes neither trees nor
hooks. -/
theorem aside_observed {probe : Nat} (operation : Operation)
    (h : probe ≠ f.seat ∨ operation.isHook = false) (name : String) (w : World) :
    World.Aside f.seat w (w.emit (.observed probe name operation)) := by
  apply World.aside_emit
  rw [Event.hooksAt_observed, if_neg]
  rintro ⟨hseat, hhook⟩
  rcases h with hne | hnot
  · exact hne hseat
  · rw [hhook] at hnot
    cases hnot

/-! ## Requests -/

/-- Off the custom node's tree, whether the custom node is open is a matter of the rest of the
path. -/
theorem phase_cons_iff {rest : List TreeId} (hne : tree ≠ f.custom) :
    f.Phase w (tree :: rest) ↔ f.Phase w rest := by
  have hmem : f.custom ∈ tree :: rest ↔ f.custom ∈ rest := by
    simp [Ne.symm hne]
  constructor
  · intro h
    exact ⟨fun hopen => hmem.1 (h.mem hopen), fun hspared hrest => h.isOpen hspared (hmem.2 hrest)⟩
  · intro h
    exact ⟨fun hopen => hmem.2 (h.mem hopen), fun hspared hpath => h.isOpen hspared (hmem.1 hpath)⟩

variable {asked : World}

/-- A start that comes to a new target reaches the end of the path. -/
theorem Entry.start (hentry : f.Entry s .start tree w asked [tree]) (h : f.Poised w none [])
    (hclosed : ¬ w.IsOpen f.seat) :
    ∃ path, f.Poised asked (some tree) path ∧ (asked.IsOpen f.seat ↔ f.custom ∈ path) := by
  refine ⟨[tree], ?_⟩
  cases hentry with
  | @probe name script root left v hquiet hseat hheld hv hput hleft =>
    subst hv
    by_cases hcustom : tree = f.custom
    · have hhook : (Event.observed script.seat name .start).hooksAt f.seat = [.start] := by
        rw [Event.hooksAt_observed, if_pos ⟨hseat.2 hcustom, rfl⟩]
      have hclosed : ¬ (w.holdTree tree root).IsOpen f.seat := hclosed
      rcases hheld.fair.start hclosed hhook with ⟨hfair, hopen⟩
      exact ⟨hput (hheld.emit hfair), iff_of_true hopen (by simp [hcustom])⟩
    · have haside := aside_observed .start (.inl (mt hseat.1 hcustom)) name
        (w.holdTree tree root)
      refine ⟨hput (hheld.aside haside), iff_of_false ?_ (by simp [Ne.symm hcustom])⟩
      exact fun hopen => hclosed ((isOpen_congr haside.hooks).1 hopen)
  | @reference r root left rest v hroot hholds hchooses hspares hne hheld hv hput hleft =>
    -- The reference holds nothing, so the start goes no further.
    have hheldNone : r.held = none :=
      hholds.symm.trans (h.idle tree root hroot List.not_mem_nil)
    have hrequests : r.requests .start = [] := by simp [Reference.requests, hheldNone]
    have hworld : v = w.holdTree tree root := by
      rw [← hv]
      show (s.send (r.requests .start) .failure (w.holdTree tree root)).2 = w.holdTree tree root
      rw [hrequests]
      rfl
    subst hworld
    have hleft : left.held? = r.held := hleft
    rw [← hleft] at hheld
    refine ⟨hput [] hheld fun _ _ => by simp [hleft, hheldNone], ?_⟩
    exact iff_of_false hclosed (by simp [Ne.symm hne])

/-- A tick that comes to a path leads to another path. -/
theorem Balances.tick_entry (hs : f.Balances s) (hentry : f.Entry s .tick tree w asked path)
    (h : f.Poised w (some tree) path) (hphase : f.Phase w path) (hcalm : ¬ asked.HasRefusal) :
    ∃ after, f.Poised asked (some tree) after ∧ f.Phase asked after := by
  cases hentry with
  | lost => exact ⟨[], h, hphase⟩
  | @probe name script root left v hquiet hseat hheld hv hput hleft =>
    have haside := aside_tick_probe (f := f) s name hquiet (w.holdTree tree root)
    rw [hv] at haside
    have hphase : f.Phase (w.holdTree tree root) [tree] := hphase.congr rfl
    have hafter : f.Phase v [tree] := hphase.congr haside.hooks
    exact ⟨[tree], hput (hheld.aside haside), hafter.congr rfl⟩
  | @reference r root left rest v hroot hholds hchooses hspares hne hheld hv hput hleft =>
    have hrest : f.Phase (w.holdTree tree root) rest := ((phase_cons_iff hne).1 hphase).congr rfl
    have hwork := hs.tick_reference hchooses hspares hheld hrest
    have hworld : (r.tick s (w.holdTree tree root)).world = v := hv
    have hstate : left.held? = (r.tick s (w.holdTree tree root)).state.held := hleft
    rw [hworld, ← hstate] at hwork
    rcases hwork hcalm with ⟨after, hafter, hphase, hother⟩
    exact ⟨tree :: after, hput after hafter hother, ((phase_cons_iff hne).2 hphase).congr rfl⟩

/-- A finish that comes to a path closes the custom node. -/
theorem Balances.finish_entry (hs : f.Balances s) (hentry : f.Entry s .finish tree w asked path)
    (h : f.Poised w (some tree) path) (hphase : f.Phase w path) (hcalm : ¬ asked.HasRefusal) :
    ∃ after, f.Poised asked (some tree) after ∧ ¬ asked.IsOpen f.seat ∧
      (f.Spared → f.custom ∈ after → tree = f.custom) := by
  cases hentry with
  | lost => exact ⟨[], h, hphase.closed, fun _ hmem => absurd hmem List.not_mem_nil⟩
  | @probe name script root left v hquiet hseat hheld hv hput hleft =>
    have hmem : f.custom ∈ [tree] → tree = f.custom := fun h => (List.mem_singleton.1 h).symm
    subst hv
    by_cases hcustom : tree = f.custom
    · have hhook : (Event.observed script.seat name .finish).hooksAt f.seat = [.finish] := by
        rw [Event.hooksAt_observed, if_pos ⟨hseat.2 hcustom, rfl⟩]
      have hopen : f.Spared → (w.holdTree tree root).IsOpen f.seat := fun hspared =>
        hphase.isOpen hspared (by simp [hcustom])
      rcases hheld.fair.finish hopen hhook with ⟨hfair, hclosed⟩
      exact ⟨[tree], hput (hheld.emit hfair), hclosed, fun _ => hmem⟩
    · have haside := aside_observed .finish (.inl (mt hseat.1 hcustom)) name
        (w.holdTree tree root)
      refine ⟨[tree], hput (hheld.aside haside), fun hopen => hcustom ?_, fun _ => hmem⟩
      exact hmem (hphase.mem ((isOpen_congr haside.hooks).1 hopen))
  | @reference r root left rest v hroot hholds hchooses hspares hne hheld hv hput hleft =>
    have hrest : f.Phase (w.holdTree tree root) rest := ((phase_cons_iff hne).1 hphase).congr rfl
    have hwork := hs.finish_reference hspares hheld hrest
    have hworld : (r.perform s .finish (w.holdTree tree root)).2 = v := hv
    have hstate : left.held? = (r.perform s .finish (w.holdTree tree root)).1.held := hleft
    rw [hworld, ← hstate] at hwork
    rcases hwork hcalm with ⟨after, hafter, hclosed, hnot, hother⟩
    refine ⟨tree :: after, hput after hafter hother, hclosed, fun hspared hmem => ?_⟩
    exact absurd ((List.mem_cons.1 hmem).resolve_left (Ne.symm hne)) (hnot hspared)

/-- A reset that comes to a path lets the whole path go. -/
theorem Balances.reset_entry (hs : f.Balances s) (hentry : f.Entry s .reset tree w asked path)
    (h : f.Poised w (some tree) path) (hclosed : ¬ w.IsOpen f.seat)
    (hmem : f.Spared → f.custom ∈ path → tree = f.custom) (hcalm : ¬ asked.HasRefusal) :
    f.Poised asked none [] ∧ ¬ asked.IsOpen f.seat := by
  cases hentry with
  | lost => exact ⟨{ h with linked := .nil }, hclosed⟩
  | @probe name script root left v hquiet hseat hheld hv hput hleft =>
    subst hv
    have haside : World.Aside f.seat (w.holdTree tree root)
        ((w.holdTree tree root).emit (.observed script.seat name .reset)) :=
      aside_observed .reset (.inr rfl) name _
    have hafter := hput (hheld.aside haside)
    exact ⟨hafter.letGo (World.get_putTree_self _ _ _) hleft,
      fun hopen => hclosed ((isOpen_congr haside.hooks).1 hopen)⟩
  | @reference r root left rest v hroot hholds hchooses hspares hne hheld hv hput hleft =>
    have hnot : f.Spared → f.custom ∉ rest := fun hspared hcustom =>
      hne (hmem hspared (List.mem_cons_of_mem _ hcustom))
    have hwork := hs.reset_reference hheld hclosed hnot
    have hworld : (r.perform s .reset (w.holdTree tree root)).2 = v := hv
    rw [hworld] at hwork
    rcases hwork hcalm with ⟨hnothing, hclosed⟩
    have hleft : left.held? = none := hleft
    rw [← hleft] at hnothing
    have hafter := hput [] hnothing fun _ _ => by simp [hleft]
    exact ⟨hafter.letGo (World.get_putTree_self _ _ _) hleft, hclosed⟩

/-- A start of a tree by someone who holds nothing. -/
theorem Poised.ask_start (plans : Array TreePlan) (depth : Nat) (tree : TreeId)
    (h : f.Poised w none []) (hclosed : ¬ w.IsOpen f.seat)
    (hcalm : ¬ ((serve (plantFrom plans) (depth + 1)).ask .start tree w).2.HasRefusal) :
    ∃ path, f.Poised ((serve (plantFrom plans) (depth + 1)).ask .start tree w).2 (some tree) path ∧
      (((serve (plantFrom plans) (depth + 1)).ask .start tree w).2.IsOpen f.seat ↔
        f.custom ∈ path) := by
  rcases h.take tree with ⟨root, hroot⟩ | ⟨hnone, hlost⟩ | htaken
  · exact absurd (serve_busy plans (depth + 1) .start hroot) hcalm
  · rw [ask_lost .start hnone]
    exact ⟨[], hlost, iff_of_false hclosed List.not_mem_nil⟩
  · exact (htaken.entry plans depth .start).start h hclosed

end

/-- The requests of a forest do to the path what they should, at every depth. -/
theorem serve_balances (f : ForwardingForest) (plans : Array TreePlan) (depth : Nat) :
    f.Balances (serve (plantFrom plans) depth) := by
  have hkeeps := serve_keeps World.growth_hasRefusal (fun _ _ hw => hw) (fun _ _ hw => hw) plans
  induction depth with
  | zero =>
    constructor
    · exact fun operation tree w => (hkeeps 0).1 operation tree
    · exact fun operation tree w root => serve_busy plans 0 operation
    · exact fun tree w _ _ hcalm => absurd w.hasRefusal_refuse hcalm
    · exact fun tree w _ _ _ hcalm => absurd w.hasRefusal_refuse hcalm
    · exact fun tree w _ _ _ hcalm => absurd w.hasRefusal_refuse hcalm
    · exact fun tree w _ _ _ _ hcalm => absurd w.hasRefusal_refuse hcalm
  | succ depth ih =>
    constructor
    · exact fun operation tree w => (hkeeps (depth + 1)).1 operation tree
    · exact fun operation tree w root => serve_busy plans (depth + 1) operation
    · exact fun tree w => Poised.ask_start plans depth tree
    · exact fun tree w path h => ih.tick_entry (h.entry plans depth .tick) h
    · exact fun tree w path h => ih.finish_entry (h.entry plans depth .finish) h
    · exact fun tree w path h => ih.reset_entry (h.entry plans depth .reset) h

end ForwardingForest

end TickTree
