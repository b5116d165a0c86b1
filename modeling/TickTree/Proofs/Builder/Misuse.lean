import Mathlib.Data.List.Induction
import TickTree.Proofs.Builder

/-!
# Misuse of builders

Which calls to a builder are misuses can be read off the calls alone.  Every end is matched with the
composite that it closes, as brackets are; a decorator waits for a node until some call other than a
configuration comes after it; and spreads and percentages speak for themselves.

A builder repairs its stack after a misuse and goes on, so what it holds then need not be what the
calls say.  That does not matter: the first misuse is kept, and up to it the builder and the reading
of the calls agree.

Main results:

- Theorem `Builder.length_scopes_steps`: a builder has a scope for every composite without an end.
- Theorem `Builder.Reads.complaint_eq_some_iff`: after proper calls a builder complains exactly of
  misuses.
- Theorem `Builder.first_misuse_reported`: the first misuse is the result of the build, whatever
  calls follow; without misuses the result is read off what is left open.
-/

namespace TickTree

namespace Builder

/-! ## Reading calls -/

namespace Call

/-- The call opens the scope of a composite. -/
def opens : Call → Bool
  | .scope _ => true
  | .composite _ _ => true
  | _ => false

/-- The call is the end of a composite. -/
def closes : Call → Bool
  | .close => true
  | _ => false

/-- The decorator that a call stages. -/
def staged? : Call → Option Decorator
  | .wrap part => some part
  | .decorator part => some part
  | _ => none

/-- The end of a composite comes among the calls after it, when so many composites were opened
inside it already and wait for their own ends. -/
def hasEnd : (inside : Nat) → List Call → Bool
  | _, [] => false
  | inside, call :: rest =>
    if call.opens then hasEnd (inside + 1) rest
    else if call.closes then
      match inside with
      | 0 => true
      | inside + 1 => hasEnd inside rest
    else hasEnd inside rest

/-- How many composites have no matching end. -/
def unclosed : List Call → Nat
  | [] => 0
  | call :: rest => if call.opens && !hasEnd 0 rest then unclosed rest + 1 else unclosed rest

/-- The decorator that was staged last, if no node has come since: the last call, configurations
apart, stages it. -/
def lastStaged? (calls : List Call) : Option Decorator :=
  (calls.filter fun call => !call.installed?.isSome).getLast?.bind staged?

/-- How many ends close composites that were opened before the calls. -/
def surplus : List Call → Nat
  | [] => 0
  | call :: rest =>
    if call.opens then surplus rest - 1
    else if call.closes then surplus rest + 1
    else surplus rest

/-- A composite finds its end when there are more ends than the composites inside it need. -/
theorem hasEnd_iff (inside : Nat) (calls : List Call) :
    hasEnd inside calls = true ↔ inside < surplus calls := by
  induction calls generalizing inside with
  | nil => simp [hasEnd, surplus]
  | cons call rest ih =>
    unfold hasEnd surplus
    by_cases hopens : call.opens = true
    · rw [if_pos hopens, if_pos hopens, ih]
      omega
    · rw [if_neg hopens, if_neg hopens]
      by_cases hcloses : call.closes = true
      · rw [if_pos hcloses, if_pos hcloses]
        cases inside with
        | zero => simp
        | succ inside =>
          simp only [ih]
          omega
      · rw [if_neg hcloses, if_neg hcloses, ih]

/-- A composite without an end is counted. -/
theorem unclosed_cons (call : Call) (rest : List Call) :
    unclosed (call :: rest) =
      if call.opens = true ∧ surplus rest = 0 then unclosed rest + 1 else unclosed rest := by
  have hend : hasEnd 0 rest = false ↔ surplus rest = 0 := by
    rw [← Bool.not_eq_true, hasEnd_iff]
    omega
  simp only [unclosed, Bool.and_eq_true, Bool.not_eq_true', hend]

/-- The last call decides on the decorator that waits, unless it installs a configuration. -/
theorem lastStaged?_concat (calls : List Call) (call : Call) :
    lastStaged? (calls ++ [call]) =
      if call.installed?.isSome then lastStaged? calls else call.staged? := by
  unfold lastStaged?
  rw [List.filter_append]
  cases hcall : call.installed?.isSome with
  | true => simp only [List.filter_cons, hcall, Bool.not_true, Bool.false_eq_true, if_false,
      List.filter_nil, List.append_nil, if_true]
  | false =>
    simp only [List.filter_cons, hcall, Bool.not_false, if_true, List.filter_nil,
      List.getLast?_concat, Option.bind_some, Bool.false_eq_true, if_false]

end Call

/-- The error of a spread that is not finite or is negative. -/
def spreadError (config : Config) : BuildError :=
  let spread := Layout.plain.render config.spread
  .invalidParameter "NodeConfig" s!"jitter spread must be finite and non-negative, got {spread}"

/-- A call is a misuse after other calls, and this is its error. -/
inductive Misuse (before : List Call) : Call → BuildError → Prop
  /-- An end without an open composite. -/
  | unbalanced (hopen : Call.unclosed before = 0) : Misuse before .close .unbalancedEnd
  /-- An end that leaves a decorator inside its composite without a node. -/
  | dangling {part : Decorator} (hopen : 0 < Call.unclosed before)
    (hstaged : Call.lastStaged? before = some part) :
    Misuse before .close (.danglingDecorator part.name)
  /-- A configuration with a spread that is not finite or is negative. -/
  | spread {config : Config} (h : config.spread.isFinite = false ∨ config.spread < 0.0) :
    Misuse before (.configure config) (spreadError config)
  /-- A percentage that is not a number. -/
  | percentage {source : SourceId} {percentage : Float32} (h : percentage.isNaN = true) :
    Misuse before (.wrap (.successRate source (.constant percentage)))
      (.invalidParameter "SuccessRate" "percentage is NaN")

/-- No call is a misuse. -/
def Proper (calls : List Call) : Prop :=
  ∀ before call after error, calls = before ++ call :: after → ¬ Misuse before call error

/-- The error of the earliest misuse among calls. -/
def FirstMisuse (calls : List Call) (error : BuildError) : Prop :=
  ∃ before call after, calls = before ++ call :: after ∧ Proper before ∧ Misuse before call error

theorem proper_nil : Proper [] := by
  intro before call after error h
  exact absurd h.symm (List.append_ne_nil_of_right_ne_nil _ (List.cons_ne_nil _ _))

/-- One more call keeps calls proper if it is no misuse after them. -/
theorem proper_concat {calls : List Call} {call : Call} :
    Proper (calls ++ [call]) ↔ Proper calls ∧ ∀ error, ¬ Misuse calls call error := by
  constructor
  · intro h
    refine ⟨fun before other after error heq => ?_, fun error => h calls call [] error rfl⟩
    refine h before other (after ++ [call]) error ?_
    rw [heq, List.append_assoc, List.cons_append]
  · rintro ⟨hcalls, hcall⟩ before other after error heq
    rcases List.eq_nil_or_concat after with rfl | ⟨others, last, rfl⟩
    · rcases List.append_inj' heq rfl with ⟨rfl, hlast⟩
      cases hlast
      exact hcall error
    · rw [List.concat_eq_append, ← List.cons_append, ← List.append_assoc] at heq
      rcases List.append_inj' heq rfl with ⟨hbefore, -⟩
      exact hcalls before other others error hbefore

/-- Calls are proper, or one of them is the first misuse. -/
theorem proper_or_firstMisuse (calls : List Call) :
    Proper calls ∨ ∃ error, FirstMisuse calls error := by
  induction calls using List.reverseRecOn with
  | nil => exact .inl proper_nil
  | append_singleton calls call ih =>
    rcases ih with hproper | ⟨error, before, other, after, rfl, hbefore, hmisuse⟩
    · by_cases hcall : ∃ error, Misuse calls call error
      · rcases hcall with ⟨error, hmisuse⟩
        exact .inr ⟨error, calls, call, [], rfl, hproper, hmisuse⟩
      · exact .inl (proper_concat.2 ⟨hproper, not_exists.1 hcall⟩)
    · refine .inr ⟨error, before, other, after ++ [call], ?_, hbefore, hmisuse⟩
      rw [List.append_assoc, List.cons_append]

/-! ## What a builder does with them -/

/-- Adding a node leaves the scopes open. -/
theorem length_scopes_attach (node : Node) (b : Builder) :
    (b.attach node).scopes.length = b.scopes.length := by
  rcases b with ⟨_, scopes, _, _, _⟩
  cases scopes <;> rfl

/-- Closing a scope leaves the others open. -/
theorem length_scopes_closeScope (b : Builder) :
    b.closeScope.scopes.length = b.scopes.length - 1 := by
  rcases b with ⟨_, scopes, _, _, _⟩
  cases scopes with
  | nil => rfl
  | cons scope outer => exact length_scopes_attach _ _

/-- A builder has a scope for every composite without an end, besides those that it had before and
that are not closed. -/
theorem length_scopes_steps {calls : List Call} (hflat : ∀ call ∈ calls, call.isFlat = true)
    (b : Builder) :
    (b.steps calls).scopes.length =
      b.scopes.length - Call.surplus calls + Call.unclosed calls := by
  induction calls generalizing b with
  | nil => simp [steps, Call.surplus, Call.unclosed]
  | cons call rest ih =>
    have hrest := ih (fun other hother => hflat other (List.mem_cons_of_mem _ hother)) (b.step call)
    rw [steps, hrest, Call.unclosed_cons, Call.surplus]
    cases call with
    | apply fragment => cases hflat _ List.mem_cons_self
    | scope part =>
      simp only [step, openScope, Call.opens, List.length_cons, if_true, true_and]
      split <;> omega
    | composite part children =>
      simp only [step, openScope, Call.opens, List.length_cons, if_true, true_and]
      split <;> omega
    | close =>
      have hscopes : (b.step .close).scopes.length = b.scopes.length - 1 :=
        length_scopes_closeScope _
      simp only [hscopes, Call.opens, Call.closes, Bool.false_eq_true, if_false, if_true, false_and]
      omega
    | configure config => rfl
    | wrap part => rfl
    | decorator part => rfl
    | leaf part =>
      rw [step, length_scopes_attach]
      rfl
    | node inner =>
      rw [step, length_scopes_attach]
      rfl

/-- The configuration of a decorator does not show in its name. -/
theorem name_withConfig (config : Config) (part : Decorator) :
    (part.withConfig config).name = part.name := by
  cases part <;> rfl

/-- A call adds its misuse to what went wrong before. -/
theorem error_step {call : Call} (hflat : call.isFlat = true) (b : Builder) :
    (b.step call).error = b.error.or (b.complaint call) := by
  cases call with
  | apply fragment => cases hflat
  | configure config => rfl
  | close => rw [step, error_closeScope, record]
  | wrap part => rfl
  | scope part => simp only [step, openScope, complaint, Option.or_none]
  | composite part children => simp only [step, openScope, complaint, Option.or_none]
  | decorator part => simp only [step, stage, complaint, Option.or_none]
  | leaf part => simp only [step, error_attach, complaint, Option.or_none]
  | node inner => simp only [step, error_attach, complaint, Option.or_none]

/-- A builder keeps the first misuse, whatever calls follow. -/
theorem error_steps_of_eq_some {b : Builder} {error : BuildError} (h : b.error = some error)
    (calls : List Call) : (b.steps calls).error = some error := by
  suffices hflat : ∀ calls : List Call, (∀ call ∈ calls, call.isFlat = true) →
      ∀ b : Builder, b.error = some error → (b.steps calls).error = some error by
    rw [← steps_spliceAll]
    exact hflat _ (fun call => Call.isFlat_of_mem_spliceAll calls) b h
  intro calls hflat
  induction calls with
  | nil => exact fun b hb => hb
  | cons call rest ih =>
    intro b hb
    refine ih (fun other hother => hflat other (List.mem_cons_of_mem _ hother)) _ ?_
    rw [error_step (hflat call List.mem_cons_self), hb, Option.some_or]

/-- A builder complains of a spread that is not finite or is negative. -/
theorem configComplaint_eq_some_iff (config : Config) (error : BuildError) :
    configComplaint config = some error ↔
      (config.spread.isFinite = false ∨ config.spread < 0.0) ∧ error = spreadError config := by
  have hvalid : validSpread config.spread = false ↔
      config.spread.isFinite = false ∨ config.spread < 0.0 := by
    cases hfinite : config.spread.isFinite <;> simp [validSpread, hfinite]
  rw [configComplaint, ← hvalid]
  cases validSpread config.spread with
  | true => exact iff_of_false (fun h => by cases h) (fun h => by cases h.1)
  | false =>
    constructor
    · intro h
      cases h
      exact ⟨rfl, rfl⟩
    · rintro ⟨-, rfl⟩
      rfl

/-- A builder complains of a percentage that is not a number. -/
theorem lacksPercentage_iff (part : Decorator) :
    lacksPercentage part = true ↔
      ∃ source percentage, part = .successRate source (.constant percentage) ∧
        percentage.isNaN = true := by
  constructor
  · intro h
    unfold lacksPercentage at h
    split at h
    · exact ⟨_, _, rfl, h⟩
    · cases h
  · rintro ⟨source, percentage, rfl, hnan⟩
    exact hnan

/-- A builder agrees with the reading of the proper calls that it was given. -/
structure Reads (calls : List Call) (b : Builder) : Prop where
  error : b.error = none
  scopes : b.scopes.length = Call.unclosed calls
  staged : b.staged.head?.map Decorator.name = (Call.lastStaged? calls).map Decorator.name

namespace Reads

variable {calls : List Call} {b : Builder}

theorem scopes_eq_nil_iff (h : Reads calls b) : b.scopes = [] ↔ Call.unclosed calls = 0 := by
  rw [← h.scopes, List.length_eq_zero_iff]

/-- The decorator that was staged last is on top. -/
theorem exists_staged_iff (h : Reads calls b) (name : String) :
    (∃ part rest, b.staged = part :: rest ∧ part.name = name) ↔
      ∃ part, Call.lastStaged? calls = some part ∧ part.name = name := by
  have hnames : b.staged.head?.map Decorator.name = some name ↔
      (Call.lastStaged? calls).map Decorator.name = some name := by rw [h.staged]
  rw [Option.map_eq_some_iff, Option.map_eq_some_iff] at hnames
  rw [← hnames]
  cases b.staged <;> simp

/-- After proper calls a builder complains of an end exactly when it is a misuse. -/
theorem closeComplaint_eq_some_iff (h : Reads calls b) (error : BuildError) :
    b.closeComplaint = some error ↔ Misuse calls .close error := by
  constructor
  · intro hcomplaint
    rw [closeComplaint] at hcomplaint
    split at hcomplaint
    · rename_i hscopes
      cases hcomplaint
      exact .unbalanced (h.scopes_eq_nil_iff.1 hscopes)
    · cases hcomplaint
    · rename_i hscopes hstaged
      cases hcomplaint
      rcases (h.exists_staged_iff _).1 ⟨_, _, hstaged, rfl⟩ with ⟨part, hpart, hname⟩
      rw [← hname]
      refine .dangling (Nat.pos_of_ne_zero fun hnone => ?_) hpart
      rw [h.scopes_eq_nil_iff.2 hnone] at hscopes
      cases hscopes
  · intro hmisuse
    cases hmisuse with
    | unbalanced hopen => rw [closeComplaint, h.scopes_eq_nil_iff.2 hopen]
    | dangling hopen hpart =>
      rcases (h.exists_staged_iff _).2 ⟨_, hpart, rfl⟩ with ⟨top, rest, hstaged, hname⟩
      rw [closeComplaint, hstaged, ← hname]
      rcases hscopes : b.scopes with _ | ⟨scope, outer⟩
      · rw [h.scopes_eq_nil_iff.1 hscopes] at hopen
        exact absurd hopen (Nat.lt_irrefl 0)
      · rfl

/-- After proper calls a builder complains exactly of misuses. -/
theorem complaint_eq_some_iff (h : Reads calls b) (call : Call) (error : BuildError) :
    b.complaint call = some error ↔ Misuse calls call error := by
  cases call with
  | close => exact h.closeComplaint_eq_some_iff error
  | configure config =>
    rw [complaint, configComplaint_eq_some_iff]
    constructor
    · rintro ⟨hspread, rfl⟩
      exact .spread hspread
    · intro hmisuse
      cases hmisuse with
      | spread hspread => exact ⟨hspread, rfl⟩
  | wrap part =>
    rw [complaint]
    constructor
    · intro hcomplaint
      split at hcomplaint
      · rename_i hpart
        cases hcomplaint
        rcases (lacksPercentage_iff part).1 hpart with ⟨source, percentage, rfl, hnan⟩
        exact .percentage hnan
      · cases hcomplaint
    · intro hmisuse
      cases hmisuse with
      | percentage hnan => rw [if_pos ((lacksPercentage_iff _).2 ⟨_, _, rfl, hnan⟩)]
  | scope part => exact iff_of_false (fun h => by cases h) (fun h => by cases h)
  | composite part children => exact iff_of_false (fun h => by cases h) (fun h => by cases h)
  | decorator part => exact iff_of_false (fun h => by cases h) (fun h => by cases h)
  | leaf part => exact iff_of_false (fun h => by cases h) (fun h => by cases h)
  | node inner => exact iff_of_false (fun h => by cases h) (fun h => by cases h)
  | apply fragment => exact iff_of_false (fun h => by cases h) (fun h => by cases h)

/-- After proper calls composites without an end are reported with their number. -/
theorem build_of_unclosed (h : Reads calls b) (hopen : 0 < Call.unclosed calls) :
    b.build = .error (.unclosedComposite (Call.unclosed calls)) := by
  rw [← h.scopes] at hopen ⊢
  rcases hscopes : b.scopes with _ | ⟨scope, outer⟩
  · rw [hscopes] at hopen
    exact absurd hopen (Nat.lt_irrefl 0)
  · simp only [build, h.error, hscopes]

/-- When all composites have their ends, the last decorator that waits for a node is reported. -/
theorem build_of_staged (h : Reads calls b) (hopen : Call.unclosed calls = 0) {part : Decorator}
    (hpart : Call.lastStaged? calls = some part) :
    b.build = .error (.danglingDecorator part.name) := by
  rcases (h.exists_staged_iff _).2 ⟨part, hpart, rfl⟩ with ⟨top, rest, hstaged, hname⟩
  have hscopes := h.scopes_eq_nil_iff.2 hopen
  simp only [build, h.error, hscopes, hstaged, hname]

end Reads

/-- Nothing waits in a builder to which a node was added. -/
theorem staged_attach (node : Node) (b : Builder) : (b.attach node).staged = [] := by
  rcases b with ⟨_, scopes, _, _, _⟩
  cases scopes <;> rfl

/-- A builder agrees with the reading of proper calls. -/
theorem reads_steps (config : Config) {calls : List Call}
    (hflat : ∀ call ∈ calls, call.isFlat = true) (hproper : Proper calls) :
    Reads calls ((new config).steps calls) := by
  induction calls using List.reverseRecOn with
  | nil => exact ⟨rfl, rfl, rfl⟩
  | append_singleton calls call ih =>
    rcases proper_concat.1 hproper with ⟨hcalls, hcall⟩
    have hbefore := fun other hother => hflat other (List.mem_append_left _ hother)
    have hlast := hflat call (List.mem_append_right _ (List.mem_singleton_self call))
    have hreads := ih hbefore hcalls
    let b := (new config).steps calls
    have hcomplaint : b.complaint call = none := by
      rw [Option.eq_none_iff_forall_ne_some]
      exact fun error h => hcall error ((hreads.complaint_eq_some_iff call error).1 h)
    have hsteps : (new config).steps (calls ++ [call]) = b.step call := by
      rw [steps_append, steps, steps]
    refine ⟨?_, ?_, ?_⟩
    · rw [hsteps, error_step hlast, hreads.error, hcomplaint]
      rfl
    · rw [length_scopes_steps hflat]
      exact (congrArg (· + _) (Nat.zero_sub _)).trans (Nat.zero_add _)
    · rw [hsteps, Call.lastStaged?_concat]
      cases call with
      | apply fragment => cases hlast
      | configure installed => exact hreads.staged
      | scope part => rfl
      | composite part children => rfl
      | wrap part => exact congrArg some (name_withConfig b.config part)
      | decorator part => rfl
      | leaf part => rw [step, staged_attach]; rfl
      | node inner => rw [step, staged_attach]; rfl
      | close =>
        -- An end that is no misuse closes a scope, so it adds a node.
        have hopen : b.scopes ≠ [] := by
          intro hnone
          exact hcall _ (.unbalanced (hreads.scopes_eq_nil_iff.1 hnone))
        rcases hscopes : b.scopes with _ | ⟨scope, outer⟩
        · exact absurd hscopes hopen
        · have hclosed : (b.step .close).staged = [] := by
            rw [step, closeScope]
            simp only [record, hscopes, staged_attach]
          rw [hclosed]
          rfl

/-! ## The result of a build -/

/-- The first misuse is the result of a build, whatever calls follow. -/
theorem build_of_firstMisuse (config : Config) {calls : List Call}
    (hflat : ∀ call ∈ calls, call.isFlat = true) {error : BuildError}
    (h : FirstMisuse calls error) (more : List Call) :
    (((new config).steps calls).steps more).build = .error error := by
  rcases h with ⟨before, call, after, rfl, hproper, hmisuse⟩
  have hbefore := fun other hother => hflat other (List.mem_append_left _ hother)
  have hcall := hflat call (List.mem_append_right _ List.mem_cons_self)
  have hreads := reads_steps config hbefore hproper
  have hstep : (((new config).steps before).step call).error = some error := by
    rw [error_step hcall, hreads.error, (hreads.complaint_eq_some_iff call error).2 hmisuse]
    rfl
  rw [steps_append, steps, ← steps_append, build, error_steps_of_eq_some hstep]

/-- The result of a build without misuses that leaves nothing open, for the roots in order. -/
def buildRoots : List Node → Except BuildError Node
  | [] => .error .emptyTree
  | [root] => .ok root
  | roots => .error (.multipleRoots roots.length)

theorem buildRoots_of_many {roots : List Node} (h : 1 < roots.length) :
    buildRoots roots = .error (.multipleRoots roots.length) := by
  rcases roots with _ | ⟨first, _ | ⟨second, rest⟩⟩
  · exact absurd h (Nat.not_lt_zero 1)
  · exact absurd h (Nat.lt_irrefl 1)
  · rfl

/-- When nothing is left open the result is a matter of the roots. -/
theorem build_eq_buildRoots {b : Builder} (herror : b.error = none) (hscopes : b.scopes = [])
    (hstaged : b.staged = []) : b.build = buildRoots b.roots.reverse := by
  simp only [build, herror, hscopes, hstaged]
  rcases hroots : b.roots with _ | ⟨first, _ | ⟨second, rest⟩⟩
  · rfl
  · rfl
  · rw [buildRoots_of_many (by simp), List.length_reverse]

/-- Several terms are written down in one way only. -/
theorem encodeAll_inj {ts us : List Term} (h : Term.encodeAll ts = Term.encodeAll us) : ts = us :=
  (Term.encodeAll_append_inj ts us (congrArg (· ++ [Call.close]) h)).1

/-- Proper calls that leave nothing open write down complete terms, one for each root. -/
theorem exists_terms_of_proper (config : Config) {calls : List Call}
    (hflat : ∀ call ∈ calls, call.isFlat = true) (hproper : Proper calls)
    (hopen : Call.unclosed calls = 0) (hstaged : Call.lastStaged? calls = none) :
    ∃ terms : List Term, (Call.resolveAll config calls).1 = Term.encodeAll terms ∧
      ((new config).steps calls).roots.reverse = terms.map Term.tree ∧
      ((new config).steps calls).scopes = [] ∧ ((new config).steps calls).staged = [] := by
  have hreads := reads_steps config hflat hproper
  have hscopes := hreads.scopes_eq_nil_iff.2 hopen
  have hnone : ((new config).steps calls).staged = [] := by
    have hhead := hreads.staged
    rw [hstaged, Option.map_none, Option.map_eq_none_iff] at hhead
    exact List.head?_eq_none_iff.1 hhead
  have hempty : Outline.empty.Pictures (new config) := ⟨rfl, rfl, rfl⟩
  rcases Outline.pictures_steps hflat hempty hreads.error with ⟨⟨frames, staged, terms⟩, hcalls, h⟩
  have hframes : frames = [] := List.map_eq_nil_iff.1 (h.scopes.symm.trans hscopes)
  have hdecorators : staged = [] := h.staged.symm.trans hnone
  subst hframes hdecorators
  refine ⟨terms.reverse, ?_, ?_, hscopes, hnone⟩
  · simpa [Outline.calls, Outline.empty, Term.encodeAll, new] using hcalls.symm
  · rw [h.roots, List.map_reverse]

/-- The first misuse is reported, and an error is final.  Either no call is a misuse, or one is the
first, which is then the result of the build, whatever calls follow.  Without misuses, composites
without an end are reported with their number; else the last decorator that waits for a node; else
the calls, with their parts made ready, write down some terms in one way only, and the result is the
tree of the term if there is just one, and the number of the terms if there are more. -/
theorem first_misuse_reported (config : Config) (calls : List Call) :
    let flat := Call.spliceAll calls
    let built := ((new config).steps calls).build
    (Proper flat ∨ ∃ error, FirstMisuse flat error) ∧
    (∀ error, FirstMisuse flat error →
      ∀ more, ((new config).steps (calls ++ more)).build = .error error) ∧
    (Proper flat →
      (0 < Call.unclosed flat → built = .error (.unclosedComposite (Call.unclosed flat))) ∧
      (Call.unclosed flat = 0 → ∀ part, Call.lastStaged? flat = some part →
        built = .error (.danglingDecorator part.name)) ∧
      (Call.unclosed flat = 0 → Call.lastStaged? flat = none →
        ∃ terms : List Term, (Call.resolveAll config calls).1 = Term.encodeAll terms ∧
          (∀ others, (Call.resolveAll config calls).1 = Term.encodeAll others → others = terms) ∧
          (1 < terms.length → built = .error (.multipleRoots terms.length)) ∧
          (terms.length = 0 → built = .error .emptyTree) ∧
          ∀ t, terms = [t] → built = .ok t.tree)) := by
  intro flat built
  have hflat : ∀ call ∈ flat, call.isFlat = true := fun call => Call.isFlat_of_mem_spliceAll calls
  have hsteps : (new config).steps flat = (new config).steps calls :=
    steps_spliceAll calls (new config)
  refine ⟨proper_or_firstMisuse flat, ?_, ?_⟩
  · intro error h more
    rw [steps_append, ← hsteps]
    exact build_of_firstMisuse config hflat h more
  · intro hproper
    have hreads := reads_steps config hflat hproper
    rw [hsteps] at hreads
    refine ⟨hreads.build_of_unclosed, fun hopen part => hreads.build_of_staged hopen, ?_⟩
    intro hopen hnone
    rcases exists_terms_of_proper config hflat hproper hopen hnone with
      ⟨terms, hwritten, hroots, hscopes, hstaged⟩
    rw [hsteps] at hroots hscopes hstaged
    rw [Call.resolveAll_spliceAll] at hwritten
    have hbuilt : built = buildRoots (terms.map Term.tree) := by
      rw [← hroots]
      exact build_eq_buildRoots hreads.error hscopes hstaged
    refine ⟨terms, hwritten, fun others hothers => ?_, ?_, ?_, ?_⟩
    · exact encodeAll_inj (hothers.symm.trans hwritten)
    · intro hmany
      rw [hbuilt, buildRoots_of_many (by rwa [List.length_map]), List.length_map]
    · intro hzero
      rw [hbuilt, List.length_eq_zero_iff.1 hzero]
      rfl
    · rintro t rfl
      rw [hbuilt]
      rfl

/-- A decorator is left in a sequence that is closed twice: the end that closes the sequence is the
first misuse, and the second end does not count. -/
theorem first_misuse_reported_twoEnds :
    let calls : List Call :=
      [.scope (.ofKind .sequence), .wrap (.retry 2 0), .close, .close]
    FirstMisuse calls (.danglingDecorator "Retry") ∧
      ∀ more, ((new .standard).steps (calls ++ more)).build =
        .error (.danglingDecorator "Retry") := by
  intro calls
  let before : List Call := [] ++ [.scope (.ofKind .sequence)] ++ [.wrap (.retry 2 0)]
  have hproper : Proper before :=
    proper_concat.2 ⟨proper_concat.2 ⟨proper_nil, nofun⟩, nofun⟩
  have hopen : 0 < Call.unclosed before := Nat.one_pos
  have hfirst : FirstMisuse calls (.danglingDecorator "Retry") :=
    ⟨before, .close, [.close], rfl, hproper, .dangling hopen rfl⟩
  exact ⟨hfirst, (first_misuse_reported .standard calls).2.1 _ hfirst⟩

end Builder

end TickTree
