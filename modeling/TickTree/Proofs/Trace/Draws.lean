import Mathlib.Logic.Function.Iterate
import TickTree.Proofs.Trace.Accounts

/-!
# Draws of a tick

The calls and draws of a tick are those of the turns and calls in its trace, in this order.  A
success rate draws a fraction in each turn that it has with a child, whether or not it lets the
child run, and it asks its supplier once before.

Main results:

- Definition `RatesAsk`: a success rate asks its supplier once before its turn.
- Theorem `Node.ratesAsk_trace` and `ratesAsk_serveTrace`: so it is in the traces of nodes and of
  requests.
- Theorem `Node.draws_accounted`: a tick makes the draws of the turns in its trace, and no others.
-/

namespace TickTree

/-! ## Success rates ask first -/

/-- The turn of a success rate with a child and with a supplier to call. -/
def Moment.rated (source : SourceId) (percentage : Callback Float32) (child : Node) (u : World) :
    Moment :=
  .turn (.decorator (.successRate source (.scripted percentage)) (some child)) u

/-- The last that happens is one call of a callback, with what the callback asks for.  The call may
itself come about because callbacks ask for it, so many levels deep. -/
def EndsInCall {α : Type} (level : Nat) (c : Callback α) (moments : List Moment) : Prop :=
  ∃ earlier asides : List Moment, moments =
    earlier ++ Moment.aside^[level] (.call c.seat c.label) :: asides.map Moment.aside^[level + 1]

/-- Right before every turn of a success rate its supplier is called, once, whatever the level. -/
def RatesAsk (moments : List Moment) : Prop :=
  ∀ level source percentage child u before after,
    moments = before ++ Moment.aside^[level] (.rated source percentage child u) :: after →
    EndsInCall level percentage before

theorem EndsInCall.append_left {α : Type} {level : Nat} {c : Callback α} {moments : List Moment}
    (h : EndsInCall level c moments) (first : List Moment) :
    EndsInCall level c (first ++ moments) := by
  rcases h with ⟨earlier, asides, rfl⟩
  exact ⟨first ++ earlier, asides, (List.append_assoc _ _ _).symm⟩

theorem EndsInCall.aside {α : Type} {level : Nat} {c : Callback α} {moments : List Moment}
    (h : EndsInCall level c moments) : EndsInCall (level + 1) c (moments.map .aside) := by
  rcases h with ⟨earlier, asides, rfl⟩
  refine ⟨earlier.map .aside, asides, ?_⟩
  simp only [List.map_append, List.map_cons, List.map_map, Function.iterate_succ']
  rfl

/-- What does not happen aside is no such turn, unless it is one at the outermost level. -/
theorem Moment.eq_of_not_aside {moment inner : Moment} {level : Nat}
    (h : ∀ other, moment ≠ .aside other) (heq : moment = Moment.aside^[level] inner) :
    level = 0 ∧ moment = inner := by
  cases level with
  | zero => exact ⟨rfl, heq⟩
  | succ level =>
    rw [Function.iterate_succ_apply'] at heq
    exact absurd heq (h _)

namespace RatesAsk

variable {first second moments : List Moment} {moment : Moment}

theorem nil : RatesAsk [] := by
  intro level source percentage child u before after hsplit
  cases before <;> cases hsplit

/-- The second part of a list may rely on the first. -/
theorem extend (h : RatesAsk first)
    (h' : ∀ level source percentage child u before after,
      second = before ++ Moment.aside^[level] (.rated source percentage child u) :: after →
      EndsInCall level percentage (first ++ before)) : RatesAsk (first ++ second) := by
  intro level source percentage child u before after hsplit
  rcases List.append_eq_append_iff.1 hsplit with
    ⟨middle, rfl, hsecond⟩ | ⟨middle, hfirst, hafter⟩
  · exact h' _ _ _ _ _ _ _ hsecond
  · cases middle with
    | nil =>
      rw [List.append_nil] at hfirst
      rw [← hfirst, ← List.append_nil first]
      exact h' _ _ _ _ _ _ _ hafter.symm
    | cons next rest =>
      rw [List.cons_append, List.cons.injEq] at hafter
      rcases hafter with ⟨rfl, -⟩
      exact h _ _ _ _ _ _ _ hfirst

theorem append (h : RatesAsk first) (h' : RatesAsk second) : RatesAsk (first ++ second) := by
  refine h.extend fun level source percentage child u before after hsplit => ?_
  exact (h' _ _ _ _ _ _ _ hsplit).append_left first

/-- What does not happen aside may come last, if it is no turn of a success rate without a call
right before. -/
theorem snoc (h : RatesAsk first) (hmoment : ∀ other, moment ≠ .aside other)
    (hlast : ∀ source percentage child u, moment = .rated source percentage child u →
      EndsInCall 0 percentage first) : RatesAsk (first ++ [moment]) := by
  refine h.extend fun level source percentage child u before after hsplit => ?_
  cases before with
  | nil =>
    rw [List.nil_append, List.cons.injEq] at hsplit
    rcases Moment.eq_of_not_aside hmoment hsplit.1 with ⟨rfl, hrated⟩
    rw [List.append_nil]
    exact hlast source percentage child u hrated
  | cons next rest =>
    rw [List.cons_append, List.cons.injEq] at hsplit
    exact absurd hsplit.2.symm (by simp)

/-- What happens aside may be anything that happens elsewhere. -/
theorem aside (h : RatesAsk moments) : RatesAsk (moments.map .aside) := by
  intro level source percentage child u before after hsplit
  rcases List.map_eq_append_iff.1 hsplit with ⟨first, second, rfl, rfl, hsecond⟩
  rcases List.map_eq_cons_iff.1 hsecond with ⟨moment, rest, rfl, hmoment, rfl⟩
  cases level with
  | zero => exact Moment.noConfusion hmoment
  | succ level =>
    rw [Function.iterate_succ_apply'] at hmoment
    cases Moment.aside.inj hmoment
    exact (h level source percentage child u first rest rfl).aside

theorem flatMap {α : Type} {trace : α → List Moment} {parts : List α}
    (h : ∀ part ∈ parts, RatesAsk (trace part)) : RatesAsk (parts.flatMap trace) := by
  induction parts with
  | nil => exact .nil
  | cons part rest ih =>
    rw [List.flatMap_cons]
    have hrest := ih fun other ho => h other (List.mem_cons_of_mem _ ho)
    exact (h part List.mem_cons_self).append hrest

theorem call (seat : Nat) (label : String) : RatesAsk [.call seat label] :=
  RatesAsk.nil.snoc (fun _ => Moment.noConfusion) fun _ _ _ _ => Moment.noConfusion

theorem entered (tree : TreeId) (root : Node) : RatesAsk [.entered tree root] :=
  RatesAsk.nil.snoc (fun _ => Moment.noConfusion) fun _ _ _ _ => Moment.noConfusion

/-- The turn of another node needs no call. -/
theorem turn {node : Node}
    (h : ∀ source percentage child,
      node ≠ .decorator (.successRate source (.scripted percentage)) (some child)) (u : World) :
    RatesAsk [.turn node u] :=
  RatesAsk.nil.snoc (fun _ => Moment.noConfusion) fun source percentage child _ hrated =>
    absurd (Moment.turn.inj hrated).1 (h source percentage child)

end RatesAsk

/-! ## Traces of nodes and requests -/

section

variable {s : Service} {asked : Asked}
  (hasked : ∀ operation tree w, RatesAsk (asked operation tree w))

/-- All that effects bring about happens aside. -/
theorem Effect.exists_asides (s : Service) (asked : Asked) (effects : List Effect) (w : World) :
    ∃ moments : List Moment, traceAll s asked effects w = moments.map .aside := by
  induction effects generalizing w with
  | nil => exact ⟨[], rfl⟩
  | cons effect rest ih =>
    rcases ih (effect.perform s w) with ⟨later, hlater⟩
    have hfirst : ∃ moments : List Moment, effect.trace asked w = moments.map .aside := by
      unfold trace
      split
      · split
        · exact ⟨[], rfl⟩
        · exact ⟨_, rfl⟩
      · exact ⟨[], rfl⟩
    rcases hfirst with ⟨moments, hmoments⟩
    exact ⟨moments ++ later, by rw [traceAll, hmoments, hlater, List.map_append]⟩

/-- A call ends with what it asks for. -/
theorem Callback.endsInCall_trace {α : Type} (c : Callback α) (s : Service) (asked : Asked)
    (w : World) : EndsInCall 0 c (c.trace s asked w) := by
  let counted := (w.emit (.called c.seat c.label)).countCall c.seat
  rcases Effect.exists_asides s asked (c.reply counted.1).effects counted.2 with ⟨moments, hmoments⟩
  refine ⟨[], moments, ?_⟩
  simp only [trace, asides, List.nil_append, Function.iterate_zero, id_eq]
  exact congrArg _ hmoments

include hasked

theorem Effect.ratesAsk_traceAll (effects : List Effect) (w : World) :
    RatesAsk (traceAll s asked effects w) := by
  induction effects generalizing w with
  | nil => exact .nil
  | cons effect rest ih =>
    refine RatesAsk.append ?_ (ih _)
    unfold trace
    split
    · split
      · exact .nil
      · exact (hasked _ _ _).aside
    · exact .nil

theorem Callback.ratesAsk_trace {α : Type} (c : Callback α) (w : World) :
    RatesAsk (c.trace s asked w) :=
  (RatesAsk.call _ _).append (Effect.ratesAsk_traceAll hasked _ _)

theorem Supplier.ratesAsk_trace {α : Type} (supplier : Supplier α) (w : World) :
    RatesAsk (supplier.trace s asked w) := by
  cases supplier with
  | constant value => exact .nil
  | scripted callback => exact callback.ratesAsk_trace hasked w

theorem Leaf.ratesAsk_trace (part : Leaf) (w : World) : RatesAsk (part.trace s asked w) := by
  cases part with
  | action name body => exact body.ratesAsk_trace hasked w
  | condition name test => exact test.ratesAsk_trace hasked w
  | sleep timer => exact .nil
  | sleepUntil timer test => exact test.ratesAsk_trace hasked _
  | sleepUntilIdle watch test bypass =>
    have hbypass : RatesAsk (IdleWatch.traceBypass s asked bypass w) := by
      cases bypass with
      | none => exact .nil
      | some bypass => exact bypass.ratesAsk_trace hasked w
    simp only [trace, IdleWatch.trace]
    split
    · exact hbypass
    · exact hbypass.append (test.ratesAsk_trace hasked _)
  | probe name script hooks => exact Effect.ratesAsk_traceAll hasked _ _
  | countdown name count remaining => exact .nil

theorem Reference.ratesAsk_trace (r : Reference) (w : World) : RatesAsk (r.trace s asked w) := by
  have hresolving :
      RatesAsk (if r.resolves then r.supplier.trace s asked (r.asking w) else []) := by
    split
    · exact r.supplier.ratesAsk_trace hasked _
    · exact .nil
  have hrequests : ∀ requests v, RatesAsk (s.traceSend asked requests v) := by
    intro requests
    induction requests with
    | nil => exact fun _ => .nil
    | cons request rest ih => exact fun v => (hasked _ _ v).append (ih _)
  exact hresolving.append (hrequests _ _)

/-- A success rate asks its supplier before its turn; other decorators need not. -/
theorem Decorator.ratesAsk_preamble (part : Decorator) (child : Node) (w : World) :
    RatesAsk (part.preamble s asked w ++ [.turn (.decorator part (some child)) w]) := by
  cases part with
  | successRate source percentage =>
    have htrace : RatesAsk (percentage.trace s asked w) := percentage.ratesAsk_trace hasked w
    refine htrace.snoc (fun _ => Moment.noConfusion) ?_
    intro _ called _ _ hrated
    cases hrated
    exact called.endsInCall_trace s asked w
  | cooldown clock period last =>
    exact (period.ratesAsk_trace hasked w).append (.turn (by simp) w)
  | inverter => exact .turn (by simp) w
  | repetition limit count => exact .turn (by simp) w
  | retry limit count => exact .turn (by simp) w
  | sleepUntilSuccess timer => exact .turn (by simp) w

/-- In the trace of a tick, success rates ask their suppliers first. -/
theorem Node.ratesAsk_trace (n : Node) (w : World) : RatesAsk (n.trace s asked w) := by
  induction n generalizing w with
  | leaf part =>
    rw [trace]
    exact (RatesAsk.turn (by simp) w).append (part.ratesAsk_trace hasked w)
  | composite part children ih =>
    rw [trace]
    refine (RatesAsk.turn (by simp) w).append (RatesAsk.flatMap ?_)
    exact forall_mem_traced .nil part ih w
  | decorator part child ih =>
    cases child with
    | none =>
      rw [trace]
      exact .turn (by simp) w
    | some inner =>
      have hrecord := forall_mem_traced_child (s := s) .nil part (ih inner rfl) w
      rw [trace, List.append_cons]
      refine (part.ratesAsk_preamble hasked inner w).append (RatesAsk.flatMap fun k hk => ?_)
      exact hrecord k (Option.mem_toList.1 hk)
  | reference part =>
    rw [trace]
    exact (RatesAsk.turn (by simp) w).append (part.ratesAsk_trace hasked w)
  | embedded tag root ih =>
    rw [trace]
    exact ih w

end

/-- In the trace of a request, success rates ask their suppliers first. -/
theorem ratesAsk_serveTrace (plant : PlanId → World → Option TreeId × World) (depth : Nat)
    (operation : Operation) (tree : TreeId) (w : World) :
    RatesAsk (serveTrace plant depth operation tree w) := by
  induction depth generalizing operation tree w with
  | zero => exact .nil
  | succ depth ih =>
    unfold serveTrace
    split
    · exact (RatesAsk.entered _ _).append (Node.ratesAsk_trace ih _ _)
    · exact .nil

/-! ## The draws of a tick -/

/-- A tick makes the draws of the turns in its trace, in this order, and leaves the sources as they
are after these draws and no others.  In its turn a random selector with children and without a
selection draws an index, a success rate with a child a fraction, and a timer that is polled without
a wait in progress a normally distributed number, unless its spread is not a finite positive number;
no other node draws anything.  A success rate calls its supplier once right before it draws. -/
theorem Node.draws_accounted (plans : Array TreePlan) (depth : Nat) (n : Node) (w : World) :
    let s := serve (plantFrom plans) depth
    let trace := n.trace s (serveTrace (plantFrom plans) depth) w
    World.Accounts trace w (n.tick s w).world ∧ RatesAsk trace :=
  ⟨n.accounts_tick (serve_accounts plans depth) w,
    n.ratesAsk_trace (ratesAsk_serveTrace (plantFrom plans) depth) w⟩

end TickTree
