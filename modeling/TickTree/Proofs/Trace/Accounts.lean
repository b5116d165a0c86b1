import TickTree.Proofs.Reset.Target
import TickTree.Proofs.Trace

/-!
# Calls and draws in a tick

All nodes of a tree may share one random source, so a draw too many anywhere would shift all later
ones.  Which draws a tick makes is read off its trace: each turn of a node makes at most one, and
which one follows from the state of the node alone.  Together with the calls of callbacks these
draws are all that the history gains of such events, in this order; and the sources are left as they
are after these draws and no others.

Nothing is drawn or called outside of turns and calls: not by resets, starts and finishes, and not
when a plan is carried out.

Main results:

- Definition `Node.draw?`: what a node draws in its turn.
- Definition `World.Accounts`: certain moments account for all calls and draws between two worlds.
- Theorem `Leaf.accounts_tick`, `Composite.accounts_tick`, `Decorator.accounts_tick`: the traces of
  the parts account for their ticks.
- Theorem `Node.accounts_tick` and `serve_accounts`: so do the traces of nodes and of requests.
-/

namespace TickTree

/-! ## What nodes draw -/

/-- A timer draws a target when it is polled without a wait in progress, unless its wait is taken as
it is. -/
def Timer.draw? (t : Timer) : Option (SourceId × Draw) :=
  if t.armed.isNone && !t.jitter.isExact then some (t.source, .gaussian) else none

/-- A waiting leaf draws what its timer draws. -/
def Leaf.draw? : Leaf → Option (SourceId × Draw)
  | .sleep timer => timer.draw?
  | .sleepUntil timer _ => timer.draw?
  | _ => none

/-- A random selector without a selection draws one, if it has children. -/
def Composite.draw? : Composite → (children : Nat) → Option (SourceId × Draw)
  | .randomSelector source none, count + 1 => some (source, .index (count + 1))
  | _, _ => none

/-- A success rate draws a fraction each time, and a wait for success what its timer draws. -/
def Decorator.draw? : Decorator → Option (SourceId × Draw)
  | .successRate source _ => some (source, .unit)
  | .sleepUntilSuccess timer => timer.draw?
  | _ => none

/-- What a node draws in its turn.  A decorator without a child draws nothing. -/
def Node.draw? : Node → Option (SourceId × Draw)
  | leaf part => part.draw?
  | composite part children => part.draw? children.length
  | decorator part (some _) => part.draw?
  | _ => none

/-! ## Accounts -/

/-- A call of a callback or a draw. -/
def Event.isExpense : Event → Bool
  | called _ _ => true
  | drawn _ _ => true
  | _ => false

/-- The calls and draws on record, the earliest first. -/
def World.ledger (w : World) : List Event := w.history.reverse.filter Event.isExpense

/-- The draw that is made on a source in an event. -/
def Event.drawOn? (source : SourceId) : Event → Option Draw
  | drawn from' draw => if from' = source then some draw else none
  | _ => none

/-- A source after a draw; a normally distributed number takes two fractions. -/
def Source.afterDraw (s : Source) : Draw → Source
  | .unit => s.unit.2
  | .index bound => (s.index bound).2
  | .gaussian => s.unit.2.unit.2

/-- What a moment is in the ledger: a turn is the draw that the node makes in it. -/
def Moment.expenses : Moment → List Event
  | turn node _ => (node.draw?.map fun made => .drawn made.1 made.2).toList
  | call seat label => [.called seat label]
  | entered _ _ => []
  | aside moment => moment.expenses

/-- Certain moments account for the calls and draws between two worlds. -/
structure World.Accounts (moments : List Moment) (v w : World) : Prop where
  ledger : w.ledger = v.ledger ++ moments.flatMap Moment.expenses
  sources : ∀ source, w.sources.get source =
    ((moments.flatMap Moment.expenses).filterMap (Event.drawOn? source)).foldl Source.afterDraw
      (v.sources.get source)

namespace World

variable {moments first second : List Moment} {u v w : World}

/-- Where nothing is called or drawn, nothing is to be accounted for. -/
theorem Accounts.of_eq (hledger : w.ledger = v.ledger) (hsources : w.sources = v.sources) :
    Accounts [] v w :=
  ⟨by simp only [hledger, List.flatMap_nil, List.append_nil], fun source => by rw [hsources]; rfl⟩

theorem Accounts.refl (w : World) : Accounts [] w w := .of_eq rfl rfl

theorem Accounts.trans (h : Accounts first u v) (h' : Accounts second v w) :
    Accounts (first ++ second) u w where
  ledger := by rw [h'.ledger, h.ledger, List.flatMap_append, List.append_assoc]
  sources source := by
    rw [h'.sources, h.sources, List.flatMap_append, List.filterMap_append, List.foldl_append]

/-- What is accounted for with nothing may come last. -/
theorem Accounts.silently (h : Accounts first u v) (h' : Accounts [] v w) :
    Accounts first u w := by
  simpa only [List.append_nil] using h.trans h'

/-- What happens aside is accounted for in the same way. -/
theorem Accounts.aside (h : Accounts moments v w) : Accounts (moments.map .aside) v w := by
  have hexpenses : (moments.map .aside).flatMap Moment.expenses =
      moments.flatMap Moment.expenses := by
    rw [List.flatMap_map]
    rfl
  exact ⟨by rw [hexpenses, h.ledger], fun source => by rw [hexpenses, h.sources]⟩

/-- A moment in which nothing is called or drawn may come first. -/
theorem Accounts.cons {moment : Moment} (hmoment : moment.expenses = [])
    (h : Accounts moments v w) : Accounts (moment :: moments) v w :=
  ⟨by rw [List.flatMap_cons, hmoment, List.nil_append, h.ledger], fun source => by
    rw [List.flatMap_cons, hmoment, List.nil_append, h.sources]⟩

theorem ledger_emit (event : Event) (w : World) :
    (w.emit event).ledger = w.ledger ++ [event].filter Event.isExpense := by
  rw [ledger, history_emit, List.reverse_cons, List.filter_append]
  rfl

/-- Other events than calls and draws need not be accounted for. -/
theorem accounts_emit {event : Event} (h : event.isExpense = false) (w : World) :
    Accounts [] w (w.emit event) := by
  refine .of_eq ?_ rfl
  rw [ledger_emit, List.filter_singleton, h]
  exact List.append_nil _

theorem accounts_report (level : Level) (message : String) (w : World) :
    Accounts [] w (w.report level message) :=
  accounts_emit rfl w

theorem accounts_fail (fault : Fault) (w : World) : Accounts [] w (w.fail fault) := by
  unfold fail
  split
  · exact .refl w
  · have hkept : Accounts [] w { w with fault := some fault } := .of_eq rfl rfl
    exact hkept.silently (accounts_emit rfl _)

theorem accounts_advance (clock : ClockId) (step : Duration) (w : World) :
    Accounts [] w (w.advance clock step) := by
  unfold advance
  split
  · exact .of_eq rfl rfl
  · exact accounts_fail _ w

/-- The record of a call accounts for it. -/
theorem accounts_called (seat : Nat) (label : String) (w : World) :
    Accounts [.call seat label] w (w.emit (.called seat label)) :=
  ⟨ledger_emit _ w, fun _ => rfl⟩

/-- The turn of a node that draws nothing may come first. -/
theorem Accounts.turn {node : Node} (hnode : node.draw? = none) (before : World)
    (h : Accounts moments v w) : Accounts (.turn node before :: moments) v w :=
  h.cons (by simp only [Moment.expenses, hnode, Option.map_none, Option.toList_none])

/-- The turn of a node accounts for the draw that the node makes in it. -/
theorem accounts_drawWith {α : Type} {node : Node} {source : SourceId} {draw : Draw}
    (hnode : node.draw? = some (source, draw)) {take : Source → α × Source}
    (htake : ∀ s, (take s).2 = s.afterDraw draw) (before w : World) :
    Accounts [.turn node before] w (w.drawWith draw take source).2 := by
  have hexpenses : [Moment.turn node before].flatMap Moment.expenses =
      [.drawn source draw] := by
    simp only [List.flatMap_cons, List.flatMap_nil, Moment.expenses, hnode, Option.map_some,
      Option.toList_some, List.append_nil]
  constructor
  · rw [hexpenses]
    exact ledger_emit _ _
  · intro other
    rw [hexpenses]
    by_cases hother : other = source
    · subst hother
      simp [drawWith, Event.drawOn?, htake]
    · simp [drawWith, Event.drawOn?, Table.get_set_ne _ _ hother, Ne.symm hother]

/-- The turn of a node accounts for the poll of its timer. -/
theorem accounts_poll {node : Node} {timer : Timer} (hnode : node.draw? = timer.draw?)
    (before w : World) : Accounts [.turn node before] w (w.poll timer).2.2 := by
  unfold poll Timer.poll
  cases harmed : timer.armed with
  | some armed => exact (Accounts.refl w).turn (by simp [hnode, Timer.draw?, harmed]) before
  | none =>
    simp only [sample, Jitter.sample]
    split
    · rename_i hexact
      exact (Accounts.refl w).turn (by simp [hnode, Timer.draw?, hexact]) before
    · rename_i hexact
      exact accounts_drawWith (hnode.trans (by simp [Timer.draw?, harmed, hexact]))
        (fun _ => rfl) before w

end World

/-! ## Callbacks and leaves -/

/-- What happens in the requests of a service accounts for the calls and draws that they make.
Nothing is called or drawn in requests other than ticks, and when a plan is carried out. -/
structure Service.Accounts (s : Service) (asked : Asked) : Prop where
  ask : ∀ operation tree w, World.Accounts (asked operation tree w) w (s.ask operation tree w).2
  calm : ∀ operation tree w, operation ≠ .tick → asked operation tree w = []
  plant : ∀ plan w, World.Accounts [] w (s.plant plan w).2

section

variable {s : Service} {asked : Asked} (hs : s.Accounts asked)
include hs

/-- The trace of effects accounts for what they do. -/
theorem Effect.accounts_performAll (effects : List Effect) (w : World) :
    World.Accounts (traceAll s asked effects w) w (performAll s effects w) := by
  induction effects generalizing w with
  | nil => exact .refl w
  | cons effect rest ih =>
    refine World.Accounts.trans ?_ (ih (effect.perform s w))
    cases effect with
    | advance clock step => exact World.accounts_advance clock step w
    | set clock reading => exact .of_eq rfl rfl
    | ask operation name =>
      simp only [trace, perform, Service.askNamed]
      cases w.named? name with
      | none => exact .refl w
      | some tree =>
        have hasked := (hs.ask operation tree w).aside
        cases operation with
        | tick => exact hasked.silently (World.accounts_emit rfl _)
        | reset => exact hasked
        | start => exact hasked
        | finish => exact hasked
    | log level message => exact World.accounts_emit rfl w
    | fail fault => exact World.accounts_fail fault w

/-- What happens while a callback answers accounts for it. -/
theorem Callback.accounts_consult {α : Type} (c : Callback α) (w : World) :
    World.Accounts (c.asides s asked w) w (c.consult s w).2 := by
  have hcounted : World.Accounts [] w (w.countCall c.seat).2 := .of_eq rfl rfl
  exact hcounted.trans (Effect.accounts_performAll hs _ _)

/-- The trace of a supplier accounts for what it does. -/
theorem Supplier.accounts_get {α : Type} (supplier : Supplier α) (w : World) :
    World.Accounts (supplier.trace s asked w) w (supplier.get s w).2 := by
  cases supplier with
  | constant value => exact .refl w
  | scripted callback =>
    exact (World.accounts_called _ _ w).trans (callback.accounts_consult hs _)

/-- The trace of a wait for an idle streak accounts for its tick. -/
theorem IdleWatch.accounts_tick (watch : IdleWatch) (test : Supplier Bool)
    (bypass : Option (Supplier Bool)) (name : String) (w : World) :
    World.Accounts (watch.trace s asked test bypass w) w
      (watch.tick s test bypass name w).world := by
  have hbypass : World.Accounts (traceBypass s asked bypass w) w (askBypass s bypass w).2 := by
    cases bypass with
    | none => exact .refl w
    | some bypass => exact bypass.accounts_get hs w
  have htest := hbypass.trans (test.accounts_get hs (askBypass s bypass w).2)
  unfold IdleWatch.trace IdleWatch.tick
  by_cases hbypassed : (askBypass s bypass w).1 = true
  · simp only [hbypassed, true_or, if_true]
    exact hbypass
  · simp only [hbypassed, false_or, Bool.false_eq_true, if_false]
    split
    · exact hbypass.silently (World.accounts_report _ _ _)
    · split
      · split <;> exact htest
      · exact htest

/-- The turn of a leaf and its trace account for its tick. -/
theorem Leaf.accounts_tick (part : Leaf) (w : World) :
    World.Accounts (.turn (.leaf part) w :: part.trace s asked w) w (part.tick s w).world := by
  have hquiet : ∀ {moments v}, part.draw? = none → World.Accounts moments w v →
      World.Accounts (.turn (.leaf part) w :: moments) w v :=
    fun hpart h => h.turn (show (Node.leaf part).draw? = none from hpart) w
  cases part with
  | action name body =>
    have hget := hquiet rfl (body.accounts_get hs w)
    simp only [Leaf.tick]
    split
    · rename_i hanswer
      rw [hanswer] at hget
      exact hget.silently (World.accounts_emit rfl _)
    · rename_i hanswer
      rw [hanswer] at hget
      exact hget.silently (World.accounts_report _ _ _)
  | condition name test =>
    have hget := hquiet rfl (test.accounts_get hs w)
    simp only [Leaf.tick]
    split <;> rename_i hanswer <;> rw [hanswer] at hget
    · exact hget
    · exact hget
    · exact hget.silently (World.accounts_report _ _ _)
  | sleep timer =>
    have hpoll : World.Accounts [.turn (.leaf (.sleep timer)) w] w (w.poll timer).2.2 :=
      World.accounts_poll rfl w w
    simp only [Leaf.tick]
    split <;> rename_i hpolled <;> rw [hpolled] at hpoll <;> exact hpoll
  | sleepUntil timer test =>
    have hpoll : World.Accounts [.turn (.leaf (.sleepUntil timer test)) w] w (w.poll timer).2.2 :=
      World.accounts_poll rfl w w
    have htest := hpoll.trans (test.accounts_get hs (w.poll timer).2.2)
    simp only [Leaf.tick]
    split
    · exact htest
    · split
      · exact htest.silently (World.accounts_report _ _ _)
      · exact htest
  | sleepUntilIdle watch test bypass => exact hquiet rfl (watch.accounts_tick hs test bypass _ w)
  | probe name script hooks =>
    have hobserved : World.Accounts [] w (w.emit (.observed script.seat name .tick)) :=
      World.accounts_emit rfl w
    exact hquiet rfl ((hobserved.trans (script.accounts_consult hs _)).silently
      (World.accounts_emit rfl _))
  | countdown name count remaining =>
    cases remaining with
    | zero => exact hquiet rfl (.refl w)
    | succ remaining => exact hquiet rfl (.refl w)

/-! ## References -/

/-- The trace of requests accounts for what they do. -/
theorem Service.accounts_send (requests : List Request) (last : Status) (w : World) :
    World.Accounts (s.traceSend asked requests w) w (s.send requests last w).2 := by
  induction requests generalizing last w with
  | nil => exact .refl w
  | cons request rest ih => exact (hs.ask request.1 request.2 w).trans (ih _ _)

/-- The trace of a supplier accounts for how a reference finds its target. -/
theorem Reference.accounts_resolve (r : Reference) (w : World) :
    World.Accounts (if r.resolves then r.supplier.trace s asked (r.asking w) else []) w
      (r.resolve s w).2 := by
  unfold resolve
  split
  · have hasking : World.Accounts [] w (r.asking w) := by
      unfold asking
      cases r.kind with
      | sticky => exact World.accounts_report _ _ w
      | dynamic => exact .refl w
    have hfind : ∀ supply v, World.Accounts [] v (s.find supply v).2 := by
      intro supply v
      cases supply with
      | none => exact .refl v
      | some supply =>
        cases supply with
        | existing tree => exact .refl v
        | named name => exact .refl v
        | fresh plan => exact hs.plant plan v
    exact (hasking.trans (r.supplier.accounts_get hs (r.asking w))).silently (hfind _ _)
  · exact .refl w

omit hs in
/-- Nothing is to be accounted for when a reference announces a target. -/
theorem Reference.accounts_announce (r : Reference) (found : Option TreeId) (w : World) :
    World.Accounts [] w (r.announce found w) := by
  unfold announce
  split
  · exact World.accounts_report _ _ w
  · exact .refl w
  · split
    · exact World.accounts_report _ _ w
    · exact .refl w

/-- The turn of a reference and its trace account for its tick. -/
theorem Reference.accounts_tick (r : Reference) (w : World) :
    World.Accounts (.turn (.reference r) w :: r.trace s asked w) w (r.tick s w).world := by
  have hfound := (r.accounts_resolve hs w).silently (r.accounts_announce (r.resolve s w).1 _)
  have hsent := Service.accounts_send hs (r.tickRequests (r.resolve s w).1) .failure
    (r.announce (r.resolve s w).1 (r.resolve s w).2)
  exact (hfound.trans hsent).turn rfl w

end

/-! ## Children with records -/

section

variable {κ : Type} (record : κ → List Moment)

/-- A child has an empty record, and after its tick a record that accounts for the tick. -/
structure Offer.Accounts (o : Offer κ) : Prop where
  state : record o.state = []
  tick : ∀ w, World.Accounts (record (o.tick w).state) w (o.tick w).world

/-- Resets keep the records and have nothing to account for. -/
structure ResetAccounts (reset : κ → World → κ × World) : Prop where
  record : ∀ k w, record (reset k w).1 = record k
  world : ∀ k w, World.Accounts [] w (reset k w).2

variable {record} {reset : κ → World → κ × World} {children : List (Offer κ)} {v : World}

/-- Children that had no turn have empty records. -/
theorem flatMap_record_states (h : ∀ o ∈ children, o.Accounts record) :
    (children.map Offer.state).flatMap record = [] := by
  rw [List.flatMap_map, List.flatMap_eq_nil_iff]
  exact fun o ho => (h o ho).state

/-- The records of children account for a pass. -/
theorem Chain.accounts_pass (kind : Chain) (name : String)
    (h : ∀ o ∈ children, o.Accounts record) (position : Nat) (w : World) :
    World.Accounts ((kind.pass name position children w).states.flatMap record) w
      (kind.pass name position children w).world := by
  induction children generalizing position w with
  | nil => exact .refl w
  | cons child rest ih =>
    have hchild := (h child List.mem_cons_self).tick w
    have hrest := fun o ho => h o (List.mem_cons_of_mem _ ho)
    simp only [pass]
    split
    · exact (hchild.silently (World.accounts_report _ _ _)).trans (ih hrest _ _)
    · rw [List.flatMap_cons, flatMap_record_states hrest, List.append_nil]
      exact hchild

/-- The records of children account for ticking all. -/
theorem accounts_tickAll (h : ∀ o ∈ children, o.Accounts record) (w : World) :
    World.Accounts (((tickAll children w).1.map Prod.snd).flatMap record) w
      (tickAll children w).2 := by
  induction children generalizing w with
  | nil => exact .refl w
  | cons child rest ih =>
    have hchild := (h child List.mem_cons_self).tick w
    exact hchild.trans (ih (fun o ho => h o (List.mem_cons_of_mem _ ho)) _)

/-- The records of children account for ticking one. -/
theorem accounts_tickAt (h : ∀ o ∈ children, o.Accounts record) (position : Nat) (w : World) :
    World.Accounts ((tickAt position children w).state.flatMap record) w
      (tickAt position children w).world := by
  induction children generalizing position with
  | nil => cases position <;> exact .refl w
  | cons child rest ih =>
    have hrest := fun o ho => h o (List.mem_cons_of_mem _ ho)
    cases position with
    | zero =>
      simp only [tickAt, Ticked.map, List.flatMap_cons, flatMap_record_states hrest,
        List.append_nil]
      exact (h child List.mem_cons_self).tick w
    | succ position =>
      simp only [tickAt, Ticked.map, List.flatMap_cons, (h child List.mem_cons_self).state,
        List.nil_append]
      exact ih hrest position

/-- Resetting children keeps their records and has nothing to account for. -/
theorem accounts_resetAll (hreset : ResetAccounts record reset) (states : List κ) (w : World) :
    (resetAll reset states w).1.flatMap record = states.flatMap record ∧
      World.Accounts [] w (resetAll reset states w).2 := by
  induction states generalizing w with
  | nil => exact ⟨rfl, .refl w⟩
  | cons first rest ih =>
    rcases ih (reset first w).2 with ⟨hrecords, hworld⟩
    simp only [resetAll, List.flatMap_cons, hreset.record, hrecords]
    exact ⟨trivial, (hreset.world first w).silently hworld⟩

/-! ## Composites -/

/-- Nothing more is to be accounted for when an activation ends. -/
theorem Composite.accounts_settle (hreset : ResetAccounts record reset) (part : Composite)
    (moments : List Moment) {t : Ticked (List κ)}
    (h : World.Accounts (moments ++ t.state.flatMap record) v t.world) :
    World.Accounts (moments ++ (settle reset part t).state.2.flatMap record) v
      (settle reset part t).world := by
  unfold settle
  split
  · rcases accounts_resetAll hreset t.state t.world with ⟨hrecords, hworld⟩
    simp only [hrecords]
    exact h.silently hworld
  · exact h

/-- The turn of a composite and the records of its children account for its tick. -/
theorem Composite.accounts_tick (hreset : ResetAccounts record reset) (part : Composite)
    (h : ∀ o ∈ children, o.Accounts record) {node : Node}
    (hnode : node.draw? = part.draw? children.length) (w : World) :
    World.Accounts (.turn node w :: (part.tick reset children w).state.2.flatMap record) w
      (part.tick reset children w).world := by
  cases part with
  | chain kind name cursor =>
    have hlater : ∀ o ∈ children.drop cursor, o.Accounts record :=
      fun o ho => h o (List.mem_of_mem_drop ho)
    have hpass := kind.accounts_pass name hlater cursor w
    have hbefore : ((children.take cursor).map Offer.state).flatMap record = [] :=
      flatMap_record_states fun o ho => h o (List.mem_of_mem_take ho)
    simp only [tick]
    apply accounts_settle hreset _ [.turn node w]
    rw [List.flatMap_append, hbefore]
    exact hpass.turn hnode w
  | randomSelector source selected =>
    simp only [tick]
    split
    · rename_i hempty
      rw [List.isEmpty_iff.1 hempty] at hnode
      refine (World.Accounts.refl w).turn (hnode.trans ?_) w
      cases selected <;> rfl
    · rename_i hsome
      apply accounts_settle hreset _ [.turn node w]
      refine World.Accounts.trans ?_ (accounts_tickAt h _ _)
      cases selected with
      | some position => exact (World.Accounts.refl w).turn hnode w
      | none =>
        cases children with
        | nil => exact absurd rfl hsome
        | cons child rest => exact World.accounts_drawWith hnode (fun _ => rfl) w w
  | parallel success failure =>
    simp only [tick]
    exact accounts_settle hreset _ [.turn node w] ((accounts_tickAll h w).turn hnode w)

/-! ## Decorators -/

/-- Certain moments and the record of the child account for what a decorator did. -/
def Decorator.Accounts (record : κ → List Moment) (moments : List Moment) (v : World)
    (t : Ticked (Decorator × Option κ)) : Prop :=
  World.Accounts (moments ++ t.state.2.toList.flatMap record) v t.world

section

variable {moments : List Moment} {t : Ticked κ}

/-- A decorator that keeps its child accounts for what the child did. -/
theorem Decorator.accounts_keep (part : Decorator) (status : Status)
    (h : World.Accounts (moments ++ record t.state) v t.world) :
    Accounts record moments v (keep part status t) := by
  rw [← List.append_nil (record t.state)] at h
  exact h

/-- A decorator that resets its child accounts for what the child did. -/
theorem Decorator.accounts_restartChild (hreset : ResetAccounts record reset) (part : Decorator)
    (status : Status) (h : World.Accounts (moments ++ record t.state) v t.world) :
    Accounts record moments v (restartChild reset part status t) := by
  have hrecord := hreset.record t.state t.world
  rw [← hrecord] at h
  exact accounts_keep part status (t := ⟨status, _, _⟩) (h.silently (hreset.world t.state t.world))

/-- A decorator that is reset with its child accounts for what the child did. -/
theorem Decorator.accounts_restart (hreset : ResetAccounts record reset) (part : Decorator)
    (status : Status) (h : World.Accounts (moments ++ record t.state) v t.world) :
    Accounts record moments v (restart reset part status t) :=
  accounts_restartChild hreset part status h

end

section

variable {moments : List Moment} {offer : Offer κ} (hoffer : offer.Accounts record) {w : World}
  (h : World.Accounts moments v w)
include hoffer h

/-- A decorator that leaves its child alone has nothing more to account for. -/
theorem Decorator.accounts_idle (part : Decorator) (status : Status) :
    Accounts record moments v ⟨status, (part, some offer.state), w⟩ := by
  refine accounts_keep part status (t := ⟨status, offer.state, w⟩) ?_
  rw [hoffer.state, List.append_nil]
  exact h

/-- What the child of a repetition does accounts for its tick. -/
theorem Decorator.accounts_tickRepetition (hreset : ResetAccounts record reset)
    (limit count : Int32) :
    Accounts record moments v (tickRepetition reset limit count offer w) := by
  have hticked := h.trans (hoffer.tick w)
  unfold tickRepetition
  simp only []
  split
  · exact accounts_keep _ _ hticked
  · split
    · split
      · exact accounts_restart hreset _ _ hticked
      · exact accounts_restartChild hreset _ _ hticked
    · exact accounts_restart hreset _ _ hticked
    · exact accounts_keep _ _ hticked

/-- What the child of a retry does accounts for its tick. -/
theorem Decorator.accounts_tickRetry (hreset : ResetAccounts record reset) (limit count : Int32) :
    Accounts record moments v (tickRetry reset limit count offer w) := by
  have hticked := h.trans (hoffer.tick w)
  unfold tickRetry
  simp only []
  split
  · exact accounts_restart hreset _ _ hticked
  · split
    · exact accounts_restart hreset _ _ (hticked.silently (World.accounts_report _ _ _))
    · exact accounts_restartChild hreset _ _ hticked
  · exact accounts_keep _ _ hticked

end

variable {s : Service} {asked : Asked} {offer : Offer κ} (hoffer : offer.Accounts record)
include hoffer

/-- The supplier of a cooldown, its turn and what its child does account for its tick. -/
theorem Decorator.accounts_tickCooldown (hs : s.Accounts asked) (name : κ → String)
    (clock : ClockId) (period : Supplier Duration) (last : Option Duration) {node : Node}
    (hnode : node.draw? = none) (w : World) :
    Accounts record (period.trace s asked w ++ [.turn node w]) w
      (tickCooldown s name clock period last offer w) := by
  have hsupplied := (period.accounts_get hs w).trans ((World.Accounts.refl _).turn hnode w)
  unfold tickCooldown
  simp only []
  split
  · exact accounts_idle hoffer (hsupplied.silently (World.accounts_report _ _ _)) _ _
  · exact accounts_keep _ _ (hsupplied.trans (hoffer.tick _))

/-- The supplier of a success rate, its turn and what its child does account for its tick. -/
theorem Decorator.accounts_tickSuccessRate (hs : s.Accounts asked) (name : κ → String)
    (source : SourceId) (percentage : Supplier Float32) {node : Node}
    (hnode : node.draw? = some (source, .unit)) (w : World) :
    Accounts record (percentage.trace s asked w ++ [.turn node w]) w
      (tickSuccessRate s name source percentage offer w) := by
  have hunit : ∀ s : Source, s.unit.2 = s.afterDraw .unit := fun _ => rfl
  have hdrawn := (percentage.accounts_get hs w).trans (World.accounts_drawWith hnode hunit w _)
  unfold tickSuccessRate
  simp only []
  split
  · exact accounts_idle hoffer (hdrawn.silently (World.accounts_report _ _ _)) _ _
  · exact accounts_keep _ _ (hdrawn.trans (hoffer.tick _))

/-- The turn of a wait for success and what its child does account for its tick. -/
theorem Decorator.accounts_tickSleepUntilSuccess (hreset : ResetAccounts record reset)
    (timer : Timer) {node : Node} (hnode : node.draw? = timer.draw?) (w : World) :
    Accounts record [.turn node w] w (tickSleepUntilSuccess reset timer offer w) := by
  have hticked := (World.accounts_poll hnode w w).trans (hoffer.tick (w.poll timer).2.2)
  have hsettled : World.Accounts ([.turn node w] ++
      record (resetFailed reset (offer.tick (w.poll timer).2.2)).state) w
      (resetFailed reset (offer.tick (w.poll timer).2.2)).world := by
    unfold resetFailed
    split
    · simp only [hreset.record]
      exact hticked.silently (hreset.world _ _)
    · exact hticked
  unfold tickSleepUntilSuccess
  simp only []
  split
  · exact accounts_restart hreset _ _ hticked
  · split
    · exact accounts_restart hreset _ _ (hsettled.silently (World.accounts_report _ _ _))
    · exact accounts_keep _ _ hsettled

/-- The preamble of a decorator, its turn and the record of its child account for its tick. -/
theorem Decorator.accounts_tick (hs : s.Accounts asked) (hreset : ResetAccounts record reset)
    (part : Decorator) (name : κ → String) {node : Node} (hnode : node.draw? = part.draw?)
    (w : World) :
    Accounts record (part.preamble s asked w ++ [.turn node w]) w
      (part.tick s reset name (some offer) w) := by
  have hquiet : part.draw? = none → World.Accounts [.turn node w] w w :=
    fun hpart => (World.Accounts.refl w).turn (hnode.trans hpart) w
  cases part with
  | inverter => exact accounts_keep _ _ ((hquiet rfl).trans (hoffer.tick w))
  | repetition limit count =>
    exact accounts_tickRepetition hoffer (hquiet rfl) hreset limit count
  | retry limit count => exact accounts_tickRetry hoffer (hquiet rfl) hreset limit count
  | cooldown clock period last =>
    exact accounts_tickCooldown hoffer hs name clock period last hnode w
  | successRate source percentage =>
    exact accounts_tickSuccessRate hoffer hs name source percentage hnode w
  | sleepUntilSuccess timer => exact accounts_tickSleepUntilSuccess hoffer hreset timer hnode w

end

/-! ## Nodes and requests -/

section

variable {s : Service} {asked : Asked} (hs : s.Accounts asked)
include hs

namespace Node

/-- Nothing is called or drawn in operations other than ticks. -/
theorem accounts_perform {operation : Operation} (h : operation ≠ .tick) (n : Node) (w : World) :
    World.Accounts [] w (n.perform s operation w).2.2 := by
  refine calm_keeps (P := fun u => World.Accounts [] w u) ?_ h n ?_ (.refl w)
  · exact fun seat name u hu => hu.silently (World.accounts_emit rfl u)
  · intro operation hcalm tree _ u hu
    have hasked := hs.ask operation tree u
    rw [hs.calm operation tree u hcalm] at hasked
    exact hu.silently hasked

/-- A reset keeps the record of a child and has nothing to account for. -/
theorem resetAccounts_traced : ResetAccounts Prod.snd (tracedReset s) where
  record _ _ := rfl
  world k w := accounts_perform hs (show Operation.reset ≠ .tick by decide) k.1 w

/-- The trace of a tick accounts for it. -/
theorem accounts_tick (n : Node) (w : World) :
    World.Accounts (n.trace s asked w) w (n.tick s w).world := by
  induction n generalizing w with
  | leaf part =>
    rw [trace]
    exact part.accounts_tick hs w
  | composite part children ih =>
    have hoffers : ∀ o ∈ tracedOffers s asked children, o.Accounts Prod.snd := by
      intro o ho
      rw [tracedOffers_eq] at ho
      rcases List.mem_map.1 ho with ⟨child, hchild, rfl⟩
      exact ⟨rfl, ih child hchild⟩
    have hcount : (tracedOffers s asked children).length = children.length := by
      rw [tracedOffers_eq, List.length_map]
    rw [trace, ← tick_traced asked]
    refine part.accounts_tick (resetAccounts_traced hs) hoffers ?_ w
    rw [hcount, draw?]
  | decorator part child ih =>
    cases child with
    | none =>
      rw [trace]
      exact (World.Accounts.refl w).turn rfl w
    | some inner =>
      have hoffer : (tracedOffer s inner (inner.trace s asked)).Accounts Prod.snd :=
        ⟨rfl, ih inner rfl⟩
      have hdraw : (decorator part (some inner)).draw? = part.draw? := rfl
      rw [trace, ← tick_traced_child asked]
      have haccounts := Decorator.accounts_tick hoffer hs (resetAccounts_traced hs) part
        (fun k => k.1.name) hdraw w
      unfold Decorator.Accounts at haccounts
      rw [List.append_assoc] at haccounts
      exact haccounts
  | reference part =>
    rw [trace]
    exact part.accounts_tick hs w
  | embedded tag root ih =>
    rw [trace]
    exact ih w

end Node

end

/-- Nothing is called or drawn when a plan is carried out. -/
theorem accounts_plantFrom (plans : Array TreePlan) (plan : PlanId) (w : World) :
    World.Accounts [] w (plantFrom plans plan w).2 := by
  have hplanting : World.Planting fun u => World.Accounts [] w u :=
    { report := fun level message hu => hu.silently (World.accounts_report level message _)
      configured := fun spread now hu => hu.silently (World.accounts_emit rfl _)
      fail := fun fault hu => hu.silently (World.accounts_fail fault _)
      issue := fun count hu => hu.silently (.of_eq rfl rfl)
      letLoose := fun nodes hu => hu.silently (.of_eq rfl rfl)
      addTree := fun root hu => hu.silently (.of_eq rfl rfl) }
  exact hplanting.keeps plans plan (.refl w)

/-- The traces of requests account for them. -/
theorem serve_accounts (plans : Array TreePlan) (depth : Nat) :
    (serve (plantFrom plans) depth).Accounts (serveTrace (plantFrom plans) depth) := by
  have hplant := accounts_plantFrom plans
  induction depth with
  | zero =>
    exact ⟨fun operation tree w => World.accounts_report _ _ w, fun _ _ _ _ => rfl, hplant⟩
  | succ depth ih =>
    refine ⟨fun operation tree w => ?_, fun operation tree w hcalm => ?_, hplant⟩
    · rw [serve_ask]
      rcases hfound : w.trees.get tree with _ | ⟨root, inUse⟩
      · rw [World.withTree_of_none hfound]
        cases operation <;> simp only [serveTrace, hfound] <;> exact .refl w
      · cases inUse with
        | true =>
          rw [World.withTree_of_inUse (by simp [World.isInUse, hfound])]
          cases operation <;> simp only [serveTrace, hfound] <;> exact World.accounts_report _ _ w
        | false =>
          have hheld : World.Accounts [] w (w.holdTree tree root) := .of_eq rfl rfl
          rw [World.withTree_of_free hfound]
          by_cases hcalm : operation = .tick
          · subst hcalm
            have hticked := hheld.trans (root.accounts_tick ih (w.holdTree tree root))
            simp only [serveTrace, hfound]
            exact .cons rfl (hticked.silently (.of_eq rfl rfl))
          · have hperformed :=
              hheld.silently (root.accounts_perform ih hcalm (w.holdTree tree root))
            cases operation with
            | tick => exact absurd rfl hcalm
            | reset => exact hperformed.silently (.of_eq rfl rfl)
            | start => exact hperformed.silently (.of_eq rfl rfl)
            | finish => exact hperformed.silently (.of_eq rfl rfl)
    · cases operation with
      | tick => exact absurd rfl hcalm
      | reset => rfl
      | start => rfl
      | finish => rfl

end TickTree
