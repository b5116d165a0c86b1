import TickTree.Clock
import TickTree.Decimal.Layout
import TickTree.Directory
import TickTree.Fault
import TickTree.Node
import TickTree.Random.Source
import TickTree.Table

/-!
# Worlds

A world holds what nodes use but do not own: clocks, random sources, the number of calls that each
callback has had, and the shared trees with their names.  It also keeps the history of what
happened.

A fault does not stop the world.  The first one is kept and marked in the history, and nothing after
the mark counts.

Main results:

- Theorems `World.history_emit`, `World.clocks_emit` and others: one line per operation and field.
- Theorems `World.now_le_now_advance` and `World.now_le_now_setClock`: no clock goes back.
-/

namespace TickTree

/-! ## What a world consists of -/

/-- A tree that several references can share. -/
structure Tree where
  root : Node
  /-- The tree is being worked on further up the stack of calls. -/
  inUse : Bool

/-- A way of drawing from a random source. -/
inductive Draw where
  | unit
  | index (bound : Nat)
  | gaussian
  deriving DecidableEq

/-- Something that happened in a world. -/
inductive Event where
  /-- A log record was written. -/
  | logged (level : Level) (message : String)
  /-- A callback was called. -/
  | called (seat : Nat) (label : String)
  /-- A leaf whose status the host decides has given it; a fixed status has no seat. -/
  | answered (seat : Option Nat) (status : Status)
  /-- An operation is carried out on a probe. -/
  | observed (seat : Nat) (name : String) (operation : Operation)
  /-- A tick that a callback asked for under a name has given a status. -/
  | nested (tree : String) (status : Status)
  /-- A configuration was looked at. -/
  | configured (spread : Float) (now : Duration)
  /-- A number was drawn. -/
  | drawn (source : SourceId) (draw : Draw)
  /-- The first fault arose. -/
  | broken (fault : Fault)

/-- A log record of the level of warnings. -/
def Event.isWarning : Event → Bool
  | logged .warn _ => true
  | _ => false

/-- The mark of a fault. -/
def Event.isFault : Event → Bool
  | broken _ => true
  | _ => false

/-- Everything outside the nodes at work. -/
structure World where
  clocks : Table Clock
  sources : Table Source
  calls : Table Nat
  trees : Table (Option Tree)
  /-- A number that was never given out has no tree. -/
  trees_blank : trees.blank = none
  /-- The names of shared trees. -/
  directory : Directory
  /-- Nodes that belong to no shared tree. -/
  loose : List Node
  /-- The next number for a seat or a tag. -/
  issued : Nat
  /-- The latest event first. -/
  history : List Event
  /-- The first fault. -/
  fault : Option Fault

/-- A world with the given clocks and sources before anything happened. -/
def World.start (clocks : Table Clock) (sources : Table Source) : World :=
  { clocks := clocks
    sources := sources
    calls := Table.empty 0
    trees := Table.empty none
    trees_blank := rfl
    directory := Directory.empty
    loose := []
    issued := 0
    history := []
    fault := none }

namespace World

/-! ## History -/

/-- Adds an event to the history. -/
def emit (event : Event) (w : World) : World := { w with history := event :: w.history }

/-- Writes a log record of the library, which is marked as such. -/
def report (level : Level) (message : String) (w : World) : World :=
  w.emit (.logged level ("[reactive_bt]: " ++ message))

/-- Keeps a fault and marks it in the history, unless there was one before. -/
def fail (fault : Fault) (w : World) : World :=
  match w.fault with
  | some _ => w
  | none => { w with fault := some fault }.emit (.broken fault)

/-- The events that count, the earliest first: those before the first fault. -/
def events (w : World) : List Event := w.history.reverse.takeWhile fun event => !event.isFault

/-- Begins a new history. -/
def clearHistory (w : World) : World := { w with history := [] }

/-! ## Clocks -/

/-- The reading of a clock. -/
def now (clock : ClockId) (w : World) : Duration := (w.clocks.get clock).now

/-- Moves a clock forward by a step; a step past the longest duration is a fault and leaves the
clock as it is. -/
def advance (clock : ClockId) (step : Duration) (w : World) : World :=
  match (w.clocks.get clock).advance? step with
  | some moved => { w with clocks := w.clocks.set clock moved }
  | none => w.fail .clockOverflow

/-- Moves a clock to a later reading. -/
def setClock (clock : ClockId) (reading : Duration) (w : World) : World :=
  { w with clocks := w.clocks.set clock ((w.clocks.get clock).set reading) }

/-! ## Random draws -/

/-- Draws from a source and records the draw. -/
def drawWith {α : Type} (draw : Draw) (take : Source → α × Source) (source : SourceId) (w : World) :
    α × World :=
  let taken := take (w.sources.get source)
  (taken.1, { w with sources := w.sources.set source taken.2 }.emit (.drawn source draw))

/-- Draws a fraction of the unit interval, in units of 2^-53. -/
def unit (source : SourceId) (w : World) : Nat × World := w.drawWith .unit Source.unit source

/-- Draws an index below a bound. -/
def index (bound : Nat) (source : SourceId) (w : World) : Nat × World :=
  w.drawWith (.index bound) (Source.index bound) source

/-- Draws a normally distributed number. -/
def gaussian (source : SourceId) (w : World) : Float × World :=
  w.drawWith .gaussian Source.gaussian source

/-- Draws the target of a wait. -/
def sample (source : SourceId) (jitter : Jitter) (w : World) : Duration × World :=
  jitter.sample (World.gaussian source) w

/-- Polls a timer at the reading of its clock. -/
def poll (timer : Timer) (w : World) : Bool × Timer × World :=
  timer.poll (w.now timer.clock) (World.sample timer.source) w

/-! ## Callbacks and numbers -/

/-- Counts a call at a seat; the answer is the number of calls before it. -/
def countCall (seat : Nat) (w : World) : Nat × World :=
  (w.calls.get seat, { w with calls := w.calls.set seat (w.calls.get seat + 1) })

/-- Hands out so many numbers; the answer is the first of them. -/
def issue (count : Nat) (w : World) : Nat × World :=
  (w.issued, { w with issued := w.issued + count })

/-! ## Shared trees -/

/-- Puts a root into a shared tree. -/
def putTree (tree : TreeId) (root : Node) (w : World) : World :=
  { w with
    trees := w.trees.set tree (some ⟨root, false⟩)
    trees_blank := by simp [w.trees_blank] }

/-- Takes a shared tree into use. -/
def holdTree (tree : TreeId) (root : Node) (w : World) : World :=
  { w with
    trees := w.trees.set tree (some ⟨root, true⟩)
    trees_blank := by simp [w.trees_blank] }

/-- A new shared tree, with its number. -/
def addTree (root : Node) (w : World) : TreeId × World :=
  (w.trees.size, w.putTree w.trees.size root)

/-- Gives a name to a shared tree. -/
def nameTree (name : String) (tree : TreeId) (w : World) : World :=
  { w with directory := w.directory.bind name tree }

/-- The shared tree of a name. -/
def named? (name : String) (w : World) : Option TreeId := w.directory.find? name

/-- The name of a shared tree. -/
def nameOf? (tree : TreeId) (w : World) : Option String := w.directory.nameOf? tree

/-! ## One line per operation and field -/

@[simp] theorem history_emit (e : Event) (w : World) : (w.emit e).history = e :: w.history := rfl

@[simp] theorem clocks_emit (e : Event) (w : World) : (w.emit e).clocks = w.clocks := rfl

@[simp] theorem sources_emit (e : Event) (w : World) : (w.emit e).sources = w.sources := rfl

@[simp] theorem calls_emit (e : Event) (w : World) : (w.emit e).calls = w.calls := rfl

@[simp] theorem trees_emit (e : Event) (w : World) : (w.emit e).trees = w.trees := rfl

@[simp] theorem directory_emit (e : Event) (w : World) :
    (w.emit e).directory = w.directory := rfl

@[simp] theorem trees_nameTree (name : String) (tree : TreeId) (w : World) :
    (w.nameTree name tree).trees = w.trees := rfl

@[simp] theorem clocks_fail (f : Fault) (w : World) : (w.fail f).clocks = w.clocks := by
  unfold fail; split <;> rfl

@[simp] theorem trees_fail (f : Fault) (w : World) : (w.fail f).trees = w.trees := by
  unfold fail; split <;> rfl

@[simp] theorem trees_advance (clock : ClockId) (step : Duration) (w : World) :
    (w.advance clock step).trees = w.trees := by
  unfold advance; split
  · rfl
  · exact trees_fail _ _

/-- No step moves a clock back. -/
theorem now_le_now_advance (clock c : ClockId) (step : Duration) (w : World) :
    w.now c ≤ (w.advance clock step).now c := by
  unfold advance
  split
  next moved h =>
    simp only [now, Table.get_set]
    split
    next hc =>
      subst hc
      exact Clock.le_of_advance? h
    next => exact Nat.le_refl _
  next =>
    simp only [now, clocks_fail]
    exact Nat.le_refl _

/-- No jump moves a clock back. -/
theorem now_le_now_setClock (clock c : ClockId) (reading : Duration) (w : World) :
    w.now c ≤ (w.setClock clock reading).now c := by
  simp only [now, setClock, Table.get_set]
  split
  next hc =>
    subst hc
    exact Clock.le_set _ _
  next => exact Nat.le_refl _

end World

end TickTree
