import TickTree.Node.Decorator
import TickTree.Node.Offer

/-!
# Ticks of decorators

How decorators tick, for a child of any kind.

Main results:

- Theorem `Decorator.tick_none`: a decorator without a child fails and does nothing else.
-/

namespace TickTree

variable {κ : Type}

/-- Resets the child and the decorator. -/
def Decorator.restart (reset : κ → World → κ × World) (part : Decorator) (status : Status)
    (t : Ticked κ) : Ticked (Decorator × Option κ) :=
  let rest := reset t.state t.world
  ⟨status, (part.reset, some rest.1), rest.2⟩

/-- Resets the child only. -/
def Decorator.restartChild (reset : κ → World → κ × World) (part : Decorator) (status : Status)
    (t : Ticked κ) : Ticked (Decorator × Option κ) :=
  let rest := reset t.state t.world
  ⟨status, (part, some rest.1), rest.2⟩

/-- Keeps the child as it is. -/
def Decorator.keep (part : Decorator) (status : Status) (t : Ticked κ) :
    Ticked (Decorator × Option κ) :=
  ⟨status, (part, some t.state), t.world⟩

/-- One tick of a repetition. -/
def Decorator.tickRepetition (reset : κ → World → κ × World) (limit count : Int32)
    (child : Offer κ) (w : World) : Ticked (Decorator × Option κ) :=
  let t := child.tick w
  if limit < 0 then
    let status := if t.status = .sleeping then Status.sleeping else .running
    keep (.repetition limit count) status t
  else
    match t.status with
    | .success =>
      let count := count + 1
      if limit ≤ count then restart reset (.repetition limit count) .success t
      else restartChild reset (.repetition limit count) .running t
    | .failure => restart reset (.repetition limit count) .failure t
    | pending => keep (.repetition limit count) pending t

/-- One tick of a retry. -/
def Decorator.tickRetry (reset : κ → World → κ × World) (limit count : Int32)
    (child : Offer κ) (w : World) : Ticked (Decorator × Option κ) :=
  let t := child.tick w
  match t.status with
  | .success => restart reset (.retry limit count) .success t
  | .failure =>
    let count := count + 1
    if 0 < limit ∧ limit ≤ count then
      let attempts := count.toInt
      let w := t.world.report .debug s!"Retry gave up after {attempts} attempts"
      restart reset (.retry limit count) .failure { t with world := w }
    else
      restartChild reset (.retry limit count) .running t
  | pending => keep (.retry limit count) pending t

/-- What is left of a cooldown at a clock reading, if the child is still kept from running. -/
def cooldownLeft (last : Option Duration) (period now : Duration) : Option Duration :=
  match last with
  | none => none
  | some last => if now - last < period then some (period - (now - last)) else none

/-- One tick of a cooldown.  The supplier is asked first, and the clock is read after it; a
completion is stamped with the reading after the child's tick. -/
def Decorator.tickCooldown (s : Service) (name : κ → String) (clock : ClockId)
    (period : Supplier Duration) (last : Option Duration) (child : Offer κ) (w : World) :
    Ticked (Decorator × Option κ) :=
  let supplied := period.get s w
  match cooldownLeft last supplied.1 (supplied.2.now clock) with
  | some left =>
    let blocked := name child.state
    let millis := left.millis
    let w := supplied.2.report .debug s!"Cooldown blocked {blocked}, {millis}ms left"
    ⟨.failure, (.cooldown clock period last, some child.state), w⟩
  | none =>
    let t := child.tick supplied.2
    let last := if t.status.isCompleted then some (t.world.now clock) else last
    keep (.cooldown clock period last) t.status t

/-- One tick of a success rate.  A fraction is drawn on every tick. -/
def Decorator.tickSuccessRate (s : Service) (name : κ → String) (source : SourceId)
    (percentage : Supplier Float32) (child : Offer κ) (w : World) : Ticked (Decorator × Option κ) :=
  let supplied := percentage.get s w
  let drawn := supplied.2.unit source
  if chance supplied.1 ≤ Source.unitValue drawn.1 then
    let skipped := name child.state
    let w := drawn.2.report .debug s!"SuccessRate skipped {skipped}"
    ⟨.failure, (.successRate source percentage, some child.state), w⟩
  else
    let t := child.tick drawn.2
    keep (.successRate source percentage) t.status t

/-- Resets a child that failed. -/
def Decorator.resetFailed (reset : κ → World → κ × World) (t : Ticked κ) : Ticked κ :=
  if t.status = .failure then
    let rest := reset t.state t.world
    ⟨t.status, rest.1, rest.2⟩
  else
    t

/-- One tick of a wait for success.  The timer is polled before the child is ticked; a success
counts even when the wait has passed. -/
def Decorator.tickSleepUntilSuccess (reset : κ → World → κ × World) (timer : Timer)
    (child : Offer κ) (w : World) : Ticked (Decorator × Option κ) :=
  let polled := w.poll timer
  let part := Decorator.sleepUntilSuccess polled.2.1
  let t := child.tick polled.2.2
  if t.status = .success then
    restart reset part .success t
  else
    let t := resetFailed reset t
    if polled.1 then
      let w := t.world.report .debug s!"{part.name} timed out"
      restart reset part .failure { t with world := w }
    else
      keep part (if t.status = .running then .running else .sleeping) t

/-- One tick of a decorator.  A decorator without a child fails and does nothing else. -/
def Decorator.tick (s : Service) (reset : κ → World → κ × World) (name : κ → String)
    (part : Decorator) (child : Option (Offer κ)) (w : World) : Ticked (Decorator × Option κ) :=
  match child with
  | none => ⟨.failure, (part, none), w⟩
  | some child =>
    match part with
    | .inverter =>
      let t := child.tick w
      keep .inverter t.status.invert t
    | .repetition limit count => tickRepetition reset limit count child w
    | .retry limit count => tickRetry reset limit count child w
    | .cooldown clock period last => tickCooldown s name clock period last child w
    | .successRate source percentage => tickSuccessRate s name source percentage child w
    | .sleepUntilSuccess timer => tickSleepUntilSuccess reset timer child w

/-- A decorator without a child fails and does nothing else. -/
theorem Decorator.tick_none (s : Service) (reset : κ → World → κ × World) (name : κ → String)
    (part : Decorator) (w : World) :
    part.tick s reset name none w = ⟨.failure, (part, none), w⟩ := rfl

end TickTree
