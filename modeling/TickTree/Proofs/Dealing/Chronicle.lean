import TickTree.Proofs.Cooldown.Clock
import TickTree.Proofs.Dealing.Episode

/-!
# Chronicles

A node that waits measures from the first tick of its activation, or from some tick after that.  A
chronicle is a run in which a clock does not go back, with the worlds in which its operations begin:
all that such a node can have measured from is the readings in these worlds.

Main results:

- Theorem `Occasion.waits_concat`: how an operation goes on with an activation.
- Theorem `Conduct.Chronicle.before_of_mem_waits`: no tick of the activation lies in the future.
- Theorem `Decorator.forward_conduct`: a decorator moves no clock back when its child does not.
-/

namespace TickTree

/-- An episode, and the world in which it begins. -/
structure Occasion where
  episode : Episode
  found : World

namespace Occasion

/-- The world in which a tick begins. -/
def waited (o : Occasion) : List World := if o.episode.operation = .tick then [o.found] else []

/-- The worlds in which the ticks of the current activation have begun, after some occasions. -/
def waits (history : List Occasion) : List World :=
  history.foldl (fun earlier o => if o.episode.ends then [] else earlier ++ o.waited) []

/-- An operation ends the activation or goes on with it. -/
theorem waits_concat (history : List Occasion) (o : Occasion) :
    waits (history ++ [o]) = if o.episode.ends then [] else waits history ++ o.waited := by
  unfold waits
  rw [List.foldl_append]
  rfl

/-- A tick that does not end the activation adds to it. -/
theorem waits_tick (history : List Occasion) {o : Occasion} (h : o.episode.operation = .tick) :
    waits (history ++ [o]) = if o.episode.ends then [] else waits history ++ [o.found] := by
  rw [waits_concat, waited, if_pos h]

/-- Starting and finishing add nothing to an activation. -/
theorem waits_idle (history : List Occasion) {operation : Operation} (htick : operation ≠ .tick)
    (hreset : operation ≠ .reset) (answer : Answer) (dealings : List Dealing) (w : World) :
    waits (history ++ [⟨⟨operation, answer, dealings⟩, w⟩]) = waits history := by
  have hends : Episode.ends ⟨operation, answer, dealings⟩ = false := by
    cases operation with
    | tick => exact absurd rfl htick
    | reset => exact absurd rfl hreset
    | start => rfl
    | finish => rfl
  rw [waits_concat, hends, waited, if_neg htick]
  exact List.append_nil _

/-- What the episodes of a history consist of, and then that of one more. -/
theorem flatMap_episodes_concat {α : Type} (parts : Episode → List α) (history : List Occasion)
    (o : Occasion) :
    ((history ++ [o]).map episode).flatMap parts =
      (history.map episode).flatMap parts ++ parts o.episode := by
  rw [List.map_append, List.flatMap_append, List.map_singleton, List.flatMap_singleton]

end Occasion

/-! ## Conducts in time -/

/-- Operations are carried out one after the other, each in a world in which a clock reads no less
than in the one that the operation before it has left: with these occasions they lead to a state and
a world. -/
inductive Conduct.Chronicle {σ : Type} (c : Conduct σ) (clock : ClockId) (x : σ) :
    List Occasion → σ → World → Prop
  | begins (v : World) : c.Chronicle clock x [] x v
  | next {history : List Occasion} {y : σ} {v : World} (h : c.Chronicle clock x history y v)
      (operation : Operation) {w : World} (hw : v.Before clock w) :
      c.Chronicle clock x (history ++ [⟨(c operation y w).1, w⟩]) (c operation y w).2.1
        (c operation y w).2.2

/-- No operation moves a clock back. -/
def Conduct.Forward {σ : Type} (clock : ClockId) (c : Conduct σ) : Prop :=
  ∀ (operation : Operation) (y : σ) (w : World), w.Before clock (c operation y w).2.2

/-- No tick of the current activation lies in the future. -/
theorem Conduct.Chronicle.before_of_mem_waits {σ : Type} {c : Conduct σ} {clock : ClockId}
    (hc : c.Forward clock) {x y : σ} {history : List Occasion} {v : World}
    (h : c.Chronicle clock x history y v) : ∀ u ∈ Occasion.waits history, u.Before clock v := by
  induction h with
  | begins v => exact fun u hu => absurd hu List.not_mem_nil
  | @next history y v _ operation w hw ih =>
    intro u hu
    rw [Occasion.waits_concat] at hu
    split at hu
    · exact absurd hu List.not_mem_nil
    · refine World.Before.trans ?_ (hc operation y w)
      rcases List.mem_append.1 hu with hearlier | hlatest
      · exact (ih u hearlier).trans hw
      · unfold Occasion.waited at hlatest
        split at hlatest
        · rw [List.mem_singleton.1 hlatest]
          exact .refl clock w
        · exact absurd hlatest List.not_mem_nil

/-- Neither ticking nor resetting a unit moves a clock back. -/
structure Units.Forward {κ : Type} (clock : ClockId) (u : Units κ) : Prop where
  tick : ∀ (k : κ) (w : World), w.Before clock (u.tick k w).world
  reset : ∀ (k : κ) (w : World), w.Before clock (u.reset k w).2

section

variable {clock : ClockId} {s : Service} (hs : s.Forward clock)

include hs in
/-- Nodes move no clock back. -/
theorem Units.forward_nodes : (Units.nodes s).Forward clock :=
  ⟨Node.before_perform hs .tick, Node.before_perform hs .reset⟩

include hs in
/-- A decorator moves no clock back when its child does not. -/
theorem Decorator.forward_conduct {κ : Type} {u : Units κ} (hu : u.Forward clock)
    (name : κ → String) : (conduct s u name).Forward clock := by
  rintro operation ⟨part, child⟩ w
  cases operation with
  | tick =>
    cases child with
    | none => exact .refl clock w
    | some k =>
      exact (handles_tick (World.passage_before clock) hu.reset (hu.tick k)
        (fun supplier => supplier.before_get hs) name part w).world
  | reset => exact passage_resetAll (World.passage_before clock) hu.reset child.toList w
  | start => exact .refl clock w
  | finish => exact .refl clock w

end

end TickTree
