/-!
# Configurations

Nodes that measure time or draw random numbers name the clock and the source they use.  Nodes with
the same configuration share them.
-/

namespace TickTree

/-- The number of a clock in a world. -/
abbrev ClockId := Nat

/-- The number of a random source in a world. -/
abbrev SourceId := Nat

/-- The relative spread of waits when a configuration sets none. -/
def defaultSpread : Float := 0.33

/-- The clock, the random source and the spread of waits that a node uses. -/
structure Config where
  clock : ClockId
  source : SourceId
  spread : Float

/-- The configuration of a builder that was given none: the first clock, the first source and the
default spread. -/
def Config.standard : Config := ⟨0, 0, defaultSpread⟩

/-- A spread must be finite and not negative. -/
def validSpread (spread : Float) : Bool := spread.isFinite && !decide (spread < 0.0)

end TickTree
