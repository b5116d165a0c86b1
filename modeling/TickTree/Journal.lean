import TickTree.Describe

/-!
# Journals

The history of a world as lines of text.  Draws, answers and the mark of a fault leave no line.

Main results:

- Definition `Event.line?`: the line of an event.
- Definition `World.journal`: the lines of a history.
-/

namespace TickTree

/-- A clock reading in seconds with nine places. -/
def Duration.inSeconds (d : Duration) : String :=
  Nat.repr d.secs ++ "." ++ String.ofList (padded 9 d.subsecNanos)

/-- The line of an event. -/
def Event.line? : Event → Option String
  | .logged level message => some ("log " ++ level.text ++ " " ++ message)
  | .called _ label => some ("call " ++ label)
  | .observed _ name operation => some (name ++ ":" ++ operation.text)
  | .nested tree status => some ("inner tick " ++ tree ++ " " ++ status.text)
  | .configured spread now =>
    some ("config spread=" ++ Layout.plain.render spread ++ " now=" ++ now.inSeconds)
  | .answered _ _ => none
  | .drawn _ _ => none
  | .broken _ => none

/-- The lines of the events that count. -/
def World.journal (w : World) : List String := w.events.filterMap Event.line?

end TickTree
