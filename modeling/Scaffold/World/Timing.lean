import Scaffold.Number.Binary64
import Scaffold.Number.Shortest
import Scaffold.World.Basic

/-!
# Timing

The parts of a run are timed.  The clock of a world stands still while an action runs, so an action
takes no time; its record is written also when it fails.
-/

namespace Scaffold.Timing

/-- The time that an action takes. -/
def still : Binary64 := .ofInt 0

/-- A duration in a message. -/
def seconds (x : Binary64) : Text := x.fixed 4

/-- A timer in a message. -/
def shown (label : Text) : Text := "<Timer " ++ label ++ ": " ++ seconds still ++ "s>"

/-- The record of a timed action. -/
def record (label : Text) : Log.Record :=
  ⟨.debug, .files, "Timer [" ++ label ++ "]: " ++ seconds still ++ " seconds"⟩

/-- Times an action. -/
def timed {α : Type} (label : Text) (a : Act α) : Act α := do
  let r ← Act.attempt a
  Act.say [record label]
  Act.ofExcept r

end Scaffold.Timing
