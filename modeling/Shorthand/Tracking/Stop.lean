import Shorthand.Text.Character
import Shorthand.Tracking.Tracker
/-!
# Where tracking stops

A tracker that was started by typing ends when nothing is left to read, when the abbreviation has a line break, and when
the char just typed has made it invalid: a char at its end, or right before the closers at its end, which an editor puts
there by itself.  A char typed elsewhere may leave it invalid for the time being.
-/
namespace Shorthand

open Text (isLineBreak trailingClosers)

/-- Why tracking stops. -/
inductive StopReason where
  | empty
  | lineBreak
  | invalidEnd
  | invalidBeforeClosers
  deriving DecidableEq, Repr

/-- Why a tracker is to end with the caret at `pos`, if it is. -/
def Tracker.stopReason? (t : Tracker) (pos : Nat) : Option StopReason :=
  if t.forced then none
  else
    match t.reading with
    | .empty => some .empty
    | .valid text _ => if text.any isLineBreak then some .lineBreak else none
    | .invalid text _ =>
      if text.any isLineBreak then some .lineBreak
      else if t.region.stop = pos then some .invalidEnd
      else if t.region.stop - trailingClosers text = pos then some .invalidBeforeClosers
      else none

end Shorthand
