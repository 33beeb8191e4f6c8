import Shorthand.Document.Basic
import Shorthand.Tracking.Tracker
/-!
# The trackers of all documents

A document has at most one tracker; starting another replaces it.
-/
namespace Shorthand

/-- The tracker of each document that has one. -/
abbrev Registry := Keyed DocId Tracker

namespace Registry

/-- The preview of a document's tracker shows as long as the caret is in the region and there is something to read. -/
def caretMoved (r : Registry) (id : DocId) (caret : Nat) : Registry :=
  match r.get? id with
  | none => r
  | some t => r.insert id (t.preview (t.region.contains caret && !t.reading.isEmpty))

/-- A document's tracker follows a patch and reads the text after it, unless it was started by typing and nothing is
left of its region: then it ends. -/
def edited (read : Reader) (r : Registry) (id : DocId) (p : Patch) (text : Text) : Registry :=
  match r.get? id with
  | none => r
  | some t =>
    let t := t.follow p
    if t.region.isEmpty && !t.forced then r.erase id else r.insert id (t.reread read text)

/-- A document's tracker moves to `region`, as far as it lies in the text, and reads it. -/
def moved (read : Reader) (r : Registry) (id : DocId) (region : Span) (text : Text) : Registry :=
  match r.get? id with
  | none => r
  | some t => r.insert id ({ t with region := region.clamp text.length }.reread read text)

end Registry
end Shorthand
