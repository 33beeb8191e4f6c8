import Shorthand.Abbreviation.Options
import Shorthand.Abbreviation.Reader
import Shorthand.Patch.Follow
/-!
# Trackers

A tracker follows one abbreviation of a document: the stretch it is on, what it was read as last, and whether its
preview shows.  A tracker started by typing ends by itself when the text is no abbreviation any more; a forced one ends
only on request.
-/
namespace Shorthand

open Abbreviation (Node Options ReadError)

/-- A way to read abbreviations. -/
abbrev Reader := Text → Except ReadError (List Node)

/-- What a tracked text was read as. -/
inductive Reading where
  | empty
  | valid (text : Text) (nodes : List Node)
  | invalid (text : Text) (error : ReadError)
  deriving Repr

namespace Reading

/-- What `read` makes of `t`. -/
def of (read : Reader) : Text → Reading
  | [] => .empty
  | c :: t =>
    match read (c :: t) with
    | .ok nodes => .valid (c :: t) nodes
    | .error error => .invalid (c :: t) error

def text : Reading → Text
  | .empty => []
  | .valid text _ => text
  | .invalid text _ => text

def isEmpty : Reading → Bool
  | .empty => true
  | _ => false

def isValid : Reading → Bool
  | .valid .. => true
  | _ => false

/-- The nodes that the text denotes. -/
def nodes? : Reading → Option (List Node)
  | .valid _ nodes => some nodes
  | _ => none

theorem of_cons (read : Reader) (c : Char) (t : Text) : of read (c :: t) = match read (c :: t) with
    | .ok nodes => .valid (c :: t) nodes
    | .error error => .invalid (c :: t) error := rfl

/-- What was read is kept with what it was read as. -/
theorem text_of (read : Reader) : ∀ t : Text, (of read t).text = t
  | [] => rfl
  | c :: t => by
    rw [of_cons]
    cases read (c :: t) <;> rfl

end Reading

/-- One abbreviation under observation. -/
structure Tracker where
  /-- The stretch tracked, the marker that leads the abbreviation in included. -/
  region : Span
  reading : Reading := .empty
  forced : Bool := false
  /-- The length of the marker at the start of the region. -/
  offset : Nat := 0
  options : Options := {}
  previewVisible : Bool := false
  deriving Repr

namespace Tracker

/-- The stretch of the abbreviation proper, without the marker. -/
def abbreviationSpan (t : Tracker) : Span := .between (min (t.region.start + t.offset) t.region.stop) t.region.stop

def follow (t : Tracker) (p : Patch) : Tracker := { t with region := p.mapSpan t.region }

/-- The tracker after reading its stretch of `text` again. -/
def reread (read : Reader) (t : Tracker) (text : Text) : Tracker :=
  { t with reading := .of read ((t.abbreviationSpan.clamp text.length).textIn text) }

/-- The tracker with its preview shown or hidden. -/
def preview (t : Tracker) (visible : Bool) : Tracker := { t with previewVisible := visible }

end Tracker
end Shorthand
