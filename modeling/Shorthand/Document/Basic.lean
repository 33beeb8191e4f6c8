import Shorthand.Keyed
import Shorthand.Patch.Follow
/-!
# Documents

A document is a text under edit: its selection, named markers on stretches of the text, the snapshots that undoing goes
back to, and the patches made on somebody else's behalf that have not been reported yet.

Every edit goes through `Document.edit?`, which takes a snapshot, makes the replacements and moves the selection and
the markers along; `Document.undo?` goes back to the last snapshot, markers included.
-/
namespace Shorthand

abbrev DocId := Nat

/-- The selected stretch, from where it was begun to where the caret is. -/
structure Selection where
  anchor : Nat
  head : Nat
  deriving DecidableEq, Repr

namespace Selection

/-- The caret at `pos`, with nothing selected. -/
def point (pos : Nat) : Selection := ⟨pos, pos⟩

def span (s : Selection) : Span := .between s.anchor s.head

def isEmpty (s : Selection) : Bool := s.anchor = s.head

/-- Where the selection is after a patch: behind whatever was put in at its ends. -/
def map (s : Selection) (p : Patch) : Selection := ⟨p.mapPos .after s.anchor, p.mapPos .after s.head⟩

/-- The selection with both ends moved back to `length` where they lie behind it. -/
def clamp (s : Selection) (length : Nat) : Selection := ⟨min s.anchor length, min s.head length⟩

end Selection

/-- Why a document refuses to change. -/
inductive DocumentError where
  | readonly
  | outOfBounds (pos length : Nat)
  | patch (error : PatchError)
  deriving DecidableEq, Repr

def DocumentError.message : DocumentError → String
  | .readonly => "document is readonly"
  | .outOfBounds pos length =>
    "position " ++ toString pos ++ " is out of bounds for document length " ++ toString length
  | .patch error => error.message

/-- What undoing brings back. -/
structure Snapshot where
  text : Text
  selection : Selection
  markers : Keyed String Span
  deriving DecidableEq, Repr

/-- A text under edit. -/
structure Document where
  id : DocId
  text : Text
  selection : Selection := .point 0
  markers : Keyed String Span := .empty
  /-- The states before each edit, the newest first. -/
  history : List Snapshot := []
  /-- The patches made for someone else and not reported yet, the oldest first. -/
  unreported : List Patch := []
  /-- An opening bracket brings its closer along. -/
  autoPairs : Bool := true
  /-- An input field of the editor itself. -/
  widget : Bool := false
  readonly : Bool := false
  version : Nat := 0
  deriving DecidableEq, Repr

namespace Document

def length (d : Document) : Nat := d.text.length

def caret (d : Document) : Nat := d.selection.head

def marker? (d : Document) (name : String) : Option Span := d.markers.get? name

def setMarker (d : Document) (name : String) (span : Span) : Document :=
  { d with markers := d.markers.insert name span }

def clearMarker (d : Document) (name : String) : Document := { d with markers := d.markers.erase name }

/-- `d` with a selection from `anchor` to `head`, which have to lie in the text. -/
def select? (d : Document) (anchor head : Nat) : Except DocumentError Document :=
  if d.length < anchor then .error (.outOfBounds anchor d.length)
  else if d.length < head then .error (.outOfBounds head d.length)
  else .ok { d with selection := ⟨anchor, head⟩ }

def moveTo? (d : Document) (pos : Nat) : Except DocumentError Document := d.select? pos pos

/-- `d` with the selection `s`, as far as it lies in the text. -/
def setSelection (d : Document) (s : Selection) : Document := { d with selection := s.clamp d.length }

/-- What undoing the next edit will bring back. -/
def snapshot (d : Document) : Snapshot := ⟨d.text, d.selection, d.markers⟩

/-- The version after a change; the last version stays. -/
def nextVersion (d : Document) : Nat := min (d.version + 1) maxOffset

/-- `d` with a patch made in it.  An empty patch is no edit. -/
def edit? (d : Document) (p : Patch) : Except DocumentError Document :=
  if d.readonly then .error .readonly
  else if p.isEmpty then .ok d
  else
    match p.result? d.text with
    | .error error => .error (.patch error)
    | .ok text =>
      .ok { d with
        text
        selection := d.selection.map p
        markers := d.markers.mapValues p.mapSpan
        history := d.snapshot :: d.history
        version := d.nextVersion }

def undo? (d : Document) : Option Document :=
  match d.history with
  | [] => none
  | s :: history =>
    some { d with
      text := s.text
      selection := s.selection
      markers := s.markers
      history
      version := d.nextVersion }

/-- `d` with one stretch of its text replaced and the caret at `caret`, and the patch that did it. -/
def replace? (d : Document) (r : Replacement) (caret : Nat) : Except DocumentError (Document × Patch) :=
  match Patch.of? d.length [r] with
  | .error error => .error (.patch error)
  | .ok p =>
    match d.edit? p with
    | .error error => .error error
    | .ok d' => .ok ({ d' with selection := .point caret }, p)

def reported (d : Document) : Document := { d with unreported := [] }

end Document
end Shorthand
