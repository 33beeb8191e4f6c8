import Shorthand.Abbreviation.Location
import Shorthand.Abbreviation.Markup
import Shorthand.Dialect
import Shorthand.Event
import Shorthand.Settings
import Shorthand.Text.Line
import Shorthand.Tracking.Registry
import Shorthand.Tracking.Start
import Shorthand.Tracking.Stop
/-!
# Sessions

The service keeps the trackers of all documents; a session is the service together with the document it is attending
to.  A tracker goes with a marker on the same stretch of its document, so that undoing an edit, which brings markers
back, can bring the tracker back too.  This module starts, finds and ends trackers.
-/
namespace Shorthand

open Abbreviation (Options enclosing? locate?)

/-- The marker that goes with a tracker. -/
def abbreviationMarker : String := "emmet-abbreviation"

/-- What is known about all documents. -/
structure Service where
  dialect : Dialect
  settings : Settings := {}
  trackers : Registry := .empty
  /-- Where the caret of each document was after the last event. -/
  carets : Keyed DocId Nat := .empty
  /-- A completion list has been asked for and not been filled yet. -/
  completionAsked : Bool := false
  deriving Repr

/-- Abbreviations are tracked while they are typed. -/
def Service.allowsTracking (s : Service) : Bool := s.settings.autoMark && s.dialect.active

/-- The marker that has to lead abbreviations in. -/
def Service.lead? (s : Service) : Option Text :=
  if s.dialect.isMarked s.dialect.name then some s.settings.lead else none

namespace Tracker

/-- The tracker with the enclosing element looked up in `text`, unless that has been done. -/
def locateContext (t : Tracker) (text : Text) : Tracker :=
  match t.options.context with
  | some _ => t
  | none => { t with options.context := enclosing? text t.region.start t.options.dialect }

def expansion? (t : Tracker) : Option Text :=
  t.reading.nodes?.bind fun nodes => (Abbreviation.expand nodes t.options).toOption

end Tracker

/-- The service attending to a document. -/
structure Session where
  service : Service
  document : Document
  deriving Repr

namespace Session

def tracker? (s : Session) : Option Tracker := s.service.trackers.get? s.document.id

/-- The stretch that the document's abbreviation marker is on. -/
def marker? (s : Session) : Option Span := s.document.marker? abbreviationMarker

/-- The session with other trackers. -/
def withTrackers (s : Session) (trackers : Registry) : Session := { s with service.trackers := trackers }

/-- The session with the abbreviation marker put on `span`. -/
def setMarker (s : Session) (span : Span) : Session :=
  { s with document := s.document.setMarker abbreviationMarker span }

/-- The session that remembers where the caret is. -/
def noteCaret (s : Session) : Session :=
  { s with service.carets := s.service.carets.insert s.document.id s.document.caret }

def withDocument (s : Session) (d : Document) : Session := { s with document := d }

/-- What an abbreviation at `pos` is to be read and expanded with; the enclosing element is looked up on demand. -/
def optionsAt (s : Session) (pos : Nat) (withContext : Bool) : Options where
  dialect := s.service.dialect.name
  lead := s.service.lead?
  context := if withContext then enclosing? s.document.text pos s.service.dialect.name else none

/-! ## Starting and ending -/

/-- Tracks `span`, as far as it lies in the text, in place of what was tracked before. -/
def start (s : Session) (span : Span) (forced : Bool) (offset : Nat) (options : Options) : Session :=
  let region := span.clamp s.document.length
  let tracker : Tracker := { region, forced, offset, options }
  (s.withTrackers (s.service.trackers.insert s.document.id (tracker.reread Abbreviation.read s.document.text))).setMarker
    region

/-- Tracks nothing in the document any more. -/
def stop (s : Session) : Session where
  service := { s.service with trackers := s.service.trackers.erase s.document.id }
  document := s.document.clearMarker abbreviationMarker

/-- Starts tracking if the char typed before `pos` opens an abbreviation. -/
def startTyped? (s : Session) (pos : Nat) : Option Session :=
  (trackingStart? s.document.text pos s.service.lead?).map fun found =>
    s.start found.span false found.offset
      (s.optionsAt found.span.start (s.service.settings.capturesContext s.document.length))

/-- Starts tracking the abbreviation that ends at `pos`, if there is one. -/
def startExtracted (s : Session) (pos : Nat) : Session × Option Tracker :=
  if s.document.length < pos then (s, none)
  else
    let lineStart := Text.lineStart s.document.text pos
    let options := s.optionsAt pos true
    match locate? (s.document.text.slice lineStart pos) (pos - lineStart) options.lead with
    | none => (s, none)
    | some x =>
      let s := s.start (.between (lineStart + x.start) (lineStart + x.stop)) false (x.location - x.start) options
      (s, s.tracker?)

/-- The tracker around `pos`, or a new one for the abbreviation that ends there. -/
def suggest (s : Session) (pos : Nat) : Session × Option Tracker :=
  if !s.service.allowsTracking then (s, none)
  else
    match s.tracker? with
    | some t => if t.region.contains pos then (s, some t) else s.stop.startExtracted pos
    | none => s.startExtracted pos

/-- Starts tracking again where a marker is left without a tracker. -/
def restore? (s : Session) : Option Session :=
  match s.marker?, s.tracker? with
  | some marker, none =>
    let options := s.optionsAt marker.start true
    some (s.start marker false options.leadLength options)
  | _, _ => none

/-! ## Expanding -/

/-- The snippet that the tracked abbreviation expands to where it stands. -/
def expansion (s : Session) : Session × Option Text :=
  match s.tracker? with
  | none => (s, none)
  | some t =>
    let t := t.locateContext s.document.text
    (s.withTrackers (s.service.trackers.insert s.document.id t), t.expansion?)

/-- What shows next to the abbreviation. -/
def preview? (s : Session) : Option Preview :=
  match s.tracker? with
  | none => none
  | some t =>
    if t.previewVisible then
      match t.reading with
      | .empty => none
      | .invalid _ error => some (.error error)
      | .valid .. => t.expansion?.map .expansion
    else none

end Session
end Shorthand
