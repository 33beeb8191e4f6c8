import Shorthand.Document.Typing
import Shorthand.Session.Basic
/-!
# What the service does on an event

`Session.dispatch` takes one event about the document in hand.  The events of a keystroke come as `modified` and then
`selectionModified`; those of an undo as a text command before and after.  Widgets are left alone when they are
activated, closed, modified or selected in.
-/
namespace Shorthand.Session

open Abbreviation (enclosing?)

/-! ## Following edits -/

/-- Takes the tracker along with a patch that the document has undergone.  A patch that cannot have led to the text at
hand ends tracking. -/
def followEdit (s : Session) (p : Patch) : Session :=
  match s.tracker? with
  | none => s
  | some _ =>
    if p.lengthAfter = s.document.length then
      let trackers := s.service.trackers.edited Abbreviation.read s.document.id p s.document.text
      match trackers.get? s.document.id with
      | some t => (s.withTrackers trackers).setMarker t.region
      | none => (s.withTrackers trackers).stop
    else s.stop

/-- Starts tracking if nothing is tracked and the caret is one char behind where it last was, that char opening an
abbreviation. -/
def startIfTyped (s : Session) : Session :=
  match s.tracker?, s.service.carets.get? s.document.id with
  | none, some last =>
    if last + 1 = s.document.caret && s.service.allowsTracking then (s.startTyped? s.document.caret).getD s else s
  | _, _ => s

/-- Stops tracking if the caret tells that the abbreviation has become invalid. -/
def stopIfInvalid (s : Session) : Session :=
  match s.tracker?.bind fun t => t.stopReason? s.document.caret with
  | some _ => s.stop
  | none => s

def onModified (s : Session) (p : Patch) : Session :=
  if s.document.widget then s else (s.followEdit p).startIfTyped.stopIfInvalid.noteCaret

/-! ## Following the caret -/

/-- Shows or hides the preview by where the caret is. -/
def followCaret (s : Session) : Session :=
  (s.withTrackers (s.service.trackers.caretMoved s.document.id s.document.caret)).noteCaret

def onActivated (s : Session) : Session := if s.document.widget then s else s.followCaret

def onSelectionModified (s : Session) : Session :=
  if s.document.widget || !s.service.settings.autoMark then s else s.followCaret

def onClosed (s : Session) : Session :=
  if s.document.widget then s
  else
    let s := s.stop
    { s with service.carets := s.service.carets.erase s.document.id }

/-! ## Undoing -/

/-- Brings the tracker back in step with the text and the marker that an undo has brought back.  A forced tracker stays
on its stretch when the undone edit is older than it. -/
def resync (s : Session) : Session :=
  let moveTo (region : Span) : Session :=
    s.withTrackers (s.service.trackers.moved Abbreviation.read s.document.id region s.document.text)
  match s.tracker?, s.marker? with
  | some _, some marker => moveTo marker
  | some t, none => if t.forced then (moveTo t.region).setMarker (t.region.clamp s.document.length) else s.stop
  | none, _ => s

def showPreview (s : Session) : Session :=
  match s.tracker? with
  | none => s
  | some t => s.withTrackers (s.service.trackers.insert s.document.id (t.preview true))

def onUndone (s : Session) : Session :=
  match s.tracker? with
  | some _ => s.resync.noteCaret
  | none => (s.restore?.elim s showPreview).noteCaret

/-! ## Completions -/

/-- The session in which a completion list has been asked for, or not. -/
def askCompletion (s : Session) (asked : Bool) : Session := { s with service.completionAsked := asked }

/-- The entry for a completion list that the editor is opening at `pos`. -/
def onQueryCompletions (s : Session) (pos : Nat) : Session × Option Completion :=
  if !s.service.completionAsked then (s, none)
  else
    match (s.askCompletion false).suggest pos with
    | (s, none) => (s, none)
    | (s, some t) =>
      match s.expansion with
      | (s, none) => (s, none)
      | (s, some snippet) => (s, some ⟨t.region.textIn s.document.text ++ "\tEmmet".toList, snippet⟩)

def onTextCommand (s : Session) : TextCommand → Session
  | .autoComplete => if s.service.settings.autoMark then s.askCompletion true else s
  | .commitCompletion => s.stop
  | _ => s

def onPostTextCommand (s : Session) : TextCommand → Session
  | .autoComplete => s.askCompletion false
  | .undo => s.onUndone
  | _ => s

/-! ## Conditions -/

/-- The condition `key` holds. -/
def holds (s : Session) : ContextKey → Bool
  | .inAbbreviation =>
    s.tracker?.any fun t => t.region.covers s.document.selection.span && (t.forced || t.reading.isValid)
  | .tabExpand => s.service.settings.tabExpand
  | .hasTracker => s.tracker?.isSome
  | .hasForcedTracker => s.tracker?.any (·.forced)

/-! ## Commands -/

/-- Puts a snippet in place of a stretch of the document, unless the document refuses. -/
def insertSnippet (s : Session) (region : Span) (snippet : Text) : Session :=
  match s.document.insertSnippet? region snippet with
  | .error _ => s
  | .ok d => s.withDocument d

/-- Expands the abbreviation under the caret and stops tracking it. -/
def expand (s : Session) : Session :=
  match s.tracker? with
  | none => s
  | some t =>
    if t.region.contains s.document.caret then
      if t.reading.isValid then
        match s.expansion with
        | (s, none) => s.stop
        | (s, some snippet) => (s.insertSnippet t.region snippet).stop
      else s.stop
    else s

/-- Tracks the abbreviation left of the caret and shows its preview. -/
def extract (s : Session) : Session :=
  match s.suggest s.document.caret with
  | (s, none) => s
  | (s, some _) => s.showPreview

/-- Tracks the selection until told otherwise, or stops doing so. -/
def enter (s : Session) : Session :=
  if s.tracker?.any (·.forced) then s.stop
  else
    let s := s.stop
    let selected := s.document.selection.span
    let options := s.optionsAt selected.start (s.service.settings.capturesContext s.document.length)
    let s := s.start selected true 0 options
    let s :=
      if selected.isEmpty then s
      else s.showPreview.withDocument (s.document.setSelection (.point selected.stop))
    s.noteCaret

def run (s : Session) : Command → Session
  | .expand => s.expand
  | .extract => s.extract
  | .enter => s.enter
  | .clear => s.stop

/-! ## All events -/

def dispatch (s : Session) : Event → Session × Reply
  | .activated => (s.onActivated, .none)
  | .closed => (s.onClosed, .none)
  | .selectionModified => (s.onSelectionModified, .none)
  | .modified p => (s.onModified p, .none)
  | .textCommand c => (s.onTextCommand c, .none)
  | .postTextCommand c => (s.onPostTextCommand c, .none)
  | .queryContext key => (s, .context (s.holds key))
  | .queryCompletions pos =>
    let (s, entry) := s.onQueryCompletions pos
    (s, .completions entry)
  | .command c => (s.run c, .none)

def after (s : Session) (e : Event) : Session := (s.dispatch e).1

end Shorthand.Session
