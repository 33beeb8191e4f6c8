import Shorthand.Script.File
import Shorthand.Session.Editing
/-!
# Replaying a script

The steps of a script are taken one by one in a session on its document, and what shows of the tracker is told after
each.
-/
namespace Shorthand

/-- Why a step cannot be taken. -/
inductive StepError where
  | refused (error : DocumentError)
  | unknownName (error : UnknownName)
  | noTracker
  deriving DecidableEq, Repr

def StepError.message : StepError → String
  | .refused error => error.message
  | .unknownName error => error.message
  | .noTracker => "completion offered without a tracker"

def Script.session? (script : Script) (settings : Settings) : Except DocumentError Session :=
  let d : Document := { id := 1, text := script.text }
  (d.moveTo? (script.caret.getD d.length)).map fun d =>
    (Session.mk { dialect := ⟨script.dialect, true⟩, settings } d).after .activated

namespace Session

/-- What a step of the session leads to when nothing is to be told. -/
def silently (r : Session × Option DocumentError) : Session × Except StepError (Option String) :=
  (r.1, match r.2 with
    | none => .ok none
    | some error => .error (.refused error))

/-- Opens the completion list and takes the entry offered, if told so. -/
def takeCompletion (s : Session) (commit : Bool) : Session × Except StepError (Option String) :=
  match s.complete s.document.caret with
  | (s, none) => (s, .ok (some "no completion"))
  | (s, some entry) =>
    let line := Text.quoted entry.trigger ++ " -> " ++ Text.quoted entry.snippet
    if !commit then (s, .ok (some line))
    else
      match s.tracker? with
      | none => (s, .error .noTracker)
      | some t =>
        match s.commit t.region entry.snippet with
        | (s, some error) => (s, .error (.refused error))
        | (s, none) => (s, .ok (some line))

def runStep (s : Session) : Step → Session × Except StepError (Option String)
  | .type text => silently (s.type text)
  | .backspace count => silently (s.backspace count)
  | .move pos => silently (s.moveTo pos)
  | .select anchor head => silently (s.select anchor head)
  | .command name =>
    match Command.ofName? name with
    | .error error => (s, .error (.unknownName error))
    | .ok c => (s.command c, .ok none)
  | .undo => (s.undo.1, .ok none)
  | .complete commit => s.takeCompletion commit
  | .query key =>
    match ContextKey.ofName? key with
    | .error error => (s, .error (.unknownName error))
    | .ok key => (s, .ok (some (key.name ++ " = " ++ (if s.holds key then "true" else "false"))))
  | .close => (s.after .closed, .ok none)

def describe (s : Session) : String :=
  match s.tracker? with
  | none => "no tracker"
  | some t =>
    let mode := if t.forced then "forced" else "auto"
    let reading :=
      match t.reading with
      | .empty => "empty"
      | .valid text _ => "valid " ++ Text.quoted text
      | .invalid text error => "invalid " ++ Text.quoted text ++ " (" ++ error.message ++ ")"
    mode ++ " tracker " ++ t.region.describe ++ " " ++ reading ++ (if t.previewVisible then ", preview" else "")

end Session
end Shorthand
