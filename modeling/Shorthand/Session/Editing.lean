import Shorthand.Session.Events
/-!
# Editing under the service's eyes

What a user does to a document, each step told to the service as an editor tells it: an edit by the patch that it made
and the change of selection, an undo by a text command before and after, a command with whatever it left unreported.  A
step that the document refuses is not reported.
-/
namespace Shorthand.Session

/-- Tells the service about a patch and where the caret is after it. -/
def report (s : Session) (p : Patch) : Session := (s.after (.modified p)).after .selectionModified

/-- Types the chars of a text one by one, up to the first that the document refuses. -/
def type (s : Session) : Text → Session × Option DocumentError
  | [] => (s, none)
  | c :: t =>
    match s.document.type? c with
    | .error error => (s, some error)
    | .ok (d, p) => type ((s.withDocument d).report p) t

/-- Takes keystrokes back, up to the first time that the document refuses. -/
def backspace (s : Session) : Nat → Session × Option DocumentError
  | 0 => (s, none)
  | n + 1 =>
    match s.document.backspace? with
    | .error error => (s, some error)
    | .ok (d, p) => backspace ((s.withDocument d).report p) n

def edit (s : Session) (p : Patch) : Session × Option DocumentError :=
  match s.document.edit? p with
  | .error error => (s, some error)
  | .ok d => ((s.withDocument d).report p, none)

def select (s : Session) (anchor head : Nat) : Session × Option DocumentError :=
  match s.document.select? anchor head with
  | .error error => (s, some error)
  | .ok d => ((s.withDocument d).after .selectionModified, none)

def moveTo (s : Session) (pos : Nat) : Session × Option DocumentError := s.select pos pos

def undo (s : Session) : Session × Bool :=
  let s := s.after (.textCommand .undo)
  match s.document.undo? with
  | none => (s.after (.postTextCommand .undo), false)
  | some d => ((s.withDocument d).after (.postTextCommand .undo), true)

/-- Tells the service about the patches that it made itself. -/
def flush (s : Session) : Session :=
  (s.document.unreported.foldl (fun s p => s.after (.modified p)) (s.withDocument s.document.reported)).after
    .selectionModified

def command (s : Session) (c : Command) : Session := (s.after (.command c)).flush

def complete (s : Session) (pos : Nat) : Session × Option Completion :=
  match (s.after (.textCommand .autoComplete)).dispatch (.queryCompletions pos) with
  | (s, .completions entry) => (s.after (.postTextCommand .autoComplete), entry)
  | (s, _) => (s.after (.postTextCommand .autoComplete), none)

/-- Puts the entry of the completion list in place of the region it was offered for. -/
def commit (s : Session) (region : Span) (snippet : Text) : Session × Option DocumentError :=
  let s := s.after (.textCommand .commitCompletion)
  match s.document.insertSnippet? region snippet with
  | .error error => (s, some error)
  | .ok d => ((s.withDocument d).flush, none)

end Shorthand.Session
