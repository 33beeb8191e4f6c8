import Shorthand.Abbreviation.Reader
import Shorthand.Patch.Basic
/-!
# Events

What an editor tells the service about a document, in the order in which it happens, and what the service answers.
Commands and the keys of conditions have names, which an editor uses in its own configuration.
-/
namespace Shorthand

/-- A name that stands for no command or no key. -/
structure UnknownName where
  name : String
  deriving DecidableEq, Repr

def UnknownName.message (e : UnknownName) : String := "unknown name: " ++ e.name

/-- The commands of the service. -/
inductive Command where
  | expand
  | extract
  | enter
  | clear
  deriving DecidableEq, Repr

namespace Command

def all : List Command := [.expand, .extract, .enter, .clear]

def name : Command → String
  | .expand => "emmet_expand_abbreviation"
  | .extract => "emmet_extract_abbreviation"
  | .enter => "emmet_enter_abbreviation"
  | .clear => "emmet_clear_abbreviation_marker"

def ofName? (s : String) : Except UnknownName Command :=
  match all.find? fun c => c.name = s with
  | some c => .ok c
  | none => .error ⟨s⟩

end Command

/-- What an editor's key bindings may depend on. -/
inductive ContextKey where
  | inAbbreviation
  | tabExpand
  | hasTracker
  | hasForcedTracker
  deriving DecidableEq, Repr

namespace ContextKey

def all : List ContextKey := [.inAbbreviation, .tabExpand, .hasTracker, .hasForcedTracker]

def name : ContextKey → String
  | .inAbbreviation => "emmet_abbreviation"
  | .tabExpand => "emmet_tab_expand"
  | .hasTracker => "has_emmet_abbreviation_mark"
  | .hasForcedTracker => "has_emmet_forced_abbreviation_mark"

def ofName? (s : String) : Except UnknownName ContextKey :=
  match all.find? fun k => k.name = s with
  | some k => .ok k
  | none => .error ⟨s⟩

end ContextKey

/-- The editor's own commands, as far as the service cares. -/
inductive TextCommand where
  | autoComplete
  | commitCompletion
  | undo
  | other (name : String)
  deriving DecidableEq, Repr

/-- The editor's command with a name. -/
def TextCommand.ofName (s : String) : TextCommand :=
  if s = "auto_complete" then .autoComplete
  else if s = "commit_completion" then .commitCompletion
  else if s = "undo" || s = "soft_undo" then .undo
  else .other s

/-- What happens to a document. -/
inductive Event where
  | activated
  | closed
  | selectionModified
  | modified (p : Patch)
  | textCommand (c : TextCommand)
  | postTextCommand (c : TextCommand)
  | queryContext (key : ContextKey)
  | queryCompletions (pos : Nat)
  | command (c : Command)
  deriving DecidableEq, Repr

/-- An entry of the editor's completion list: its label and what it inserts. -/
structure Completion where
  trigger : Text
  snippet : Text
  deriving DecidableEq, Repr

/-- What shows next to an abbreviation. -/
inductive Preview where
  | expansion (snippet : Text)
  | error (e : Abbreviation.ReadError)
  deriving DecidableEq, Repr

/-- The answer to an event. -/
inductive Reply where
  | none
  | context (holds : Bool)
  | completions (entry : Option Completion)
  deriving DecidableEq, Repr

end Shorthand
