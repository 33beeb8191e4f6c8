import Shorthand.Settings
import Shorthand.Text.Quoted
import Shorthand.Toml.Value
/-!
# Session scripts

A script is a document to start from, settings that differ from the user's, and the steps that a user takes in the
document.
-/
namespace Shorthand

/-- What a user does. -/
inductive Step where
  | type (text : Text)
  | backspace (count : Nat)
  | move (pos : Nat)
  | select (anchor head : Nat)
  | command (name : String)
  | undo
  | complete (commit : Bool)
  | query (key : String)
  | close
  deriving DecidableEq, Repr

def Step.describe : Step → String
  | .type text => "type " ++ Text.quoted text
  | .backspace count => "backspace x" ++ toString count
  | .move pos => "move " ++ toString pos
  | .select anchor head => "select " ++ toString anchor ++ ".." ++ toString head
  | .command name => "command " ++ name
  | .undo => "undo"
  | .complete commit => if commit then "complete + commit" else "complete"
  | .query key => "query " ++ key
  | .close => "close"

/-- A document to start from and what a user does in it. -/
structure Script where
  text : Text := []
  /-- Where the caret starts, the end of the text unless told otherwise. -/
  caret : Option Nat := none
  dialect : String := "html"
  /-- The settings that differ from the user's. -/
  overrides : Toml.Table := []
  steps : List Step := []

end Shorthand
