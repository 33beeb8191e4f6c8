import Shorthand.Text.Basic
/-!
# Settings

What a user can choose.
-/
namespace Shorthand

/-- What a user can choose. -/
structure Settings where
  /-- Abbreviations are tracked while they are typed. -/
  autoMark : Bool := true
  /-- The editor may expand with the tab key. -/
  tabExpand : Bool := false
  /-- The length from which on a document is too long to look for the enclosing element while typing; zero stands for
  any. -/
  contextSizeLimit : Nat := 0
  /-- The marker that leads abbreviations in where the dialect calls for one. -/
  lead : Text := ['<']
  deriving DecidableEq, Repr

/-- The enclosing element is looked up while typing in a document of `length` chars. -/
def Settings.capturesContext (s : Settings) (length : Nat) : Bool :=
  0 < s.contextSizeLimit && length < s.contextSizeLimit

end Shorthand
