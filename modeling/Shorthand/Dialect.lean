import Shorthand.Text.Basic
/-!
# Dialects

The language around an abbreviation.  A session is held in one dialect throughout; some dialects call for a marker in
front of abbreviations.
-/
namespace Shorthand

/-- The language of a session, and whether abbreviations may be typed in it at all. -/
structure Dialect where
  name : String
  active : Bool := true
  deriving DecidableEq, Repr

namespace Dialect

/-- The languages in which a marker leads abbreviations in. -/
def markedNames : List String := ["jsx", "tsx"]

/-- Abbreviations in the language `asked` need a marker, as far as this session knows. -/
def isMarked (d : Dialect) (asked : String) : Bool := markedNames.contains d.name && asked = d.name

end Dialect
end Shorthand
