import Shorthand.Abbreviation.Enclosing
/-!
# Options

What an abbreviation is read and expanded with: the dialect around it, the marker that leads it in, if the dialect needs
one, and the element around it, once it has been looked up.
-/
namespace Shorthand.Abbreviation

/-- What an abbreviation is read and expanded with. -/
structure Options where
  dialect : String := ""
  lead : Option Text := none
  context : Option Context := none
  deriving DecidableEq, Repr

/-- The length of the marker that leads an abbreviation in. -/
def Options.leadLength (o : Options) : Nat := (o.lead.map List.length).getD 0

end Shorthand.Abbreviation
