import Shorthand.Text.Basic
import Shorthand.Text.Blank
/-!
# Locating an abbreviation

The abbreviation that ends at the caret.  Where a marker leads abbreviations in, it begins behind the last marker with
no white space between it and the caret; elsewhere behind the last char that no abbreviation holds, a `<` leading to the
end of the tag it starts.
-/
namespace Shorthand.Abbreviation

open Text (isBlank)

/-- An abbreviation in a line: the stretch from `start` up to `stop`, of which the text from `location` on is the
abbreviation and what comes before its marker. -/
structure Located where
  text : Text
  start : Nat
  stop : Nat
  location : Nat
  deriving DecidableEq, Repr

/-- The greatest offset before `bound` with the marker `lead`, if no char that ends a marker from there on, up to
`bound`, is blank. -/
def lastLead? (lead before : Text) : Nat → Option Nat
  | 0 => none
  | pos + 1 =>
    if before[pos + lead.length]?.any isBlank then none
    else if lead.isPrefixOf (before.drop pos) then some pos
    else lastLead? lead before pos

/-- `c` is in no abbreviation that stands without a marker. -/
def isOutside (c : Char) : Bool := c = ' ' || c = '\t' || c = '<' || c = ';' || c = '"' || c = '\''

/-- Where the abbreviation at the end of `before` starts if it needs no marker. -/
def bareStart (before : Text) : Nat :=
  let run := (before.reverse.takeWhile fun c => !isOutside c).reverse
  let start := before.length - run.length
  if 0 < start && before[start - 1]? = some '<' && run.contains '>' then
    start + (run.takeWhile (· != '>')).length + 1
  else start

def locate? (line : Text) (pos : Nat) (lead : Option Text) : Option Located :=
  let before := line.take pos
  let at? (start location : Nat) : Option Located :=
    if location < before.length then some ⟨before.drop location, start, before.length, location⟩ else none
  match lead with
  | some lead => (lastLead? lead before (before.length - lead.length)).bind fun start => at? start (start + lead.length)
  | none => at? (bareStart before) (bareStart before)

end Shorthand.Abbreviation
