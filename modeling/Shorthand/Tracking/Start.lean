import Shorthand.Span
import Shorthand.Text.Character
/-!
# Where tracking starts

A char just typed starts an abbreviation when it may open one and stands at the start of the text or right behind a word
bound.  Where a marker leads abbreviations in, it has to stand right behind the marker instead, and the marker belongs
to the stretch that is tracked.  A closer that an editor has put behind a typed opener belongs to it too.
-/
namespace Shorthand

open Text (closerOf isAbbreviationStart isMarkedStart isWordBound)

/-- The stretch to track, and the length of the marker it begins with. -/
structure TrackingStart where
  span : Span
  offset : Nat
  deriving DecidableEq, Repr

/-- The stretch to track if the char before `pos` has just been typed. -/
def trackingStart? (t : Text) (pos : Nat) (lead : Option Text) : Option TrackingStart :=
  match pos with
  | 0 => none
  | before + 1 =>
    match t[before]? with
    | none => none
    | some typed =>
      let stop := if (closerOf typed).isSome && t[before + 1]? = closerOf typed then before + 2 else before + 1
      match lead with
      | some lead =>
        if lead.length ≤ before && t.slice (before - lead.length) before = lead && isMarkedStart typed then
          some ⟨⟨before - lead.length, stop⟩, lead.length⟩
        else none
      | none =>
        if (before = 0 || t[before - 1]?.any isWordBound) && isAbbreviationStart typed then
          some ⟨⟨before, stop⟩, 0⟩
        else none

end Shorthand
