import Shorthand.Patch.Basic
/-!
# What a patch does to spans and positions

A span of the text keeps what is left of it and takes in whatever is put in next to it; a position stays between the
same two chars, and where a piece is put in right there it goes before or behind the piece as told.  Both are read off
the replacements from first to last, `shift` being how far the earlier ones have moved what comes after them.
-/
namespace Shorthand

/-- On which side of a piece put in right there a position ends up. -/
inductive Side where
  | before
  | after
  deriving DecidableEq, Repr

namespace Patch

/-- `pos`, moved by `shift`. -/
def moved (pos : Nat) (shift : Int) : Nat := (pos + shift).toNat

/-- The span `s` after the replacements: one that ends before the span moves it, one that touches it stretches it over
the piece put in, and one behind it leaves it alone. -/
def followSpan : List Replacement → Int → Span → Span
  | [], _, s => s
  | r :: rs, shift, s =>
    let start := moved r.start shift
    let stop := moved r.stop shift
    let removed := stop - start
    let inserted := r.inserted.length
    let s' : Span :=
      if stop < s.start then ⟨s.start + inserted - removed, s.stop + inserted - removed⟩
      else if start ≤ s.stop then ⟨min s.start start, max s.stop stop + inserted - removed⟩
      else s
    followSpan rs (shift + inserted - removed) s'

/-- The position `pos` after the replacements.  A position within chars that go lands at one end of what replaces
them. -/
def followPos (side : Side) : List Replacement → Int → Nat → Nat
  | [], shift, pos => min maxOffset (moved pos shift)
  | r :: rs, shift, pos =>
    if pos < r.start || (pos = r.start && pos = r.stop && side = .before) then min maxOffset (moved pos shift)
    else if pos < r.stop || (pos = r.stop && r.start = r.stop) then
      match side with
      | .before => moved r.start shift
      | .after => moved r.start shift + r.inserted.length
    else followPos side rs (shift + r.inserted.length - r.removed) pos

def mapSpan (p : Patch) (s : Span) : Span := followSpan p.replacements 0 s

def mapPos (p : Patch) (side : Side) (pos : Nat) : Nat := followPos side p.replacements 0 pos

@[simp] theorem mapSpan_empty (length : Nat) (s : Span) : (empty length).mapSpan s = s := rfl

end Patch
end Shorthand
