import Shorthand.Span
/-!
# Patches

A patch is the set of replacements that one modification makes in a text of a known length.  Their offsets are those of
the text before the modification; they come in order and do not overlap, so that the patch says the same whether they
are made one after the other from the last to the first or all at once.

- `Patch.of?` builds a patch from replacements and names the first one that does not fit;
- `Patch.result?` is a text of the right length after the replacements;
- `Patch.lengthAfter` is the length of the result.
-/
namespace Shorthand

/-- The chars from `start` up to `stop` give way to `inserted`. -/
structure Replacement where
  start : Nat
  stop : Nat
  inserted : Text
  deriving DecidableEq, Repr

namespace Replacement

def removed (r : Replacement) : Nat := r.stop - r.start

/-- The replacement takes something away or puts something in. -/
def Effective (r : Replacement) : Prop := r.start ≠ r.stop ∨ r.inserted ≠ []

instance (r : Replacement) : Decidable r.Effective := inferInstanceAs (Decidable (_ ∨ _))

/-- The replacements follow one another from the offset `last` on and end within `length` chars. -/
def Fits (length : Nat) : Nat → List Replacement → Prop
  | _, [] => True
  | last, r :: rs => last ≤ r.start ∧ r.start ≤ r.stop ∧ r.stop ≤ length ∧ Fits length r.stop rs

instance decidableFits (length : Nat) : (last : Nat) → (rs : List Replacement) → Decidable (Fits length last rs)
  | _, [] => .isTrue trivial
  | last, r :: rs =>
    have := decidableFits length r.stop rs
    inferInstanceAs (Decidable (last ≤ r.start ∧ r.start ≤ r.stop ∧ r.stop ≤ length ∧ Fits length r.stop rs))

theorem Fits.mono {length last last' : Nat} (h : last' ≤ last) :
    ∀ {rs : List Replacement}, Fits length last rs → Fits length last' rs
  | [], _ => trivial
  | _ :: _, ⟨h₁, h₂⟩ => ⟨Nat.le_trans h h₁, h₂⟩

/-- Replacements without effect can be left out. -/
theorem Fits.filter {length : Nat} (p : Replacement → Bool) :
    ∀ {last : Nat} {rs : List Replacement}, Fits length last rs → Fits length last (rs.filter p)
  | _, [], _ => trivial
  | last, r :: rs, ⟨h₁, h₂, h₃, h₄⟩ => by
    rw [List.filter_cons]
    split
    · exact ⟨h₁, h₂, h₃, h₄.filter p⟩
    · exact (h₄.filter p).mono (Nat.le_trans h₁ h₂)

end Replacement

/-- Why replacements make no patch, or a patch cannot be applied. -/
inductive PatchError where
  | reversed (start stop : Nat)
  | outOfBounds (start stop length : Nat)
  | overlap (lastStop start stop : Nat)
  | lengthMismatch (expected actual : Nat)
  deriving DecidableEq, Repr

def PatchError.message : PatchError → String
  | .reversed start stop =>
    "invalid change range: start " ++ toString start ++ " is after end " ++ toString stop
  | .outOfBounds start stop length =>
    "change range " ++ toString start ++ ".." ++ toString stop ++ " is out of bounds for document length " ++
      toString length
  | .overlap lastStop start stop =>
    "change range " ++ toString start ++ ".." ++ toString stop ++ " overlaps previous end " ++ toString lastStop
  | .lengthMismatch expected actual =>
    "edit length mismatch: expected document of " ++ toString expected ++ " chars, got " ++ toString actual

/-- Replacements in a text of `length` chars, in order, apart from one another and each with an effect. -/
structure Patch where
  length : Nat
  replacements : List Replacement
  fits : Replacement.Fits length 0 replacements
  effective : ∀ r ∈ replacements, r.Effective
  deriving DecidableEq, Repr

namespace Patch

open Replacement (Fits)

/-- What is wrong with the first replacement that does not fit: its ends are reversed, it passes the end of the text, or
it starts before the end of the one before it. -/
def fault? (length : Nat) : Nat → List Replacement → Option PatchError
  | _, [] => none
  | last, r :: rs =>
    if r.stop < r.start then some (.reversed r.start r.stop)
    else if length < r.stop then some (.outOfBounds r.start r.stop length)
    else if r.start < last then some (.overlap last r.start r.stop)
    else fault? length r.stop rs

theorem fault?_eq_none_iff (length : Nat) :
    ∀ (last : Nat) (rs : List Replacement), fault? length last rs = none ↔ Fits length last rs
  | _, [] => by simp [fault?, Fits]
  | last, r :: rs => by
    have ih := fault?_eq_none_iff length r.stop rs
    unfold fault? Fits
    split
    · simp; omega
    · split
      · simp; omega
      · split
        · simp; omega
        · rw [ih]
          constructor
          · exact fun h => ⟨by omega, by omega, by omega, h⟩
          · exact fun h => h.2.2.2

/-- The patch of the replacements that have an effect, if all of them fit a text of `length` chars. -/
def of? (length : Nat) (rs : List Replacement) : Except PatchError Patch :=
  match h : fault? length 0 rs with
  | some error => .error error
  | none => .ok {
      length
      replacements := rs.filter fun r => r.Effective
      fits := ((fault?_eq_none_iff length 0 rs).1 h).filter _
      effective := fun _ hr => by simpa using (List.mem_filter.1 hr).2 }

/-- The patch that changes nothing in a text of `length` chars. -/
def empty (length : Nat) : Patch := ⟨length, [], trivial, fun _ h => nomatch h⟩

def insertion? (length pos : Nat) (piece : Text) : Except PatchError Patch := of? length [⟨pos, pos, piece⟩]

def deletion? (length start stop : Nat) : Except PatchError Patch := of? length [⟨start, stop, []⟩]

/-- The patch changes nothing. -/
def isEmpty (p : Patch) : Bool := p.replacements.isEmpty

def lengthAfter (p : Patch) : Nat := p.replacements.foldl (fun n r => n - r.removed + r.inserted.length) p.length

def lengthChange (p : Patch) : Int := ((p.lengthAfter : Int) - p.length).bmod (maxOffset + 1)

def insertedPieces (p : Patch) : List Text := (p.replacements.map (·.inserted)).filter fun t => !t.isEmpty

/-- The replacements made in `t`, the last one first so that the offsets of the others stay valid. -/
def replaceAll (rs : List Replacement) (t : Text) : Text :=
  rs.foldr (fun r t => t.splice r.start r.stop r.inserted) t

/-- The text `t`, which must have the length that the patch is for, after the replacements. -/
def result? (p : Patch) (t : Text) : Except PatchError Text :=
  if t.length = p.length then .ok (replaceAll p.replacements t) else .error (.lengthMismatch p.length t.length)

end Patch
end Shorthand
