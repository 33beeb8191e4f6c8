import Mathlib.Data.Option.Basic
import Shorthand.Proofs.Patch.Extent
/-!
# Patches with every bound checked

The operations on texts are total: a slice is clipped to the text and a difference ends at zero.  Those that an editor
is written with are not, and end the program when an offset is out of bounds.  The checked operations are these: they
give a result only if the offsets are in order and lie in the text (`Text.slice?` and those beside it), the difference
is no less than zero (`sub?`) and a position is not moved in front of the text (`Patch.moved?`).

What is defined with the total operations is written a second time with the checked ones, with `Checked` at the end of
its name, and proved to come to the same.  Here this is done for making patches, applying them and moving spans and
positions along with them: the replacements of a patch fit a text, and that is all the checks need of them.
-/
namespace Shorthand

/-- `a - b`, unless `b` is greater. -/
def sub? (a b : Nat) : Option Nat := if b ≤ a then some (a - b) else none

theorem sub?_of_le {a b : Nat} (h : b ≤ a) : sub? a b = some (a - b) := if_pos h

namespace Text

variable {t : Text} {start stop pos : Nat}

def slice? (t : Text) (start stop : Nat) : Option Text :=
  if start ≤ stop ∧ stop ≤ t.length then some (t.slice start stop) else none

def remove? (t : Text) (start stop : Nat) : Option Text :=
  if start ≤ stop ∧ stop ≤ t.length then some (t.splice start stop []) else none

def insert? (t : Text) (pos : Nat) (piece : Text) : Option Text :=
  if pos ≤ t.length then some (t.splice pos pos piece) else none

theorem slice?_of_le (h : start ≤ stop) (h' : stop ≤ t.length) : t.slice? start stop = some (t.slice start stop) :=
  if_pos ⟨h, h'⟩

/-- A text is replaced by taking it out and putting in what takes its place. -/
theorem splice_splice (h : start ≤ stop) (h' : stop ≤ t.length) (piece : Text) :
    (t.splice start stop []).splice start start piece = t.splice start stop piece := by
  have hl : (t.take start).length = start := by rw [List.length_take]; omega
  unfold splice
  rw [List.nil_append, List.take_left' hl, List.drop_left' hl]

/-- What lies between two offsets taken out, and then `piece` put in. -/
def splice? (t : Text) (start stop : Nat) (piece : Text) : Option Text :=
  (if start < stop then t.remove? start stop else some t).bind fun t =>
    if piece = [] then some t else t.insert? start piece

theorem splice?_of_le (h : start ≤ stop) (h' : stop ≤ t.length) (piece : Text) :
    t.splice? start stop piece = some (t.splice start stop piece) := by
  have hr : (if start < stop then t.remove? start stop else some t) = some (t.splice start stop []) := by
    split
    · exact if_pos ⟨h, h'⟩
    · have hs : stop = start := by omega
      rw [hs]
      unfold splice
      rw [List.nil_append, List.take_append_drop]
  have hl : start ≤ (t.splice start stop []).length := by
    rw [length_splice h h', List.length_nil]
    omega
  unfold splice?
  rw [hr, Option.bind_some]
  split
  · next hp => rw [hp]
  · exact (if_pos hl).trans (congrArg some (splice_splice h h' piece))

end Text

namespace Patch

open Replacement (Fits)

variable {length last : Nat} {rs : List Replacement} {shift : Int}

def moved? (pos : Nat) (shift : Int) : Option Nat := if 0 ≤ pos + shift then some (moved pos shift) else none

theorem moved?_of_le {pos : Nat} (h : 0 ≤ pos + shift) : moved? pos shift = some (moved pos shift) := if_pos h

/-! ## Making a patch -/

/-- The length of the text after the replacements, `n` being what it is after those before `last`. -/
def extentChecked (length : Nat) : Nat → Nat → List Replacement → Option (Except PatchError Nat)
  | _, n, [] => some (.ok n)
  | last, n, r :: rs =>
    if r.stop < r.start then some (.error (.reversed r.start r.stop))
    else if length < r.stop then some (.error (.outOfBounds r.start r.stop length))
    else if r.start < last then some (.error (.overlap last r.start r.stop))
    else if r.Effective then do
      let removed ← sub? r.stop r.start
      let rest ← sub? n removed
      extentChecked length r.stop (rest + r.inserted.length) rs
    else extentChecked length r.stop n rs

theorem extentChecked_isSome : ∀ {last n : Nat} {rs : List Replacement}, length ≤ last + n → last ≤ length →
    ∃ r, extentChecked length last n rs = some r
  | _, n, [], _, _ => ⟨.ok n, rfl⟩
  | last, n, r :: rs, h, h' => by
    unfold extentChecked
    split
    · exact ⟨_, rfl⟩
    split
    · exact ⟨_, rfl⟩
    split
    · exact ⟨_, rfl⟩
    split
    · rw [sub?_of_le (by omega)]
      change ∃ x, (sub? n (r.stop - r.start)).bind _ = some x
      rw [sub?_of_le (by omega)]
      exact extentChecked_isSome (by omega) (by omega)
    · exact extentChecked_isSome (by omega) (by omega)

def ofChecked? (length : Nat) (rs : List Replacement) : Option (Except PatchError Patch) := do
  let _ ← extentChecked length 0 length rs
  pure (of? length rs)

theorem ofChecked?_eq (length : Nat) (rs : List Replacement) : ofChecked? length rs = some (of? length rs) := by
  have hx : ∃ extent, extentChecked length 0 length rs = some extent :=
    extentChecked_isSome (Nat.le_add_left length 0) (Nat.zero_le length)
  obtain ⟨extent, he⟩ := hx
  unfold ofChecked?
  rw [he]
  rfl

/-! ## Applying a patch -/

def replaceAllChecked : List Replacement → Text → Option Text
  | [], t => some t
  | r :: rs, t => (replaceAllChecked rs t).bind fun t => t.splice? r.start r.stop r.inserted

theorem replaceAllChecked_eq {t : Text} : ∀ {last : Nat} {rs : List Replacement}, Fits t.length last rs →
    replaceAllChecked rs t = some (replaceAll rs t)
  | _, [], _ => rfl
  | _, r :: rs, ⟨_, h₂, h₃, h₄⟩ => by
    -- what stands behind this replacement has changed, but reaches as far as it does in `t` at least
    have hl := length_replaceAll h₄
    have hle := le_add_growth h₃ h₄
    unfold replaceAllChecked
    rw [replaceAllChecked_eq h₄, Option.bind_some, Text.splice?_of_le h₂ (by omega)]
    rfl

def resultChecked? (p : Patch) (t : Text) : Option (Except PatchError Text) :=
  if t.length = p.length then (replaceAllChecked p.replacements t).map .ok
  else some (.error (.lengthMismatch p.length t.length))

theorem resultChecked?_eq (p : Patch) (t : Text) : p.resultChecked? t = some (p.result? t) := by
  unfold resultChecked? result?
  split
  · next hl => rw [replaceAllChecked_eq (hl ▸ p.fits), Option.map_some]
  · rfl

/-! ## Following a patch -/

/-- What a replacement from `start` up to `stop` makes of a span, with `inserted` chars put in for `removed`. -/
def stretchChecked (start stop removed inserted : Nat) (s : Span) : Option Span :=
  if stop < s.start then do
    let start' ← sub? s.start removed
    let stop' ← sub? s.stop removed
    some ⟨start' + inserted, stop' + inserted⟩
  else if start ≤ s.stop then do
    let stop' ← sub? (max s.stop stop) removed
    some ⟨min s.start start, stop' + inserted⟩
  else some s

def followSpanChecked : List Replacement → Int → Span → Option Span
  | [], _, s => some s
  | r :: rs, shift, s => do
    let start ← moved? r.start shift
    let stop ← moved? r.stop shift
    let removed ← sub? stop start
    let s ← stretchChecked start stop removed r.inserted.length s
    followSpanChecked rs (shift + r.inserted.length - removed) s

theorem stretchChecked_eq {start stop : Nat} (h : start ≤ stop) {s : Span} (hs : s.start ≤ s.stop) (inserted : Nat) :
    stretchChecked start stop (stop - start) inserted s = some
      (if stop < s.start then ⟨s.start + inserted - (stop - start), s.stop + inserted - (stop - start)⟩
      else if start ≤ s.stop then ⟨min s.start start, max s.stop stop + inserted - (stop - start)⟩
      else s) := by
  unfold stretchChecked
  split
  · rw [sub?_of_le (by omega), sub?_of_le (by omega)]
    refine congrArg some (congrArg₂ Span.mk ?_ ?_) <;> omega
  · split
    · rw [sub?_of_le (by omega)]
      refine congrArg some (congrArg₂ Span.mk rfl ?_)
      omega
    · rfl

/-- **Following a patch keeps the ends of a span in order.** -/
theorem followSpan_ordered : ∀ {last : Nat} {rs : List Replacement} {shift : Int} {s : Span}, Fits length last rs →
    0 ≤ last + shift → s.start ≤ s.stop → (followSpan rs shift s).start ≤ (followSpan rs shift s).stop
  | _, [], _, _, _, _, hs => hs
  | last, r :: rs, shift, s, ⟨h₁, h₂, h₃, h₄⟩, hl, hs => by
    have start_eq : (moved r.start shift : Int) = r.start + shift := Int.toNat_of_nonneg (by omega)
    have stop_eq : (moved r.stop shift : Int) = r.stop + shift := Int.toNat_of_nonneg (by omega)
    have removed_eq : r.removed = r.stop - r.start := rfl
    rw [followSpan_cons (by omega) h₂]
    refine followSpan_ordered h₄ (by omega) ?_
    split
    · dsimp only; omega
    · split
      · dsimp only; omega
      · exact hs

theorem followSpanChecked_eq : ∀ {last : Nat} {rs : List Replacement} {shift : Int} {s : Span}, Fits length last rs →
    0 ≤ last + shift → s.start ≤ s.stop → followSpanChecked rs shift s = some (followSpan rs shift s)
  | _, [], _, _, _, _, _ => rfl
  | last, r :: rs, shift, s, ⟨h₁, h₂, h₃, h₄⟩, hl, hs => by
    have start_eq : (moved r.start shift : Int) = r.start + shift := Int.toNat_of_nonneg (by omega)
    have stop_eq : (moved r.stop shift : Int) = r.stop + shift := Int.toNat_of_nonneg (by omega)
    have hle : moved r.start shift ≤ moved r.stop shift := by omega
    -- the span after this replacement has its ends in order, as the induction hypothesis needs it
    have hone : Fits length last [r] := ⟨h₁, h₂, h₃, trivial⟩
    have hs' := followSpan_ordered hone hl hs
    simp only [followSpan] at hs'
    unfold followSpanChecked followSpan
    rw [moved?_of_le (by omega), moved?_of_le (by omega)]
    simp only [Option.bind_eq_bind, Option.bind_some]
    rw [sub?_of_le hle, Option.bind_some, stretchChecked_eq hle hs, Option.bind_some]
    exact followSpanChecked_eq h₄ (by omega) hs'

def mapSpanChecked (p : Patch) (s : Span) : Option Span := followSpanChecked p.replacements 0 s

theorem mapSpan_ordered (p : Patch) {s : Span} (h : s.start ≤ s.stop) : (p.mapSpan s).start ≤ (p.mapSpan s).stop :=
  followSpan_ordered p.fits (by omega) h

/-- **A span is followed without leaving the text** if its ends are in order. -/
theorem mapSpanChecked_eq (p : Patch) {s : Span} (h : s.start ≤ s.stop) : p.mapSpanChecked s = some (p.mapSpan s) :=
  followSpanChecked_eq p.fits (by omega) h

/-- The end of a reversed span would be moved in front of the text. -/
example : Patch.mapSpanChecked ⟨9, [⟨0, 5, []⟩], by decide, by decide⟩ ⟨7, 3⟩ = none := by decide

def followPosChecked (side : Side) : List Replacement → Int → Nat → Option Nat
  | [], shift, pos => (moved? pos shift).map (min maxOffset)
  | r :: rs, shift, pos =>
    if pos < r.start || (pos = r.start && pos = r.stop && side = .before) then (moved? pos shift).map (min maxOffset)
    else if pos < r.stop || (pos = r.stop && r.start = r.stop) then
      (moved? r.start shift).map fun start =>
        match side with
        | .before => start
        | .after => start + r.inserted.length
    else
      (sub? r.stop r.start).bind fun removed => followPosChecked side rs (shift + r.inserted.length - removed) pos

theorem followPosChecked_eq (side : Side) : ∀ {last : Nat} {rs : List Replacement} {shift : Int} {pos : Nat},
    Fits length last rs → 0 ≤ last + shift → last ≤ pos →
    followPosChecked side rs shift pos = some (followPos side rs shift pos)
  | _, [], _, _, _, _, _ => by rw [followPosChecked, followPos, moved?_of_le (by omega), Option.map_some]
  | last, r :: rs, shift, pos, ⟨h₁, h₂, h₃, h₄⟩, hl, hp => by
    unfold followPosChecked followPos
    split
    · rw [moved?_of_le (by omega), Option.map_some]
    · next hout =>
      split
      · rw [moved?_of_le (by omega), Option.map_some]
        cases side <;> rfl
      · next hin =>
        have hstop : r.stop ≤ pos := by
          simp only [Bool.or_eq_true, decide_eq_true_eq, not_or] at hin
          omega
        rw [sub?_of_le h₂, Option.bind_some, followPosChecked_eq side h₄ (by omega) hstop]
        rfl

def mapPosChecked (p : Patch) (side : Side) (pos : Nat) : Option Nat := followPosChecked side p.replacements 0 pos

theorem mapPosChecked_eq (p : Patch) (side : Side) (pos : Nat) :
    p.mapPosChecked side pos = some (p.mapPos side pos) :=
  followPosChecked_eq side p.fits (by omega) (Nat.zero_le pos)

end Patch
end Shorthand
