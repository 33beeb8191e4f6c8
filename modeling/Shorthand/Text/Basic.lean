/-!
# Text

A text is the list of its chars, and every offset counts chars.  `slice` and `splice` are the two operations on it:
reading what lies between two offsets, and putting something else in its place.
-/
namespace Shorthand

/-- A text: its chars, in order. -/
abbrev Text := List Char

/-- The greatest offset, count and tab stop number that can be written: offsets are words of 64 bits. -/
def maxOffset : Nat := 0xFFFFFFFFFFFFFFFF

namespace Text

/-- The chars from `start` up to `stop`, `stop` excluded. -/
def slice (t : Text) (start stop : Nat) : Text := (t.take stop).drop start

/-- `t` with the chars from `start` up to `stop` replaced by `piece`. -/
def splice (t : Text) (start stop : Nat) (piece : Text) : Text := t.take start ++ (piece ++ t.drop stop)

theorem length_slice (t : Text) (start stop : Nat) : (slice t start stop).length = min stop t.length - start := by
  simp [slice]

theorem getElem?_slice (t : Text) (start stop i : Nat) :
    (slice t start stop)[i]? = if start + i < stop then t[start + i]? else none := by
  unfold slice
  rw [List.getElem?_drop, List.getElem?_take]

/-- A piece is made of the chars between its ends and no others. -/
theorem slice_congr {t t' : Text} {start stop : Nat} (h : ∀ i, start ≤ i → i < stop → t'[i]? = t[i]?) :
    t'.slice start stop = t.slice start stop := by
  refine List.ext_getElem? fun i => ?_
  rw [getElem?_slice, getElem?_slice]
  split
  · next hi => exact h _ (Nat.le_add_right _ _) hi
  · rfl

theorem slice_self (t : Text) (pos : Nat) : t.slice pos pos = [] := by
  unfold slice
  rw [List.drop_eq_nil_iff, List.length_take]
  exact Nat.min_le_left _ _

theorem slice_zero (t : Text) (stop : Nat) : t.slice 0 stop = t.take stop := rfl

theorem slice_length (t : Text) (pos : Nat) : t.slice pos t.length = t.drop pos := by
  unfold slice
  rw [List.take_length]

/-- Two neighbouring pieces are one. -/
theorem slice_append_slice (t : Text) {a b c : Nat} (h : a ≤ b) (h' : b ≤ c) :
    t.slice a b ++ t.slice b c = t.slice a c := by
  have hb : t.take b = (t.take c).take b := by rw [List.take_take, Nat.min_eq_left h']
  have hd : (t.take c).drop b = ((t.take c).drop a).drop (b - a) := by rw [List.drop_drop, Nat.add_sub_cancel' h]
  unfold slice
  rw [hb, hd, List.drop_take]
  exact List.take_append_drop (b - a) ((t.take c).drop a)

/-- A piece that reaches one char further. -/
theorem slice_concat {t : Text} {start i : Nat} {c : Char} (h : start ≤ i) (hc : t[i]? = some c) :
    t.slice start (i + 1) = t.slice start i ++ [c] := by
  have hl : (t.take i).length = i := List.length_take_of_le (Nat.le_of_lt (List.getElem?_eq_some_iff.1 hc).1)
  unfold slice
  rw [List.take_add_one, hc, Option.toList_some, List.drop_append_of_le_length (by rwa [hl])]

theorem length_splice {t : Text} {start stop : Nat} (h : start ≤ stop) (h' : stop ≤ t.length) (piece : Text) :
    (splice t start stop piece).length = t.length + piece.length - (stop - start) := by
  simp only [splice, List.length_append, List.length_take, List.length_drop]
  omega

/-- Nothing in place of nothing. -/
theorem splice_nothing (t : Text) (pos : Nat) : t.splice pos pos [] = t := List.take_append_drop pos t

end Text
end Shorthand
