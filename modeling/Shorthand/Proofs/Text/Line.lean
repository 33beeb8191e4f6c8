import Shorthand.Text.Character
import Shorthand.Text.Line
/-!
# The line of an offset

Between the start of a line and an offset in it no line ends (`not_endsLine_of_lineStart_le`), and the line starts where
one has ended (`endsLine_of_lineStart`).  So all offsets between the two are in one line (`lineStart_eq_of_le`), and
there is no line break between the two but the carriage return of an offset between a carriage return and its line feed,
which are one line end together (`any_isLineBreak_line`).
-/
namespace Shorthand.Text

/-- The offset is between a carriage return and the line feed that belongs to it. -/
def cutsLineEnd (t : Text) (pos : Nat) : Bool := 0 < pos && t[pos - 1]? = some '\r' && t[pos]? = some '\n'

theorem isLineBreak_iff {c : Char} : isLineBreak c = true ↔ c = '\n' ∨ c = '\r' := by
  unfold isLineBreak
  rw [Bool.or_eq_true, decide_eq_true_eq, decide_eq_true_eq]

theorem any_isLineBreak_iff {t : Text} : t.any isLineBreak = true ↔ '\n' ∈ t ∨ '\r' ∈ t := by
  simp only [List.any_eq_true, isLineBreak_iff, and_or_left, exists_or, exists_eq_right]

theorem isBlank_of_isLineBreak {c : Char} (h : isLineBreak c = true) : isBlank c = true := by
  rcases isLineBreak_iff.1 h with rfl | rfl <;> decide

theorem endsLine_drop (t : Text) (j : Nat) (c : Char) :
    endsLine c (t.drop (j + 1)) = (isLineEnd c && !(c = '\r' && t[j + 1]? = some '\n')) := by
  unfold endsLine
  rw [List.head?_drop]

theorem not_endsLine_of_lineStart_le (t : Text) (pos : Nat) {j : Nat} {c : Char} (hs : lineStart t pos ≤ j)
    (hj : j < pos) (hc : t[j]? = some c) : endsLine c (t.drop (j + 1)) = false := by
  induction t generalizing pos j with
  | nil => simp at hc
  | cons a t ih =>
    cases pos with
    | zero => omega
    | succ pos =>
      unfold lineStart at hs
      cases j with
      | zero =>
        simp only [List.getElem?_cons_zero, Option.some.injEq] at hc
        subst hc
        -- nothing ends before `pos` in the rest, and the line starts in front of `a`
        split at hs
        · by_cases he : endsLine a t = true
          · rw [if_pos he] at hs
            omega
          · simpa using he
        · omega
      | succ j =>
        rw [List.getElem?_cons_succ] at hc
        have hs' : lineStart t pos ≤ j := by
          split at hs <;> omega
        exact ih pos hs' (by omega) hc

theorem endsLine_of_lineStart (t : Text) (pos : Nat) {k : Nat} (h : lineStart t pos = k + 1) :
    ∃ c, t[k]? = some c ∧ endsLine c (t.drop (k + 1)) = true := by
  induction t generalizing pos k with
  | nil => cases pos <;> simp [lineStart] at h
  | cons a t ih =>
    cases pos with
    | zero => simp [lineStart] at h
    | succ pos =>
      unfold lineStart at h
      split at h
      · by_cases he : endsLine a t = true
        · rw [if_pos he] at h
          obtain rfl : k = 0 := by omega
          exact ⟨a, rfl, he⟩
        · rw [if_neg he] at h
          omega
      · next start hs =>
        obtain rfl : k = start + 1 := by omega
        exact ih pos hs

/-- No line of the text starts within the line before `pos`. -/
theorem lineStart_le_of_le {t : Text} {pos other : Nat} (h : lineStart t other ≤ pos) :
    lineStart t other ≤ lineStart t pos := by
  refine Nat.le_of_not_lt fun hlt => ?_
  -- right before that start a line would end
  obtain ⟨k, hk⟩ := Nat.exists_eq_succ_of_ne_zero (Nat.ne_zero_of_lt hlt)
  obtain ⟨c, hc, hend⟩ := endsLine_of_lineStart t other hk
  rw [not_endsLine_of_lineStart_le t pos (by omega) (by omega) hc] at hend
  cases hend

/-- **Every offset of a line has its start.** -/
theorem lineStart_eq_of_le {t : Text} {pos before : Nat} (hs : lineStart t pos ≤ before) (hb : before ≤ pos) :
    lineStart t before = lineStart t pos :=
  Nat.le_antisymm (lineStart_le_of_le (Nat.le_trans (lineStart_le t before) hb)) (lineStart_le_of_le hs)

theorem lineFeed_not_in_line {t : Text} {pos j : Nat} (hs : lineStart t pos ≤ j) (hj : j < pos) :
    t[j]? ≠ some '\n' := by
  intro hc
  have h := not_endsLine_of_lineStart_le t pos hs hj hc
  rw [endsLine_drop] at h
  simp [isLineEnd] at h

/-- A carriage return in the line before `pos` is right there, with its line feed behind. -/
theorem carriageReturn_in_line {t : Text} {pos j : Nat} (hs : lineStart t pos ≤ j) (hj : j < pos)
    (hc : t[j]? = some '\r') : j + 1 = pos ∧ t[pos]? = some '\n' := by
  have h := not_endsLine_of_lineStart_le t pos hs hj hc
  rw [endsLine_drop] at h
  have hf : t[j + 1]? = some '\n' := by simpa [isLineEnd] using h
  by_cases hpos : j + 1 = pos
  · exact ⟨hpos, hpos ▸ hf⟩
  · have hlt : j + 1 < pos := by omega
    exact absurd hf (lineFeed_not_in_line (Nat.le_succ_of_le hs) hlt)

theorem lineStart_lt_of_cutsLineEnd {t : Text} {pos : Nat} (h : t.cutsLineEnd pos = true) : lineStart t pos < pos := by
  unfold cutsLineEnd at h
  simp only [Bool.and_eq_true, decide_eq_true_eq] at h
  obtain ⟨⟨hpos, hr⟩, hf⟩ := h
  refine Nat.lt_of_le_of_ne (lineStart_le t pos) fun he => ?_
  -- the line would start between the two, where none ends
  obtain ⟨k, rfl⟩ := Nat.exists_eq_succ_of_ne_zero (Nat.ne_of_gt hpos)
  obtain ⟨c, hc, hend⟩ := endsLine_of_lineStart t (k + 1) he
  rw [Nat.succ_sub_one, hc, Option.some.injEq] at hr
  rw [endsLine_drop, hr, hf] at hend
  simp at hend

theorem mem_slice_iff {t : Text} {start stop : Nat} {c : Char} :
    c ∈ t.slice start stop ↔ ∃ j, start ≤ j ∧ j < stop ∧ t[j]? = some c := by
  rw [List.mem_iff_getElem?]
  constructor
  · rintro ⟨k, hk⟩
    rw [getElem?_slice] at hk
    split at hk
    · next hlt => exact ⟨start + k, Nat.le_add_right _ _, hlt, hk⟩
    · cases hk
  · rintro ⟨j, hs, hj, hc⟩
    obtain ⟨k, rfl⟩ := Nat.exists_eq_add_of_le hs
    refine ⟨k, ?_⟩
    rw [getElem?_slice, if_pos hj, hc]

theorem length_line {t : Text} {pos : Nat} (h : pos ≤ t.length) :
    (t.slice (lineStart t pos) pos).length = pos - lineStart t pos := by
  rw [length_slice, Nat.min_eq_left h]

theorem take_line {t : Text} {pos : Nat} (h : pos ≤ t.length) :
    (t.slice (lineStart t pos) pos).take (pos - lineStart t pos) = t.slice (lineStart t pos) pos :=
  List.take_of_length_le (Nat.le_of_eq (length_line h))

theorem getLast?_line {t : Text} {pos : Nat} (h : t.cutsLineEnd pos = true) :
    (t.slice (lineStart t pos) pos).getLast? = some '\r' := by
  have hs := lineStart_lt_of_cutsLineEnd h
  unfold cutsLineEnd at h
  simp only [Bool.and_eq_true, decide_eq_true_eq] at h
  obtain ⟨⟨hpos, hr⟩, hf⟩ := h
  have hlt : pos < t.length := (List.getElem?_eq_some_iff.1 hf).1
  have hlast : lineStart t pos + (min pos t.length - lineStart t pos - 1) = pos - 1 := by omega
  rw [List.getLast?_eq_getElem?, length_slice, getElem?_slice, hlast, if_pos (by omega), hr]

/-- **The line of `pos` has a line break before `pos` just if `pos` is within a line end.** -/
theorem any_isLineBreak_line (t : Text) (pos : Nat) :
    (t.slice (lineStart t pos) pos).any isLineBreak = t.cutsLineEnd pos := by
  rw [Bool.eq_iff_iff, List.any_eq_true]
  constructor
  · rintro ⟨c, hm, hb⟩
    obtain ⟨j, hs, hj, hc⟩ := mem_slice_iff.1 hm
    rcases isLineBreak_iff.1 hb with rfl | rfl
    · exact absurd hc (lineFeed_not_in_line hs hj)
    · obtain ⟨hpos, hf⟩ := carriageReturn_in_line hs hj hc
      have hr : t[pos - 1]? = some '\r' := by rwa [← hpos, Nat.add_sub_cancel]
      have hlt : 0 < pos := by omega
      simp [cutsLineEnd, hlt, hr, hf]
  · intro h
    exact ⟨'\r', List.mem_of_getLast? (getLast?_line h), rfl⟩

end Shorthand.Text
