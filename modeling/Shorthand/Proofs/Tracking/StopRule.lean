import Shorthand.Proofs.Abbreviation.Beginning
import Shorthand.Proofs.Session.Sound
import Shorthand.Proofs.Text.Line
import Shorthand.Proofs.Tracking.Checked
/-!
# Where tracking stops, in the text

A tracker counts the closers at the end of what it has read, backwards, and takes their number off the end of its
region.  Whatever the grammar is, that is where the longest run of closers begins that ends the abbreviation in the text
(`closersFrom_trailingClosers`), and the tracker ends by a rule about the text alone (`stopReason?_reread`).
-/
namespace Shorthand

open Text (isCloser isLineBreak trailingClosers)

variable {text : Text} {s : Span} {pos pos' : Nat}

/-- **The closers at the end of the stretch `s` of `text` begin at `pos`**: from there on it has nothing else, and it
begins there or has something else right before. -/
def ClosersFrom (text : Text) (s : Span) (pos : Nat) : Prop :=
  s.start ≤ pos ∧ pos ≤ s.stop ∧ (text.slice pos s.stop).all isCloser = true ∧
    (pos = s.start ∨ text[pos - 1]?.any isCloser = false)

instance (text : Text) (s : Span) (pos : Nat) : Decidable (ClosersFrom text s pos) :=
  inferInstanceAs (Decidable (_ ∧ _ ∧ _ ∧ _))

/-- Why a tracker of the abbreviation at `s` is to end with the caret at `pos`, if it is. -/
def stopRule? (read : Reader) (text : Text) (s : Span) (forced : Bool) (pos : Nat) : Option StopReason :=
  let abbreviation := text.slice s.start s.stop
  if forced then none
  else if s.start = s.stop then some .empty
  else if '\n' ∈ abbreviation ∨ '\r' ∈ abbreviation then some .lineBreak
  else
    match read abbreviation with
    | .ok _ => none
    | .error _ =>
      if pos = s.stop then some .invalidEnd
      else if pos < s.stop ∧ ClosersFrom text s pos then some .invalidBeforeClosers
      else none

/-! ## The run of closers -/

theorem ClosersFrom.le (hs : s.Within text.length) (h : ClosersFrom text s pos) (h' : ClosersFrom text s pos') :
    pos ≤ pos' := by
  obtain ⟨-, hstop, -, hbefore⟩ := h
  obtain ⟨hstart, -, hall, -⟩ := h'
  refine Nat.le_of_not_lt fun hlt => ?_
  -- the char right before `pos` is in the other run
  have hin : pos - 1 < text.length := Nat.lt_of_lt_of_le (by omega) hs.2
  have hc : text[pos - 1]? = some text[pos - 1] := List.getElem?_eq_getElem hin
  have hcloser := List.all_eq_true.1 hall _ (Text.mem_slice_iff.2 ⟨pos - 1, by omega, by omega, hc⟩)
  rcases hbefore with rfl | hbefore
  · exact absurd hstart (Nat.not_le_of_lt hlt)
  · rw [hc, Option.any_some, hcloser] at hbefore
    cases hbefore

theorem ClosersFrom.eq (hs : s.Within text.length) (h : ClosersFrom text s pos) (h' : ClosersFrom text s pos') :
    pos = pos' :=
  Nat.le_antisymm (h.le hs h') (h'.le hs h)

/-- **The closers counted backwards are the run of closers at the end.** -/
theorem closersFrom_trailingClosers (hs : s.Within text.length) :
    ClosersFrom text s (s.stop - trailingClosers (text.slice s.start s.stop)) := by
  obtain ⟨front, run, he, hr, hrun, hfront⟩ := Abbreviation.exists_last_run isCloser (text.slice s.start s.stop)
  have hcount : trailingClosers (text.slice s.start s.stop) = run.length := by
    rw [← hr, List.length_reverse]
    rfl
  obtain ⟨hle, hstop⟩ := hs
  have hlen : front.length + run.length = s.stop - s.start := by
    rw [← List.length_append, ← he, Text.length_slice, Nat.min_eq_left hstop]
  rw [hcount]
  -- the place divides the stretch into what is in front of the run and the run
  obtain ⟨hf, hr⟩ : text.slice s.start (s.stop - run.length) = front ∧
      text.slice (s.stop - run.length) s.stop = run := by
    refine List.append_inj ?_ ?_
    · rw [Text.slice_append_slice text (by omega) (Nat.sub_le _ _), he]
    · rw [Text.length_slice]
      omega
  refine ⟨by omega, Nat.sub_le _ _, ?_, ?_⟩
  · rw [hr]
    exact List.all_eq_true.2 hrun
  by_cases hstart : s.stop - run.length = s.start
  · exact .inl hstart
  · have hlast : front.getLast? = text[s.stop - run.length - 1]? := by
      rw [← hf, List.getLast?_eq_getElem?, Text.length_slice, Text.getElem?_slice, if_pos (by omega)]
      congr 1
      omega
    refine .inr ((Option.any_eq_false _ _).2 fun c hc => ?_)
    exact hfront c (hlast.trans hc)

theorem sub_trailingClosers_eq_iff (hs : s.Within text.length) :
    s.stop - trailingClosers (text.slice s.start s.stop) = pos ↔ ClosersFrom text s pos := by
  have h := closersFrom_trailingClosers hs
  constructor
  · rintro rfl
    exact h
  · exact h.eq hs

/-! ## The rule -/

namespace Tracker

variable {t : Tracker}

theorem stopReason?_eq_stopRule? {read : Reader} (hs : s.Within text.length) (hstop : t.region.stop = s.stop)
    (hr : t.reading = .of read (text.slice s.start s.stop)) (pos : Nat) :
    t.stopReason? pos = stopRule? read text s t.forced pos := by
  have hlen : (text.slice s.start s.stop).length = s.stop - s.start := by
    rw [Text.length_slice, Nat.min_eq_left hs.2]
  have hrun : s.stop - trailingClosers (text.slice s.start s.stop) = pos ↔ ClosersFrom text s pos :=
    sub_trailingClosers_eq_iff hs
  unfold stopReason? stopRule?
  dsimp only
  rw [hr, hstop]
  generalize text.slice s.start s.stop = abbreviation at hlen hrun ⊢
  by_cases hforced : t.forced = true
  · rw [if_pos hforced, if_pos hforced]
  rw [if_neg hforced, if_neg hforced]
  by_cases hempty : s.start = s.stop
  · rw [if_pos hempty, List.length_eq_zero_iff.1 (by omega : abbreviation.length = 0)]
    rfl
  rw [if_neg hempty]
  have hn : abbreviation ≠ [] := List.ne_nil_of_length_pos (by have := hs.1; omega)
  cases hread : read abbreviation with
  | ok nodes =>
    rw [Reading.of_ok hn hread]
    dsimp only
    by_cases hline : abbreviation.any isLineBreak = true
    · rw [if_pos hline, if_pos (Text.any_isLineBreak_iff.1 hline)]
    · rw [if_neg hline, if_neg (mt Text.any_isLineBreak_iff.2 hline)]
  | error error =>
    rw [Reading.of_error hn hread]
    dsimp only
    by_cases hline : abbreviation.any isLineBreak = true
    · rw [if_pos hline, if_pos (Text.any_isLineBreak_iff.1 hline)]
    rw [if_neg hline, if_neg (mt Text.any_isLineBreak_iff.2 hline)]
    by_cases hend : pos = s.stop
    · rw [if_pos hend.symm, if_pos hend]
    rw [if_neg (Ne.symm hend), if_neg hend]
    by_cases hcloser : ClosersFrom text s pos
    · have hlt : pos < s.stop := Nat.lt_of_le_of_ne hcloser.2.1 hend
      rw [if_pos (hrun.2 hcloser), if_pos ⟨hlt, hcloser⟩]
    · rw [if_neg (mt hrun.1 hcloser), if_neg fun h => hcloser h.2]

/-- **A tracker that has read its stretch of the text ends by the rule**, and the closers at the end of what it has read
are no more than there are chars in front of the end of its region. -/
theorem stopReason?_reread (read : Reader) (hw : t.region.Within text.length) (pos : Nat) :
    let r := t.reread read text
    trailingClosers r.reading.text ≤ r.region.stop ∧ r.stopReason? pos =
      stopRule? read text ⟨min (t.region.start + t.offset) t.region.stop, t.region.stop⟩ t.forced pos := by
  have hr := reading_reread read hw
  rw [textIn_abbreviationSpan] at hr
  refine ⟨Nat.le_trans (Text.trailingClosers_le _) (length_reading_reread read t text), ?_⟩
  exact stopReason?_eq_stopRule? (t := t.reread read text) (s := ⟨_, t.region.stop⟩) ⟨Nat.min_le_right _ _, hw.2⟩ rfl
    hr pos

theorem stopReason?_reread_in_brackets :
    let t : Tracker := { region := ⟨2, 10⟩, offset := 1 }
    let r := t.reread Abbreviation.read "x <a[b(+)] y".toList
    t.region.Within "x <a[b(+)] y".toList.length ∧ trailingClosers r.reading.text ≤ r.region.stop ∧
      r.stopReason? 8 = some .invalidBeforeClosers := by
  intro t r
  have hw : t.region.Within "x <a[b(+)] y".toList.length := by decide
  have h := stopReason?_reread Abbreviation.read hw 8
  exact ⟨hw, h.1, h.2.trans (by decide +kernel)⟩

/-- Where there is nothing but closers, they begin with the abbreviation. -/
example : stopRule? Abbreviation.read ")]".toList ⟨0, 2⟩ false 0 =
    some .invalidBeforeClosers := by decide +kernel

end Tracker
end Shorthand
