import Shorthand.Proofs.Tracking.Checked
/-!
# Where tracking starts, in the text

Whether the char typed before `pos` starts an abbreviation is told by a window on the few chars in front of `pos`: a
char that may open an abbreviation, behind a word bound or at the start of the text, or else the marker that leads
abbreviations in and a char that may follow it (`IsWindow`).  `OpensAt` tells the same by offsets
(`opensAt_iff_isWindow`), and so does the search for a start: one equation says all that it finds
(`trackingStart?_eq_ite`).  It looks at the window, at one char behind it for the closer of an opener, and at nothing
else (`trackingStart?_congr`).
-/
namespace Shorthand

open Text (closerOf isAbbreviationStart isMarkedStart isWordBound)

variable {t t' : Text} {pos before : Nat} {lead : Option Text} {typed : Char}

/-! ## Windows -/

/-- **The char before `pos` opens an abbreviation in `t`**: at the start of the text or behind a word bound, or else
right behind the marker that leads abbreviations in. -/
def OpensAt (t : Text) (pos : Nat) : Option Text → Prop
  | none => t[pos - 1]?.any isAbbreviationStart = true ∧ (pos = 1 ∨ t[pos - 2]?.any isWordBound = true)
  | some lead =>
    lead.length < pos ∧ t.slice (pos - 1 - lead.length) (pos - 1) = lead ∧ t[pos - 1]?.any isMarkedStart = true

instance (t : Text) (pos : Nat) : (lead : Option Text) → Decidable (OpensAt t pos lead)
  | none => inferInstanceAs (Decidable (_ ∧ _))
  | some _ => inferInstanceAs (Decidable (_ ∧ _ ∧ _))

/-- **An opener stands before `pos`, and its closer behind.** -/
def PairedAt (t : Text) (pos : Nat) : Prop := ∃ close ∈ t[pos - 1]?.bind closerOf, t[pos]? = some close

instance (t : Text) (pos : Nat) : Decidable (PairedAt t pos) := Option.decidableExistsMem _

/-- **The text right before a caret lets an abbreviation start with its last char.**  A window of one char is all that
there is at the start of a text. -/
def IsWindow : Option Text → Text → Prop
  | none, w => ∃ c, isAbbreviationStart c = true ∧ (w = [c] ∨ ∃ b, isWordBound b = true ∧ w = [b, c])
  | some lead, w => ∃ c, isMarkedStart c = true ∧ w = lead ++ [c]

/-- How many chars a window has where the text reaches back as far. -/
def windowSize : Option Text → Nat
  | none => 2
  | some lead => lead.length + 1

theorem opensAt_none_iff_isWindow (h : t[before]? = some typed) :
    OpensAt t (before + 1) none ↔ IsWindow none (t.slice (before - 1) (before + 1)) := by
  have hw := Text.slice_concat (Nat.sub_le before 1) h
  unfold OpensAt IsWindow
  rw [Nat.add_sub_cancel, h, Option.any_some, hw]
  cases before with
  | zero =>
    rw [Text.slice_self]
    simp
  | succ n =>
    have hn : n < t.length := Nat.lt_of_succ_lt (List.getElem?_eq_some_iff.1 h).1
    have hb : t[n]? = some t[n] := List.getElem?_eq_getElem hn
    rw [Nat.add_sub_cancel, Text.slice_concat (Nat.le_refl n) hb, Text.slice_self]
    change _ ∧ (n + 1 + 1 = 1 ∨ t[n]?.any isWordBound = true) ↔ _
    rw [hb, Option.any_some]
    constructor
    · rintro ⟨hs, hfirst | hbound⟩
      · cases hfirst
      · exact ⟨typed, hs, .inr ⟨_, hbound, rfl⟩⟩
    · rintro ⟨c, hs, he | ⟨b, hbound, he⟩⟩ <;> cases he
      exact ⟨hs, .inr hbound⟩

theorem opensAt_some_iff_isWindow (h : t[before]? = some typed) (lead : Text) :
    OpensAt t (before + 1) (some lead) ↔ IsWindow (some lead) (t.slice (before - lead.length) (before + 1)) := by
  have hw := Text.slice_concat (Nat.sub_le before lead.length) h
  unfold OpensAt IsWindow
  rw [Nat.add_sub_cancel, h, Option.any_some, hw]
  constructor
  · rintro ⟨-, hl, hs⟩
    exact ⟨typed, hs, by rw [hl]⟩
  · rintro ⟨c, hs, he⟩
    obtain ⟨hl, hc⟩ := List.append_inj' he rfl
    obtain rfl : typed = c := List.singleton_inj.1 hc
    refine ⟨?_, hl, hs⟩
    -- a text that does not reach back as far has a shorter window
    have hlen : lead.length ≤ before := by
      rw [← hl, Text.length_slice]
      omega
    exact Nat.lt_succ_of_le hlen

/-- **The two ways of telling a window say the same.** -/
theorem opensAt_iff_isWindow (hpos : 0 < pos) (hle : pos ≤ t.length) (lead : Option Text) :
    OpensAt t pos lead ↔ IsWindow lead (t.slice (pos - windowSize lead) pos) := by
  obtain ⟨before, rfl⟩ := Nat.exists_eq_succ_of_ne_zero (Nat.ne_of_gt hpos)
  have h : t[before]? = some t[before] := List.getElem?_eq_getElem hle
  cases lead with
  | none => exact opensAt_none_iff_isWindow h
  | some lead =>
    have hs : before.succ - windowSize (some lead) = before - lead.length := Nat.add_sub_add_right before 1 lead.length
    rw [hs]
    exact opensAt_some_iff_isWindow h lead

theorem IsWindow.ne_nil {w : Text} (h : IsWindow lead w) : w ≠ [] := by
  cases lead with
  | none =>
    obtain ⟨c, -, rfl | ⟨b, -, rfl⟩⟩ := h
    · exact List.cons_ne_nil _ _
    · exact List.cons_ne_nil _ _
  | some lead =>
    obtain ⟨c, -, rfl⟩ := h
    exact List.append_ne_nil_of_right_ne_nil lead (List.cons_ne_nil _ _)

/-! ## What is found -/

/-- **Tracking may start with the char before `pos`.** -/
def StartsAt (t : Text) (pos : Nat) (lead : Option Text) : Prop := 0 < pos ∧ pos ≤ t.length ∧ OpensAt t pos lead

instance (t : Text) (pos : Nat) (lead : Option Text) : Decidable (StartsAt t pos lead) :=
  inferInstanceAs (Decidable (_ ∧ _ ∧ _))

theorem startsAt_iff_isWindow (t : Text) (pos : Nat) (lead : Option Text) :
    StartsAt t pos lead ↔ pos ≤ t.length ∧ IsWindow lead (t.slice (pos - windowSize lead) pos) := by
  constructor
  · rintro ⟨hpos, hle, ho⟩
    exact ⟨hle, (opensAt_iff_isWindow hpos hle lead).1 ho⟩
  · rintro ⟨hle, hw⟩
    have hpos : 0 < pos := by
      refine Nat.pos_of_ne_zero fun hz => hw.ne_nil ?_
      rw [hz, Nat.zero_sub, Text.slice_self]
    exact ⟨hpos, hle, (opensAt_iff_isWindow hpos hle lead).2 hw⟩

/-! The same tests as the search makes them, told of the char typed. -/

theorem pairedAt_succ_iff (h : t[before]? = some typed) :
    PairedAt t (before + 1) ↔ ((closerOf typed).isSome && t[before + 1]? = closerOf typed) = true := by
  unfold PairedAt
  rw [Nat.add_sub_cancel, h, Option.bind_some]
  cases closerOf typed <;> simp

theorem opensAt_none_iff (h : t[before]? = some typed) : OpensAt t (before + 1) none ↔
    ((before = 0 || t[before - 1]?.any isWordBound) && isAbbreviationStart typed) = true := by
  unfold OpensAt
  rw [Nat.add_sub_cancel, h]
  simp [and_comm]

theorem opensAt_some_iff (h : t[before]? = some typed) (lead : Text) :
    OpensAt t (before + 1) (some lead) ↔
      (lead.length ≤ before && t.slice (before - lead.length) before = lead && isMarkedStart typed) = true := by
  unfold OpensAt
  dsimp only
  rw [Nat.add_sub_cancel, h, Nat.lt_add_one_iff]
  simp [and_assoc]

/-- **All that is found**, as one equation: nothing, or the stretch from the marker on, up to behind the closer of an
opener. -/
theorem trackingStart?_eq_ite (t : Text) (pos : Nat) (lead : Option Text) :
    trackingStart? t pos lead =
      if StartsAt t pos lead then
        let offset := (lead.map List.length).getD 0
        some ⟨⟨pos - 1 - offset, if PairedAt t pos then pos + 1 else pos⟩, offset⟩
      else none := by
  unfold trackingStart?
  cases pos with
  | zero => rfl
  | succ before =>
    dsimp only
    cases h : t[before]? with
    | none =>
      have hl : ¬ before + 1 ≤ t.length := Nat.not_le_of_lt (Nat.lt_succ_of_le (List.getElem?_eq_none_iff.1 h))
      rw [if_neg fun hin => hl hin.2.1]
    | some typed =>
      have hin : StartsAt t (before + 1) lead ↔ OpensAt t (before + 1) lead :=
        ⟨fun h => h.2.2, fun ho => ⟨Nat.succ_pos _, (List.getElem?_eq_some_iff.1 h).1, ho⟩⟩
      have hstop : (if (closerOf typed).isSome && t[before + 1]? = closerOf typed then before + 2 else before + 1) =
          if PairedAt t (before + 1) then before + 1 + 1 else before + 1 :=
        if_congr (pairedAt_succ_iff h).symm rfl rfl
      dsimp only
      rw [hstop]
      cases lead with
      | none => exact if_congr (hin.trans (opensAt_none_iff h)).symm rfl rfl
      | some lead => exact if_congr (hin.trans (opensAt_some_iff h lead)).symm rfl rfl

/-- Another bracket's closer does not belong to the stretch. -/
example : trackingStart? " (]".toList 2 none = some ⟨⟨1, 2⟩, 0⟩ := by decide +kernel

theorem isSome_trackingStart? (t : Text) (pos : Nat) (lead : Option Text) :
    (trackingStart? t pos lead).isSome = true ↔ StartsAt t pos lead := by
  rw [trackingStart?_eq_ite]
  by_cases h : StartsAt t pos lead <;> simp [h]

theorem trackingStart?_eq_some {found : TrackingStart} (h : trackingStart? t pos lead = some found) :
    StartsAt t pos lead ∧ found.offset = (lead.map List.length).getD 0 ∧ found.span.start = pos - 1 - found.offset ∧
      found.span.stop = if PairedAt t pos then pos + 1 else pos := by
  rw [trackingStart?_eq_ite] at h
  split at h
  · next hs =>
    cases h
    exact ⟨hs, rfl, rfl, rfl⟩
  · cases h

/-- The text reaches back to where the marker begins. -/
theorem StartsAt.offset_lt : ∀ {lead : Option Text}, StartsAt t pos lead → (lead.map List.length).getD 0 < pos
  | none, ⟨hpos, _, _⟩ => hpos
  | some _, ⟨_, _, hlt, _, _⟩ => hlt

theorem PairedAt.lt_length (h : PairedAt t pos) : pos < t.length := by
  obtain ⟨close, -, hc⟩ := h
  exact (List.getElem?_eq_some_iff.1 hc).1

/-! ## What is looked at -/

section

-- two texts that agree as far in front of `pos` as a marker and one char go, or as two chars go
variable (h : ∀ i, pos - max ((lead.map List.length).getD 0) 1 - 1 ≤ i → i < pos → t'[i]? = t[i]?)
include h

/-- **Whether tracking starts depends on the window only.** -/
theorem startsAt_congr : StartsAt t' pos lead ↔ StartsAt t pos lead := by
  have hsize : windowSize lead ≤ max ((lead.map List.length).getD 0) 1 + 1 := by
    cases lead with
    | none => exact Nat.le_refl 2
    | some lead => exact Nat.succ_le_succ (Nat.le_max_left _ _)
  have hwindow : t'.slice (pos - windowSize lead) pos = t.slice (pos - windowSize lead) pos :=
    Text.slice_congr fun i hi hlt => h i (by omega) hlt
  have hlength : pos ≤ t'.length ↔ pos ≤ t.length := by
    cases pos with
    | zero => exact iff_of_true (Nat.zero_le _) (Nat.zero_le _)
    | succ before =>
      have hlast : t'[before]? = t[before]? := h before (by omega) (Nat.lt_succ_self before)
      have hbehind : t'.length ≤ before ↔ t.length ≤ before := by
        rw [← List.getElem?_eq_none_iff, hlast, List.getElem?_eq_none_iff]
      omega
  rw [startsAt_iff_isWindow, startsAt_iff_isWindow, hwindow, hlength]

theorem pairedAt_congr (h' : t'[pos]? = t[pos]?) : PairedAt t' pos ↔ PairedAt t pos := by
  have hlast : t'[pos - 1]? = t[pos - 1]? := by
    cases pos with
    | zero => exact h'
    | succ before => exact h before (by omega) (Nat.lt_succ_self before)
  unfold PairedAt
  rw [hlast, h']

/-- **What is found depends on the window and the char behind it only.** -/
theorem trackingStart?_congr (h' : t'[pos]? = t[pos]?) : trackingStart? t' pos lead = trackingStart? t pos lead := by
  rw [trackingStart?_eq_ite, trackingStart?_eq_ite]
  refine if_congr (startsAt_congr h) ?_ rfl
  dsimp only
  rw [if_congr (pairedAt_congr h h') rfl rfl]

/-- Where the stretch to track starts is told without the char behind the window. -/
theorem start_trackingStart?_congr :
    (trackingStart? t' pos lead).map (fun found => (found.span.start, found.offset)) =
      (trackingStart? t pos lead).map fun found => (found.span.start, found.offset) := by
  rw [trackingStart?_eq_ite, trackingStart?_eq_ite, apply_ite (Option.map _), apply_ite (Option.map _)]
  exact if_congr (startsAt_congr h) rfl rfl

end

/-- **Tracking starts just where the window in front of `pos` lets an abbreviation start**, told by offsets or by what
the window holds.  The stretch to track begins with the marker and ends behind the char typed, or behind the closer that
follows it if it is an opener; it has `pos` in it and lies in the text.  Where it starts depends on the window only, and
all of it on the window and the char behind, and no offset is out of range. -/
theorem trackingStart?_in_window (t : Text) (pos : Nat) (lead : Option Text) :
    let offset := (lead.map List.length).getD 0
    ((trackingStart? t pos lead).isSome = true ↔ 0 < pos ∧ pos ≤ t.length ∧ OpensAt t pos lead) ∧
      ((trackingStart? t pos lead).isSome = true ↔
        pos ≤ t.length ∧ IsWindow lead (t.slice (pos - windowSize lead) pos)) ∧
      (∀ found ∈ trackingStart? t pos lead,
        found.offset = offset ∧ found.span.start + found.offset = pos - 1 ∧
          found.span.stop = (if PairedAt t pos then pos + 1 else pos) ∧
          found.span.start ≤ pos ∧ pos ≤ found.span.stop ∧ found.span.stop ≤ t.length) ∧
      (∀ t' : Text, (∀ i, pos - max offset 1 - 1 ≤ i → i < pos → t'[i]? = t[i]?) →
        (trackingStart? t' pos lead).map (fun found => (found.span.start, found.offset)) =
            (trackingStart? t pos lead).map (fun found => (found.span.start, found.offset)) ∧
          (t'[pos]? = t[pos]? → trackingStart? t' pos lead = trackingStart? t pos lead)) ∧
      trackingStartChecked? t pos lead = some (trackingStart? t pos lead) := by
  intro offset
  have hsome := isSome_trackingStart? t pos lead
  refine ⟨hsome, hsome.trans (startsAt_iff_isWindow t pos lead), fun found hf => ?_,
    fun t' h => ⟨start_trackingStart?_congr h, trackingStart?_congr h⟩, trackingStartChecked?_eq t pos lead⟩
  obtain ⟨hs, ho, hstart, hstop⟩ := trackingStart?_eq_some hf
  have hlt : found.offset < pos := by rw [ho]; exact hs.offset_lt
  refine ⟨ho, by omega, hstop, by omega, ?_⟩
  rw [hstop]
  split
  · next hp => exact ⟨Nat.le_succ pos, hp.lt_length⟩
  · exact ⟨Nat.le_refl pos, hs.2.1⟩

/-- Around a bracket behind its marker, with all else in the text put another way. -/
theorem trackingStart?_in_window_of_brackets :
    let t := "ab <()".toList
    let t' := "> x<()y".toList
    (∀ i, 5 - max 1 1 - 1 ≤ i → i < 5 → t'[i]? = t[i]?) ∧ t'[5]? = t[5]? ∧
      trackingStart? t 5 (some ['<']) = some ⟨⟨3, 6⟩, 1⟩ ∧
      trackingStart? t' 5 (some ['<']) = trackingStart? t 5 (some ['<']) := by
  intro t t'
  have hwindow : ∀ i, 5 - max 1 1 - 1 ≤ i → i < 5 → t'[i]? = t[i]? := by
    intro i hi hlt
    obtain rfl | rfl : i = 3 ∨ i = 4 := by omega
    · rfl
    · rfl
  have hbehind : t'[5]? = t[5]? := rfl
  obtain ⟨-, -, -, hlocal, -⟩ := trackingStart?_in_window t 5 (some ['<'])
  exact ⟨hwindow, hbehind, by decide +kernel, (hlocal t' hwindow).2 hbehind⟩

end Shorthand
