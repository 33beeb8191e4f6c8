import Mathlib.Data.List.Infix
import Shorthand.Proofs.Document.Typing
import Shorthand.Proofs.Session.Rewind
import Shorthand.Proofs.Text.Brackets
/-!
# Typing an abbreviation

An abbreviation typed where typing is tracked from (`Poised`) is tracked from its first char on, and the region grows
with every char: by the char, by the closer that comes along with a bracket, and not at all where a closer is stepped
over.  `Tracks` says what is so after each keystroke; the first char brings it about, every further one keeps it, and so
it holds when all of the abbreviation has been typed (`typed_is_tracked`).
-/
namespace Shorthand

open Text (closerOf isCloser isAlphanumeric isLineBreak due Balanced isWordBound isAbbreviationStart isMarkedStart)

namespace Session

variable {s s' : Session} {t : Tracker} {before behind w : Text} {c : Char}

/-! ## Keeping what is tracked -/

theorem startIfTyped_of_some (h : s.tracker? = some t) : s.startIfTyped = s := by
  unfold startIfTyped
  rw [h]

/-- Where the caret has gone one char on, behind what opens an abbreviation, that is tracked. -/
theorem startIfTyped_of_found (h : s.tracker? = none) {last : Nat}
    (hl : s.service.carets.get? s.document.id = some last) (hc : last + 1 = s.document.caret)
    (ha : s.service.allowsTracking = true) {found : TrackingStart}
    (hf : trackingStart? s.document.text s.document.caret s.service.lead? = some found) :
    s.startIfTyped = s.start found.span false found.offset
      (s.optionsAt found.span.start (s.service.settings.capturesContext s.document.length)) := by
  unfold startIfTyped
  rw [h, hl]
  dsimp only
  rw [if_pos (by rw [ha, Bool.and_true]; exact decide_eq_true hc)]
  unfold startTyped?
  rw [hf]
  rfl

theorem stopIfInvalid_of_valid (h : s.tracker? = some t) {text : Text} {nodes : List Abbreviation.Node}
    (hr : t.reading = .valid text nodes) (hb : text.any isLineBreak = false) : s.stopIfInvalid = s := by
  have hn : t.stopReason? s.document.caret = none := by
    unfold Tracker.stopReason?
    split
    · rfl
    · rw [hr]
      dsimp only
      rw [if_neg (by rw [hb]; exact Bool.false_ne_true)]
  unfold stopIfInvalid
  rw [h, Option.bind_some, hn]

theorem report_eq (hw : s.document.widget = false) (ha : s.service.settings.autoMark = true) (p : Patch) :
    s.report p = (s.followEdit p).startIfTyped.stopIfInvalid.noteCaret.followCaret := by
  have hm : s.onModified p = (s.followEdit p).startIfTyped.stopIfInvalid.noteCaret := by
    unfold onModified
    rw [hw]
    rfl
  have hk : s.Keeps (s.onModified p) := by
    rw [hm]
    exact (Keeps.followEdit s p).trans (tends_settled _).keeps
  change (s.onModified p).onSelectionModified = _
  unfold onSelectionModified
  rw [hk.widget, hk.settings, hw, ha, hm]
  rfl

/-- **What is tracked once an edit is reported**, if it is an abbreviation around the caret. -/
theorem tracker?_report {p : Patch} (hw : s.document.widget = false) (ha : s.service.settings.autoMark = true)
    (ht : (s.followEdit p).startIfTyped.tracker? = some t) {text : Text} {nodes : List Abbreviation.Node}
    (hr : t.reading = .valid text nodes) (hb : text.any isLineBreak = false)
    (hc : t.region.contains s.document.caret = true) : (s.report p).tracker? = some (t.preview true) := by
  have hs := stopIfInvalid_of_valid ht hr hb
  have hd : (s.followEdit p).startIfTyped.noteCaret.document.caret = s.document.caret :=
    congrArg Selection.head ((Marks.followEdit s p).trans (Marks.startIfTyped _)).selection
  have hf := tracker?_followCaret (s := (s.followEdit p).startIfTyped.noteCaret) ht
  rw [report_eq hw ha, hs, hf, hd, hc, hr]
  rfl

/-! ## Tracking all that is typed -/

/-- **`w` has been typed between two texts**, with the closers that are due, and `t` tracks it and the marker in front,
with its preview shown. -/
structure Tracks (s : Session) (before behind w : Text) (t : Tracker) : Prop where
  between : s.document.Between (before ++ w) (due w ++ behind)
  widget : s.document.widget = false
  autoMark : s.service.settings.autoMark = true
  lead : s.service.leadLength ≤ before.length
  tracker : s.tracker? = some t
  forced : t.forced = false
  offset : t.offset = s.service.leadLength
  region : t.region = ⟨before.length - s.service.leadLength, before.length + (w ++ due w).length⟩
  reading : t.reading = .of Abbreviation.read (w ++ due w)
  shown : t.previewVisible = true

theorem slice_append (x y z : Text) : (x ++ (y ++ z)).slice x.length (x.length + y.length) = y := by
  unfold Text.slice
  rw [← List.append_assoc, List.take_left' List.length_append, List.drop_left]

/-- A region that ends with `w` behind `before` and starts with a marker is read as `w`. -/
theorem reading_reread_append {text : Text} (hx : text = before ++ (w ++ behind)) (ho : t.offset ≤ before.length)
    (hr : t.region = ⟨before.length - t.offset, before.length + w.length⟩) :
    (t.reread Abbreviation.read text).reading = .of Abbreviation.read w := by
  have hw : t.region.Within text.length := by
    rw [hr, hx]
    simp only [Span.Within, List.length_append]
    omega
  have hs : min (before.length - t.offset + t.offset) (before.length + w.length) = before.length := by omega
  have hf := Tracker.reading_reread Abbreviation.read hw
  rw [Tracker.textIn_abbreviationSpan] at hf
  change _ = Reading.of _ (text.slice (min (t.region.start + t.offset) t.region.stop) t.region.stop) at hf
  rw [hr] at hf
  dsimp only at hf
  rw [hs, hx, slice_append] at hf
  rw [hx]
  exact hf

theorem noBreak_append_due (h : ∀ c ∈ w, isLineBreak c = false) : (w ++ due w).any isLineBreak = false := by
  rw [List.any_eq_false]
  intro c hc
  rw [Bool.not_eq_true]
  rcases List.mem_append.1 hc with hc | hc
  · exact h c hc
  · exact Text.isLineBreak_of_isCloser (Text.isCloser_of_mem_due hc)

variable {p : Patch} {d : Document} {nodes : List Abbreviation.Node}

/-- Reporting the edit by which the whole of `w` came to be tracked. -/
theorem Tracks.of_report (hb : s.document.Between (before ++ w) (due w ++ behind)) (hw : s.document.widget = false)
    (ha : s.service.settings.autoMark = true) (hk : s.service.leadLength ≤ before.length)
    (ht : (s.followEdit p).startIfTyped.tracker? = some t) (hf : t.forced = false)
    (ho : t.offset = s.service.leadLength)
    (hr : t.region = ⟨before.length - s.service.leadLength, before.length + (w ++ due w).length⟩)
    (hg : t.reading = .of Abbreviation.read (w ++ due w)) (hn : w ≠ [])
    (hx : Abbreviation.read (w ++ due w) = .ok nodes) (hl : ∀ c ∈ w, isLineBreak c = false) :
    (s.report p).Tracks before behind w (t.preview true) := by
  have hv : t.reading = .valid (w ++ due w) nodes :=
    hg.trans (Reading.of_ok (List.append_ne_nil_of_left_ne_nil hn _) hx)
  have hc : t.region.contains s.document.caret = true := by
    rw [hr]
    unfold Span.contains Document.caret
    rw [hb.selection]
    simp only [Selection.point, List.length_append, Bool.and_eq_true, decide_eq_true_eq]
    omega
  have hkeep : s.Keeps (s.report p) := by
    rw [report_eq hw ha]
    exact (Keeps.followEdit s p).trans ((tends_settled _).keeps.trans (Quiet.followCaret _).toKeeps)
  obtain ⟨markers, -, hm⟩ := Marks.report s p
  refine ⟨?_, hkeep.widget.trans hw, ?_, ?_, tracker?_report hw ha ht hv (noBreak_append_due hl) hc, hf, ?_, ?_, hg,
    rfl⟩
  · rw [hm]
    exact ⟨⟨hb.text, hb.selection, hb.readonly⟩, hb.autoPairs⟩
  · rw [hkeep.settings]
    exact ha
  · rw [hkeep.leadLength]
    exact hk
  · rw [hkeep.leadLength]
    exact ho
  · rw [hkeep.leadLength]
    exact hr

/-- An edit that takes the tracked text from `w` to `w'`. -/
theorem Tracks.edit {w' : Text} (h : s.Tracks before behind w t) (ht : s.document.Takes p d)
    (hp : p.length = s.document.length) (hb : d.Between (before ++ w') (due w' ++ behind))
    (hm : p.mapSpan t.region = ⟨before.length - s.service.leadLength, before.length + (w' ++ due w').length⟩)
    (hn : w' ≠ []) (hx : Abbreviation.read (w' ++ due w') = .ok nodes) (hl : ∀ c ∈ w', isLineBreak c = false) :
    ((s.withDocument d).report p).Tracks before behind w' (((s.withDocument d).followed t p).preview true) := by
  have ht' : (s.withDocument d).tracker? = some t := (tracker?_withDocument ht.id_eq).trans h.tracker
  have hc : ((p.mapSpan t.region).isEmpty && !t.forced) = false := by
    have hpos : 0 < w'.length := List.length_pos_of_ne_nil hn
    rw [hm]
    simp only [Span.isEmpty, List.length_append, Bool.and_eq_false_iff, decide_eq_false_iff_not]
    omega
  have hf := followEdit_of_some ht' (ht.lengthAfter_eq hp) hc
  have htext : d.text = before ++ ((w' ++ due w') ++ behind) := by
    rw [hb.text]
    simp only [List.append_assoc]
  refine .of_report hb (ht.widget_eq.trans h.widget) h.autoMark h.lead ?_ h.forced h.offset hm ?_ hn hx hl
  · rw [hf, startIfTyped_of_some (tracker?_hold _ _)]
    exact tracker?_hold _ _
  · have ho : (t.follow p).offset = s.service.leadLength := h.offset
    refine reading_reread_append (t := t.follow p) htext ?_ ?_ <;> rw [ho]
    · exact h.lead
    · exact hm

/-- Behind the caret stands a closer that is due, or else what stood there from the beginning. -/
theorem apart_of_due (h : behind.head?.any isAlphanumeric = false) :
    (due w ++ behind).head?.any isAlphanumeric = false := by
  cases hw : due w with
  | nil => exact h
  | cons close closers =>
    have hm : close ∈ due w := by rw [hw]; exact List.mem_cons_self
    exact Text.isAlphanumeric_of_isCloser (Text.isCloser_of_mem_due hm)

/-- A piece put in at the caret becomes part of the region. -/
theorem Tracks.mapSpan_typed (h : s.Tracks before behind w t) {piece : Text}
    (hp : p.replacements = [⟨(before ++ w).length, (before ++ w).length, piece⟩]) : p.mapSpan t.region =
      ⟨before.length - s.service.leadLength, before.length + (w ++ due w).length + piece.length⟩ := by
  have h₁ : t.region.start ≤ (before ++ w).length := by
    rw [h.region]
    simp only [List.length_append]
    omega
  have h₂ : (before ++ w).length ≤ t.region.stop := by
    rw [h.region]
    simp only [List.length_append]
    omega
  rw [Patch.mapSpan_insertion hp h₁ h₂, h.region]

/-- **One more char typed** stays tracked, with the closer that comes along or is stepped over. -/
theorem Tracks.type (h : s.Tracks before behind w t) (hd : behind.head?.any isAlphanumeric = false) {rest : Text}
    (hb : Balanced (w ++ c :: rest)) (hx : Abbreviation.read ((w ++ [c]) ++ due (w ++ [c])) = .ok nodes)
    (hl : ∀ c' ∈ w ++ [c], isLineBreak c' = false) :
    ∃ d p t', s.document.type? c = .ok (d, p) ∧ ((s.withDocument d).report p).Tracks before behind (w ++ [c]) t' := by
  have hne : w ++ [c] ≠ [] := List.append_ne_nil_of_right_ne_nil _ (List.cons_ne_nil _ _)
  rcases Text.due_append hb with ⟨hc, hdue⟩ | ⟨hc, hdue⟩
  · -- the closer stands there already, so that the text stays
    have hparted := h.between.toParted
    rw [hdue] at hparted
    obtain ⟨d, ht, hd', -⟩ := hparted.type?_over h.between.autoPairs hc
    obtain ⟨htakes, hlen⟩ := Document.takes_of_type? ht
    refine ⟨d, _, _, ht, h.edit htakes hlen ?_ ?_ hne hx hl⟩
    · rw [← List.append_assoc]
      exact h.between.of_takes htakes hd'
    · rw [Patch.mapSpan_empty, h.region, hdue, List.append_cons]
  · obtain ⟨d, p, ht, htakes, hlen, hrep, hd'⟩ := h.between.type?_in (h.between.stepsOver_of_not_closer hc)
    rw [h.between.broughtCloser_eq (apart_of_due hd)] at hrep hd'
    refine ⟨d, p, _, ht, h.edit htakes hlen ?_ ?_ hne hx hl⟩
    · rw [hdue, ← List.append_assoc, List.append_assoc _ _ behind]
      exact h.between.of_takes htakes hd'
    · rw [h.mapSpan_typed hrep, hdue]
      simp only [List.length_append, List.length_cons, List.length_nil, Span.mk.injEq, true_and]
      omega

/-! ## Where an abbreviation may start -/

/-- **The caret is where typing is tracked from**: the service has seen it there last, nothing is selected or tracked,
and no letter or digit follows. -/
structure Poised (s : Session) (before behind : Text) : Prop where
  between : s.document.Between before behind
  widget : s.document.widget = false
  allowed : s.service.allowsTracking = true
  untracked : s.tracker? = none
  caret : s.service.carets.get? s.document.id = some before.length
  apart : behind.head?.any isAlphanumeric = false

/-- **`c` may open an abbreviation behind `before`**: at the start or behind a word bound, or else behind the marker
that leads abbreviations in. -/
def Opens (before : Text) (c : Char) : Option Text → Prop
  | none => (before = [] ∨ before.getLast?.any isWordBound = true) ∧ isAbbreviationStart c = true
  | some lead => lead <:+ before ∧ isMarkedStart c = true

theorem Opens.isCloser_eq {lead : Option Text} (h : Opens before c lead) : isCloser c = false := by
  cases hc : isCloser c with
  | false => rfl
  | true =>
    simp only [isCloser, Bool.or_eq_true, decide_eq_true_eq] at hc
    cases lead with
    | none =>
      have hs : isAbbreviationStart c = true := h.2
      rcases hc with (rfl | rfl) | rfl <;> exact absurd hs (by decide)
    | some lead =>
      have hs : isMarkedStart c = true := h.2
      rcases hc with (rfl | rfl) | rfl <;> exact absurd hs (by decide)

theorem bounded_before (h : before = [] ∨ before.getLast?.any isWordBound = true) :
    (decide (before.length = 0) || (before ++ behind)[before.length - 1]?.any isWordBound) = true := by
  rcases h with rfl | h
  · rfl
  · have hpos : 0 < before.length := by
      cases before with
      | nil => cases h
      | cons _ _ => exact Nat.succ_pos _
    rw [List.getElem?_append_left (by omega), ← List.getLast?_eq_getElem?, h, Bool.or_true]

theorem slice_lead (pre lead behind : Text) :
    Text.slice ((pre ++ lead) ++ behind) ((pre ++ lead).length - lead.length) (pre ++ lead).length = lead := by
  have hstart : (pre ++ lead).length - lead.length = pre.length := by simp
  rw [hstart, List.append_assoc, List.length_append]
  exact slice_append pre lead behind

theorem getElem?_typed (before : Text) (c : Char) (behind : Text) :
    (before ++ c :: behind)[before.length]? = some c := by
  rw [List.getElem?_append_right (Nat.le_refl _), Nat.sub_self]
  rfl

theorem Opens.startsAt {lead : Option Text} (h : Opens before c lead) (behind : Text) :
    StartsAt (before ++ c :: behind) (before.length + 1) lead := by
  have hc := getElem?_typed before c behind
  refine ⟨Nat.succ_pos _, (List.getElem?_eq_some_iff.1 hc).1, ?_⟩
  cases lead with
  | none =>
    obtain ⟨hb, hs⟩ := h
    rw [opensAt_none_iff hc, bounded_before hb, hs]
    rfl
  | some lead =>
    obtain ⟨⟨pre, rfl⟩, hs⟩ := h
    rw [opensAt_some_iff hc, slice_lead, hs]
    simp

/-- The stretch that starts with the marker takes in the closer that came along. -/
theorem Opens.trackingStart?_eq {lead : Option Text} (h : Opens before c lead) (behind : Text) :
    (lead.map List.length).getD 0 ≤ before.length ∧
      trackingStart? (before ++ (c :: ((closerOf c).toList ++ behind))) (before.length + 1) lead =
        some ⟨⟨before.length - (lead.map List.length).getD 0, before.length + (c :: (closerOf c).toList).length⟩,
          (lead.map List.length).getD 0⟩ := by
  have hs := h.startsAt ((closerOf c).toList ++ behind)
  have hn : (before ++ (c :: ((closerOf c).toList ++ behind)))[before.length + 1]? =
      ((closerOf c).toList ++ behind).head? := by
    rw [List.getElem?_append_right (Nat.le_add_right _ _), Nat.add_sub_cancel_left, List.getElem?_cons_succ,
      ← List.head?_eq_getElem?]
  have hstop : (if PairedAt (before ++ (c :: ((closerOf c).toList ++ behind))) (before.length + 1) then
      before.length + 1 + 1 else before.length + 1) = before.length + (c :: (closerOf c).toList).length := by
    rw [if_congr (pairedAt_succ_iff (getElem?_typed before c _)) rfl rfl, hn]
    cases closerOf c <;> simp
  refine ⟨Nat.le_of_lt_succ hs.offset_lt, ?_⟩
  rw [trackingStart?_eq_ite, if_pos hs, hstop]
  rfl

/-- **The first char typed** starts a tracker. -/
theorem Poised.type (h : s.Poised before behind) (ho : Opens before c s.service.lead?) {rest : Text}
    (hb : Balanced ([] ++ c :: rest)) (hx : Abbreviation.read ([c] ++ due [c]) = .ok nodes)
    (hl : ∀ c' ∈ [c], isLineBreak c' = false) :
    ∃ d p t, s.document.type? c = .ok (d, p) ∧ ((s.withDocument d).report p).Tracks before behind [c] t := by
  have hc := ho.isCloser_eq
  have hdue : due [c] = (closerOf c).toList := by
    rcases Text.due_append hb with ⟨hc', -⟩ | ⟨-, hdue⟩
    · rw [hc] at hc'
      cases hc'
    · exact hdue.trans (List.append_nil _)
  obtain ⟨hk, hstart⟩ := ho.trackingStart?_eq behind
  obtain ⟨d, p, ht, htakes, hlen, -, hparted⟩ := h.between.type?_in (h.between.stepsOver_of_not_closer hc)
  have hbetween := h.between.of_takes htakes hparted
  rw [h.between.broughtCloser_eq h.apart] at hbetween
  have htext : d.text = before ++ (([c] ++ due [c]) ++ behind) := by
    rw [hbetween.text, hdue]
    simp only [List.append_assoc, List.cons_append, List.nil_append]
  have hcaret : d.caret = before.length + 1 := by
    unfold Document.caret
    rw [hbetween.selection, List.length_append]
    rfl
  have hu : (s.withDocument d).tracker? = none := (tracker?_withDocument htakes.id_eq).trans h.untracked
  have hcarets : (s.withDocument d).service.carets.get? d.id = some before.length := by
    rw [htakes.id_eq]
    exact h.caret
  have hauto : s.service.settings.autoMark = true := (Bool.and_eq_true_iff.1 h.allowed).1
  let span : Span := ⟨before.length - s.service.leadLength, before.length + ([c] ++ due [c]).length⟩
  let options := (s.withDocument d).optionsAt span.start (s.service.settings.capturesContext d.length)
  have hfound : trackingStart? d.text d.caret s.service.lead? = some ⟨span, s.service.leadLength⟩ := by
    rw [hcaret, htext]
    simp only [span, hdue]
    exact hstart
  have hs : ((s.withDocument d).followEdit p).startIfTyped =
      (s.withDocument d).start span false s.service.leadLength options := by
    rw [followEdit_of_none hu]
    exact startIfTyped_of_found hu hcarets hcaret.symm h.allowed hfound
  have hw : span.Within d.length := by
    unfold Document.length
    rw [htext]
    simp only [span, Span.Within, List.length_append]
    omega
  have hregion : span.clamp d.length = span := Span.clamp_eq_self hw
  refine ⟨d, p, _, ht, .of_report ?_ (htakes.widget_eq.trans h.widget) hauto hk
    (t := (s.withDocument d).readAt { region := span, forced := false, offset := s.service.leadLength, options } span)
    ?_ rfl rfl hregion ?_ (List.cons_ne_nil _ _) hx hl⟩
  · rw [hdue]
    exact hbetween
  · rw [hs, start_eq_hold]
    exact tracker?_hold _ _
  · exact reading_reread_append htext hk hregion

/-! ## Typing a whole abbreviation -/

theorem type_cons {d : Document} {p : Patch} (h : s.document.type? c = .ok (d, p)) (w : Text) :
    s.type (c :: w) = ((s.withDocument d).report p).type w := by
  rw [Session.type, h]

/-- Every beginning of `w` is an abbreviation once its brackets are closed. -/
def ReadThroughout (w : Text) : Prop :=
  ∀ r, r ≠ [] → r <+: w → ∃ nodes, Abbreviation.read (r ++ due r) = .ok nodes

theorem Tracks.typeAll (h : s.Tracks before behind w t) (hd : behind.head?.any isAlphanumeric = false) {v rest : Text}
    (hb : Balanced (w ++ v ++ rest)) (hx : ReadThroughout (w ++ v)) (hl : ∀ c ∈ w ++ v, isLineBreak c = false) :
    (s.type v).2 = none ∧ ∃ t', (s.type v).1.Tracks before behind (w ++ v) t' := by
  induction v generalizing s w t with
  | nil =>
    rw [List.append_nil]
    exact ⟨rfl, t, h⟩
  | cons c v ih =>
    have hsplit : w ++ c :: v = (w ++ [c]) ++ v := List.append_cons w c v
    rw [hsplit] at hb hx hl ⊢
    obtain ⟨nodes, hr⟩ := hx (w ++ [c]) (List.append_ne_nil_of_right_ne_nil _ (List.cons_ne_nil _ _))
      (List.prefix_append _ _)
    have hb' : Balanced (w ++ c :: (v ++ rest)) := by
      rw [List.append_assoc] at hb
      rwa [List.append_cons]
    obtain ⟨d, p, t', hp, ht'⟩ := h.type hd hb' hr fun c' hc' => hl c' (List.mem_append_left _ hc')
    rw [type_cons hp]
    exact ih ht' hb hx hl

/-- **Typing an abbreviation tracks all of it**, the closers that come along included.  Where typing is tracked from,
let a text without line breaks be typed that may open an abbreviation, closes no bracket that it has not opened, and is
an abbreviation at every moment once its brackets are closed: then it stands there with the closers still due, the caret
in front of them, and a tracker that is not forced is on all of it and the marker in front, its preview shown. -/
theorem typed_is_tracked {before behind w : Text} {c : Char} (h : s.Poised before behind)
    (ho : Opens before c s.service.lead?) (hb : ∃ rest, Balanced (c :: w ++ rest)) (hx : ReadThroughout (c :: w))
    (hl : ∀ c' ∈ c :: w, isLineBreak c' = false) :
    let s' := (s.type (c :: w)).1
    let typed := c :: w ++ due (c :: w)
    (s.type (c :: w)).2 = none ∧ s'.document.text = before ++ (typed ++ behind) ∧
      s'.document.selection = .point (before.length + (c :: w).length) ∧
      ∃ t nodes, s'.tracker? = some t ∧ t.forced = false ∧ t.offset = s.service.leadLength ∧
        t.region = ⟨before.length - s.service.leadLength, before.length + typed.length⟩ ∧
        Abbreviation.read typed = .ok nodes ∧ t.reading = .valid typed nodes ∧ t.previewVisible = true := by
  obtain ⟨rest, hb⟩ := hb
  obtain ⟨nodes₁, hr₁⟩ := hx [c] (List.cons_ne_nil _ _) (List.prefix_append [c] w)
  obtain ⟨nodes, hr⟩ := hx (c :: w) (List.cons_ne_nil _ _) (List.prefix_refl _)
  obtain ⟨d, p, t₁, hp, ht₁⟩ := h.type ho hb hr₁ fun c' hc' => hl c' (List.mem_append_left w hc')
  obtain ⟨hrefused, t, ht⟩ := ht₁.typeAll h.apart hb hx hl
  have hlead : (s.type (c :: w)).1.service.leadLength = s.service.leadLength := (tends_type h.widget _).keeps.leadLength
  rw [type_cons hp] at hlead ⊢
  dsimp only
  refine ⟨hrefused, ?_, ?_, t, nodes, ht.tracker, ht.forced, ?_, ?_, hr, ?_, ht.shown⟩
  · rw [ht.between.text]
    simp only [List.append_assoc, List.cons_append, List.nil_append]
  · rw [ht.between.selection, List.length_append]
    rfl
  · rw [ht.offset]
    exact hlead
  · rw [ht.region]
    exact congrArg (fun k => Span.mk (before.length - k) _) hlead
  · exact ht.reading.trans (Reading.of_ok (List.cons_ne_nil _ _) hr)

/-- In parentheses behind a marker, with brackets in the text of an element: three closers have come along. -/
theorem typed_is_tracked_behind_marker :
    let o := Opening.ofTexts ⟨"jsx", true⟩ {} ["r <;".toList]
    ∃ s t nodes, (o.host.run [.on 0 (.select 3 3)]).session? 0 = some s ∧
      s.Poised "r <".toList ";".toList ∧ ReadThroughout "(a[x=y]\x7b(t".toList ∧
      (s.type "(a[x=y]\x7b(t".toList).1.document.text = "r <(a[x=y]\x7b(t)\x7d);".toList ∧
      (s.type "(a[x=y]\x7b(t".toList).1.document.selection = .point 13 ∧
      (s.type "(a[x=y]\x7b(t".toList).1.tracker? = some t ∧ t.forced = false ∧ t.offset = 1 ∧ t.region = ⟨2, 16⟩ ∧
      t.reading = .valid "(a[x=y]\x7b(t)\x7d)".toList nodes := by
  intro o
  have hc : ((o.host.run [.on 0 (.select 3 3)]).session? 0).any (fun s => s.document.text = "r <;".toList &&
      s.document.selection = .point 3 && !s.document.readonly && s.document.autoPairs && !s.document.widget &&
      s.service.allowsTracking && s.tracker?.isNone && s.service.carets.get? s.document.id = some 3 &&
      s.service.lead? = some ['<']) = true := by decide +kernel
  obtain ⟨s, hs, hc⟩ := (Option.any_eq_true _ _).1 hc
  simp only [Bool.and_eq_true, decide_eq_true_eq, Bool.not_eq_true', Option.isNone_iff_eq_none] at hc
  obtain ⟨⟨⟨⟨⟨⟨⟨⟨htext, hsel⟩, hw⟩, hp⟩, hwidget⟩, ha⟩, hu⟩, hcaret⟩, hlead⟩ := hc
  have h : s.Poised "r <".toList ";".toList := ⟨⟨⟨htext, hsel, hw⟩, hp⟩, hwidget, ha, hu, hcaret, by decide⟩
  have ho : Opens "r <".toList '(' s.service.lead? := by
    rw [hlead]
    exact ⟨⟨"r ".toList, rfl⟩, rfl⟩
  have hb : Balanced ("(a[x=y]\x7b(t".toList ++ ")\x7d)".toList) := Text.balanced_iff.2 (by decide)
  have hx : ReadThroughout "(a[x=y]\x7b(t".toList := by
    have hall : ∀ r ∈ "(a[x=y]\x7b(t".toList.inits, r ≠ [] → (Abbreviation.read (r ++ due r)).isOk = true := by
      decide +kernel
    intro r hn hr
    have hok := hall r ((List.mem_inits r _).2 hr) hn
    cases he : Abbreviation.read (r ++ due r) with
    | ok nodes => exact ⟨nodes, rfl⟩
    | error error => rw [he] at hok; cases hok
  have hk : s.service.leadLength = 1 := by
    unfold Service.leadLength
    rw [hlead]
    rfl
  -- decided on the word itself, not over every character there is
  have hall : ("(a[x=y]\x7b(t".toList).all (!isLineBreak ·) = true := by decide
  have hl : ∀ c ∈ "(a[x=y]\x7b(t".toList, isLineBreak c = false := by
    simpa only [List.all_eq_true, Bool.not_eq_true'] using hall
  obtain ⟨-, htext', hsel', t, nodes, ht, hf, hoff, hr, -, hg, -⟩ :=
    typed_is_tracked (w := "a[x=y]\x7b(t".toList) h ho ⟨_, hb⟩ hx hl
  have hdue : '(' :: "a[x=y]\x7b(t".toList ++ due ('(' :: "a[x=y]\x7b(t".toList) = "(a[x=y]\x7b(t)\x7d)".toList := by
    decide +kernel
  rw [hdue] at htext' hr hg
  rw [hk] at hoff hr
  exact ⟨s, t, nodes, hs, h, hx, htext', hsel', ht, hf, hoff, hr, hg⟩

end Session
end Shorthand
