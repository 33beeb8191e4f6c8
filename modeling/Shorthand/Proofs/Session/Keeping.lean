import Shorthand.Proofs.Document.Edit
import Shorthand.Session.Editing
/-!
# What the service leaves alone, and how a tracker follows

A session attends to one document: whatever it does, the trackers of the others stay (`Keeps`).  Much of what it does
changes nothing that a tracker stands for (`Quiet`).  What an edit and an undo make of the tracker is told by one
equation for each case (`followEdit_of_some`, `onUndone_of_marked` and those beside them).
-/
namespace Shorthand

theorem Keyed.erase_erase {κ α : Type} [DecidableEq κ] (m : Keyed κ α) (k : κ) : (m.erase k).erase k = m.erase k := by
  unfold Keyed.erase
  simp only [List.filter_filter, Bool.and_self]

/-- **What a tracker stands for**: all but its options and whether its preview shows. -/
def Tracker.core (t : Tracker) : Span × Bool × Nat × Reading := (t.region, t.forced, t.offset, t.reading)

/-- The length of the marker that leads abbreviations in. -/
def Service.leadLength (s : Service) : Nat := (s.lead?.map List.length).getD 0

namespace Session

open Abbreviation (Options)

variable {s s' : Session} {t : Tracker} {p : Patch} {d : Document}

def withTracker (s : Session) (t : Tracker) : Session :=
  s.withTrackers (s.service.trackers.insert s.document.id t)

/-- The session with `t` as the tracker of the document and the marker on its region. -/
def hold (s : Session) (t : Tracker) : Session := (s.withTracker t).setMarker t.region

/-- The tracker on `region`, as far as it lies in the text, with the text there read. -/
def readAt (s : Session) (t : Tracker) (region : Span) : Tracker :=
  { t with region := region.clamp s.document.length }.reread Abbreviation.read s.document.text

theorem start_eq_hold (s : Session) (span : Span) (forced : Bool) (offset : Nat) (options : Options) :
    s.start span forced offset options = s.hold (s.readAt { region := span, forced, offset, options } span) := rfl

/-! ## The tracker and the marker of the document -/

@[simp] theorem tracker?_withTracker (s : Session) (t : Tracker) : (s.withTracker t).tracker? = some t := by
  simp [tracker?, withTracker, withTrackers]

@[simp] theorem marker?_withTracker (s : Session) (t : Tracker) : (s.withTracker t).marker? = s.marker? := rfl

@[simp] theorem tracker?_hold (s : Session) (t : Tracker) : (s.hold t).tracker? = some t := tracker?_withTracker s t

@[simp] theorem marker?_hold (s : Session) (t : Tracker) : (s.hold t).marker? = some t.region := by
  simp [marker?, hold, setMarker, Document.marker?, Document.setMarker]

@[simp] theorem tracker?_stop (s : Session) : s.stop.tracker? = none := by
  simp [tracker?, stop, Document.clearMarker]

@[simp] theorem marker?_stop (s : Session) : s.stop.marker? = none := by
  simp [marker?, stop, Document.marker?, Document.clearMarker]

theorem tracker?_withDocument (h : d.id = s.document.id) : (s.withDocument d).tracker? = s.tracker? := by
  unfold tracker? withDocument
  rw [h]

/-! ## The other documents -/

/-- **`s'` attends to the document that `s` attends to**, and leaves the trackers of the others alone. -/
structure Keeps (s s' : Session) : Prop where
  id : s'.document.id = s.document.id
  widget : s'.document.widget = s.document.widget
  unreported : s'.document.unreported = s.document.unreported
  dialect : s'.service.dialect = s.service.dialect
  settings : s'.service.settings = s.service.settings
  others : ∀ other, other ≠ s.document.id → s'.service.trackers.get? other = s.service.trackers.get? other

namespace Keeps

theorem refl (s : Session) : s.Keeps s := ⟨rfl, rfl, rfl, rfl, rfl, fun _ _ => rfl⟩

theorem trans {s₁ s₂ s₃ : Session} (h : s₁.Keeps s₂) (h' : s₂.Keeps s₃) : s₁.Keeps s₃ where
  id := h'.id.trans h.id
  widget := h'.widget.trans h.widget
  unreported := h'.unreported.trans h.unreported
  dialect := h'.dialect.trans h.dialect
  settings := h'.settings.trans h.settings
  others other ho := (h'.others other (by rw [h.id]; exact ho)).trans (h.others other ho)

theorem stop (s : Session) : s.Keeps s.stop where
  id := rfl
  widget := rfl
  unreported := rfl
  dialect := rfl
  settings := rfl
  others other ho := by simp [Session.stop, ho]

theorem withTracker (s : Session) (t : Tracker) : s.Keeps (s.withTracker t) where
  id := rfl
  widget := rfl
  unreported := rfl
  dialect := rfl
  settings := rfl
  others other ho := by simp [Session.withTracker, withTrackers, ho]

theorem hold (s : Session) (t : Tracker) : s.Keeps (s.hold t) :=
  (withTracker s t).trans ⟨rfl, rfl, rfl, rfl, rfl, fun _ _ => rfl⟩

theorem noteCaret (s : Session) : s.Keeps s.noteCaret := ⟨rfl, rfl, rfl, rfl, rfl, fun _ _ => rfl⟩

theorem withDocument (hi : d.id = s.document.id) (hw : d.widget = s.document.widget)
    (hu : d.unreported = s.document.unreported) : s.Keeps (s.withDocument d) :=
  ⟨hi, hw, hu, rfl, rfl, fun _ _ => rfl⟩

theorem takes (h : s.document.Takes p d) : s.Keeps (s.withDocument d) :=
  withDocument h.id_eq h.widget_eq h.unreported_eq

end Keeps

/-! ## Changing nothing that a tracker stands for -/

/-- **`s'` has the text, the markers, the history and the tracker of `s`**; its caret, its options and what it shows
may differ. -/
structure Quiet (s s' : Session) : Prop extends s.Keeps s' where
  text : s'.document.text = s.document.text
  markers : s'.document.markers = s.document.markers
  history : s'.document.history = s.document.history
  core : s'.tracker?.map Tracker.core = s.tracker?.map Tracker.core

namespace Quiet

theorem refl (s : Session) : s.Quiet s := ⟨.refl s, rfl, rfl, rfl, rfl⟩

theorem trans {s₁ s₂ s₃ : Session} (h : s₁.Quiet s₂) (h' : s₂.Quiet s₃) : s₁.Quiet s₃ :=
  ⟨h.toKeeps.trans h'.toKeeps, h'.text.trans h.text, h'.markers.trans h.markers, h'.history.trans h.history,
    h'.core.trans h.core⟩

/-- Nothing comes to be tracked, and nothing ends. -/
theorem untracked_iff (h : s.Quiet s') : s'.tracker? = none ↔ s.tracker? = none := by
  have hc := h.core
  rw [← Option.map_eq_none_iff, hc, Option.map_eq_none_iff]

theorem untracked (h : s.Quiet s') (ht : s.tracker? = none) : s'.tracker? = none := h.untracked_iff.2 ht

theorem noteCaret (s : Session) : s.Quiet s.noteCaret := ⟨.noteCaret s, rfl, rfl, rfl, rfl⟩

theorem askCompletion (s : Session) (asked : Bool) : s.Quiet (s.askCompletion asked) :=
  ⟨⟨rfl, rfl, rfl, rfl, rfl, fun _ _ => rfl⟩, rfl, rfl, rfl, rfl⟩

theorem withDocument (h : s.Keeps (s.withDocument d)) (ht : d.text = s.document.text)
    (hm : d.markers = s.document.markers) (hh : d.history = s.document.history) : s.Quiet (s.withDocument d) :=
  ⟨h, ht, hm, hh, congrArg _ (tracker?_withDocument h.id)⟩

theorem withTracker (h : s.tracker? = some t) (t' : Tracker) (hc : t'.core = t.core) : s.Quiet (s.withTracker t') :=
  ⟨.withTracker s t', rfl, rfl, rfl, by rw [tracker?_withTracker, h, Option.map_some, Option.map_some, hc]⟩

theorem showPreview (s : Session) : s.Quiet s.showPreview := by
  unfold Session.showPreview
  split
  · exact refl s
  · next t ht => exact withTracker ht (t.preview true) rfl

theorem followCaret (s : Session) : s.Quiet s.followCaret := by
  have h : s.Quiet (s.withTrackers (s.service.trackers.caretMoved s.document.id s.document.caret)) := by
    unfold Registry.caretMoved
    split
    · exact refl s
    · next t ht => exact withTracker ht (t.preview _) rfl
  exact h.trans (noteCaret _)

theorem expansion (s : Session) : s.Quiet s.expansion.1 := by
  unfold Session.expansion
  split
  · exact refl s
  · next t ht =>
    refine withTracker ht (t.locateContext s.document.text) ?_
    unfold Tracker.locateContext
    split <;> rfl

theorem onActivated (s : Session) : s.Quiet s.onActivated := by
  unfold Session.onActivated
  split
  · exact refl s
  · exact followCaret s

theorem onSelectionModified (s : Session) : s.Quiet s.onSelectionModified := by
  unfold Session.onSelectionModified
  split
  · exact refl s
  · exact followCaret s

end Quiet

/-! ## Following the caret -/

/-- The tracker stays as it is, shown if the caret is in its region. -/
theorem tracker?_followCaret (h : s.tracker? = some t) :
    s.followCaret.tracker? = some (t.preview (t.region.contains s.document.caret && !t.reading.isEmpty)) := by
  have hg : s.service.trackers.get? s.document.id = some t := h
  unfold followCaret Registry.caretMoved
  rw [hg]
  exact tracker?_withTracker s _

/-! ## Following edits and undoing -/

theorem followEdit_of_none (h : s.tracker? = none) : s.followEdit p = s := by
  unfold followEdit
  rw [h]

theorem followEdit_of_mismatch (h : s.tracker? = some t) (hl : p.lengthAfter ≠ s.document.length) :
    s.followEdit p = s.stop := by
  unfold followEdit
  rw [h]
  exact if_neg hl

def followed (s : Session) (t : Tracker) (p : Patch) : Tracker := (t.follow p).reread Abbreviation.read s.document.text

/-- An automatic tracker that nothing is left of ends. -/
theorem followEdit_of_collapsed (h : s.tracker? = some t) (hl : p.lengthAfter = s.document.length)
    (hc : ((p.mapSpan t.region).isEmpty && !t.forced) = true) : s.followEdit p = s.stop := by
  have hg : s.service.trackers.get? s.document.id = some t := h
  have he : s.service.trackers.edited Abbreviation.read s.document.id p s.document.text =
      s.service.trackers.erase s.document.id := by
    unfold Registry.edited
    rw [hg]
    exact if_pos hc
  unfold followEdit
  rw [h, he]
  simp only [hl, if_true, Keyed.get?_erase]
  unfold stop withTrackers
  rw [Keyed.erase_erase]

theorem followEdit_of_some (h : s.tracker? = some t) (hl : p.lengthAfter = s.document.length)
    (hc : ((p.mapSpan t.region).isEmpty && !t.forced) = false) : s.followEdit p = s.hold (s.followed t p) := by
  have hg : s.service.trackers.get? s.document.id = some t := h
  have he : s.service.trackers.edited Abbreviation.read s.document.id p s.document.text =
      s.service.trackers.insert s.document.id (s.followed t p) := by
    unfold Registry.edited
    rw [hg]
    exact if_neg (by simpa [Tracker.follow] using hc)
  unfold followEdit
  rw [h, he]
  simp only [hl, if_true, Keyed.get?_insert]
  rfl

/-- **A tracker follows an edit or ends**; a forced one ends only if the patch has not led to the text at hand. -/
theorem followEdit_cases (s : Session) (p : Patch) :
    (s.tracker? = none ∧ s.followEdit p = s) ∨
    (∃ t, s.tracker? = some t ∧ (p.lengthAfter = s.document.length → t.forced = false) ∧ s.followEdit p = s.stop) ∨
    ∃ t, s.tracker? = some t ∧ p.lengthAfter = s.document.length ∧ s.followEdit p = s.hold (s.followed t p) := by
  cases ht : s.tracker? with
  | none => exact .inl ⟨rfl, followEdit_of_none ht⟩
  | some t =>
    by_cases hl : p.lengthAfter = s.document.length
    · cases hc : (p.mapSpan t.region).isEmpty && !t.forced with
      | true =>
        have hf := (Bool.and_eq_true_iff.1 hc).2
        exact .inr (.inl ⟨t, rfl, fun _ => (Bool.not_eq_true' _).mp hf, followEdit_of_collapsed ht hl hc⟩)
      | false => exact .inr (.inr ⟨t, rfl, hl, followEdit_of_some ht hl hc⟩)
    · exact .inr (.inl ⟨t, rfl, fun h => absurd h hl, followEdit_of_mismatch ht hl⟩)

theorem moved_eq (h : s.tracker? = some t) (region : Span) :
    s.withTrackers (s.service.trackers.moved Abbreviation.read s.document.id region s.document.text) =
      s.withTracker (s.readAt t region) := by
  have hg : s.service.trackers.get? s.document.id = some t := h
  unfold Registry.moved
  rw [hg]
  rfl

theorem onUndone_of_marked (h : s.tracker? = some t) {m : Span} (hm : s.marker? = some m) :
    s.onUndone = (s.withTracker (s.readAt t m)).noteCaret := by
  unfold onUndone resync
  rw [h, hm]
  simp only
  rw [moved_eq h]

/-- An undo that brings no marker back leaves a forced tracker where it is. -/
theorem onUndone_of_forced (h : s.tracker? = some t) (hm : s.marker? = none) (hf : t.forced = true) :
    s.onUndone = (s.hold (s.readAt t t.region)).noteCaret := by
  unfold onUndone resync
  rw [h, hm]
  simp only [hf, if_true]
  rw [moved_eq h]
  rfl

theorem onUndone_of_unmarked (h : s.tracker? = some t) (hm : s.marker? = none) (hf : t.forced = false) :
    s.onUndone = s.stop.noteCaret := by
  unfold onUndone resync
  rw [h, hm]
  simp only [hf, if_false, Bool.false_eq_true]

theorem onUndone_of_left (h : s.tracker? = none) {m : Span} (hm : s.marker? = some m) :
    s.onUndone = (s.start m false s.service.leadLength (s.optionsAt m.start true)).showPreview.noteCaret := by
  unfold onUndone restore?
  rw [h, hm]
  rfl

theorem onUndone_of_none (h : s.tracker? = none) (hm : s.marker? = none) : s.onUndone = s.noteCaret := by
  unfold onUndone restore?
  rw [h, hm]
  rfl

/-- **What an undo makes of tracking** once the document is back. -/
theorem onUndone_cases (s : Session) :
    (s.tracker? = none ∧ s.marker? = none ∧ s.onUndone = s.noteCaret) ∨
    (∃ m, s.tracker? = none ∧ s.marker? = some m ∧
      s.onUndone = (s.start m false s.service.leadLength (s.optionsAt m.start true)).showPreview.noteCaret) ∨
    (∃ t m, s.tracker? = some t ∧ s.marker? = some m ∧ s.onUndone = (s.withTracker (s.readAt t m)).noteCaret) ∨
    (∃ t, s.tracker? = some t ∧ s.marker? = none ∧ t.forced = true ∧
      s.onUndone = (s.hold (s.readAt t t.region)).noteCaret) ∨
    ∃ t, s.tracker? = some t ∧ s.marker? = none ∧ t.forced = false ∧ s.onUndone = s.stop.noteCaret := by
  cases ht : s.tracker? with
  | none =>
    cases hm : s.marker? with
    | none => exact .inl ⟨rfl, rfl, onUndone_of_none ht hm⟩
    | some m => exact .inr (.inl ⟨m, rfl, rfl, onUndone_of_left ht hm⟩)
  | some t =>
    cases hm : s.marker? with
    | some m => exact .inr (.inr (.inl ⟨t, m, rfl, rfl, onUndone_of_marked ht hm⟩))
    | none =>
      cases hf : t.forced with
      | true => exact .inr (.inr (.inr (.inl ⟨t, rfl, rfl, hf, onUndone_of_forced ht hm hf⟩)))
      | false => exact .inr (.inr (.inr (.inr ⟨t, rfl, rfl, hf, onUndone_of_unmarked ht hm hf⟩)))

end Session
end Shorthand
