import Shorthand.Proofs.Document.Operations
/-!
# The selection and the markers fit the text

In a document that has started out with a plain text, and in which markers are put on stretches of the text only, the
selection and all markers lie in the text at any time, and those of every snapshot in the text of that snapshot
(`Document.InBounds`).  So typing and taking back are only ever refused where the document may not be written to
(`run_in_bounds`).
-/
namespace Shorthand

/-- The selection and all markers of the snapshot lie in its text. -/
structure Snapshot.InBounds (s : Snapshot) : Prop where
  selection : s.selection.Within s.text.length
  marker : ∀ name span, s.markers.get? name = some span → span.Within s.text.length

namespace Document

variable {d d' : Document} {p : Patch} {op : Operation}

/-- The operation puts no marker on anything but a stretch of the text. -/
def marksText (d : Document) : Operation → Bool
  | .setMarker _ span => decide (span.Within d.length)
  | _ => true

/-- **All markers that the operations put on the text lie in it** as it is then. -/
def marksTexts (d : Document) : List Operation → Bool
  | [] => true
  | op :: ops => d.marksText op && (d.perform op).marksTexts ops

/-- **The selection and the markers lie in the text**, now and after any number of undos. -/
structure InBounds (d : Document) : Prop where
  now : d.snapshot.InBounds
  history : ∀ s ∈ d.history, s.InBounds

/-! ## Selections -/

theorem Lands.within {made : Except DocumentError (Document × Patch)} (h : d.Lands made)
    (hm : made = .ok (d', p)) : d'.selection.Within d'.length := by
  cases h with
  | made selection => cases hm; exact selection
  | refused _ => cases hm

theorem Lands.readonly {made : Except DocumentError (Document × Patch)} (h : d.Lands made) {error : DocumentError}
    (hm : made = .error error) : error = .readonly ∧ d.readonly = true := by
  cases h with
  | made _ => cases hm
  | refused readonly => cases hm; exact ⟨rfl, readonly⟩

/-- A patch takes the selection along within the text. -/
theorem within_edit? (h : d.selection.Within d.length) (hd : d.edit? p = .ok d') :
    d'.selection.Within d'.length := by
  unfold edit? at hd
  split at hd
  · cases hd
  split at hd
  · cases hd
    exact h
  split at hd
  · cases hd
  next text hr =>
  cases hd
  have hl : p.length = d.length := Patch.length_eq_of_result? hr
  have hl' : text.length = p.lengthAfter := Patch.length_of_result? hr
  obtain ⟨ha, hh⟩ := h
  rw [← hl] at ha hh
  have hmap : (d.selection.map p).Within p.lengthAfter := ⟨Patch.mapPos_le ha .after, Patch.mapPos_le hh .after⟩
  rwa [← hl'] at hmap

theorem within_insertSnippet? {span : Span} {snippet : Text} (h : d.insertSnippet? span snippet = .ok d') :
    d'.selection.Within d'.length := by
  unfold insertSnippet? at h
  dsimp only at h
  split at h
  · cases h
  next d₁ p hd =>
  cases h
  have hs : span.Within d.length := within_of_replace? hd
  have hsel : d₁.selection.Within d₁.length := (lands_snippet hs snippet).within hd
  exact hsel

/-! ## One operation -/

namespace InBounds

theorem of_text (id : DocId) (text : Text) (autoPairs widget : Bool) :
    InBounds { id, text, autoPairs, widget } where
  now := ⟨⟨Nat.zero_le _, Nat.zero_le _⟩, nofun⟩
  history := nofun

theorem select (h : d.InBounds) {selection : Selection} (hs : selection.Within d.length) :
    InBounds { d with selection } := ⟨⟨hs, h.now.marker⟩, h.history⟩

theorem select? (h : d.InBounds) {anchor head : Nat} (hd : d.select? anchor head = .ok d') : d'.InBounds := by
  rcases select?_cases d anchor head with ⟨-, error, he⟩ | ⟨hn, he⟩
  · rw [he] at hd; cases hd
  · rw [he] at hd
    cases hd
    have hs : anchor ≤ d.length ∧ head ≤ d.length := by omega
    exact h.select hs

theorem setMarker (h : d.InBounds) (name : String) {span : Span} (hs : span.Within d.length) :
    (d.setMarker name span).InBounds := by
  refine ⟨⟨h.now.selection, ?_⟩, h.history⟩
  intro name' span' hm
  have hm : (d.markers.insert name span).get? name' = some span' := hm
  rw [Keyed.get?_insert] at hm
  split at hm
  · cases hm
    exact hs
  · exact h.now.marker name' span' hm

theorem clearMarker (h : d.InBounds) (name : String) : (d.clearMarker name).InBounds := by
  refine ⟨⟨h.now.selection, ?_⟩, h.history⟩
  intro name' span' hm
  have hm : (d.markers.erase name).get? name' = some span' := hm
  rw [Keyed.get?_erase] at hm
  split at hm
  · cases hm
  · exact h.now.marker name' span' hm

/-- A patch takes the markers along, and leaves the snapshot before it. -/
theorem takes (h : d.InBounds) (ht : d.Takes p d') (hs : d'.selection.Within d'.length) : d'.InBounds := by
  refine ⟨⟨hs, ?_⟩, ?_⟩
  · intro name span hm
    have hm : d'.marker? name = some span := hm
    rw [ht.marker?_eq name] at hm
    obtain ⟨before, hb, rfl⟩ := Option.map_eq_some_iff.1 hm
    exact ht.within (h.now.marker name before hb)
  · intro s hm
    rcases ht.mem_history hm with rfl | hm
    · exact h.now
    · exact h.history s hm

theorem undo (h : d.InBounds) : (d.undo?.getD d).InBounds := by
  unfold Document.undo?
  split
  · exact h
  · next s history hs =>
    have hh := h.history
    rw [hs] at hh
    exact ⟨hh s List.mem_cons_self, fun s' hm => hh s' (List.mem_cons_of_mem s hm)⟩

/-- **Every operation leaves the selection and the markers in the text**, if it puts markers on the text only. -/
theorem attempt (h : d.InBounds) (hm : d.marksText op = true) {made : Option Patch}
    (ha : d.attempt op = .ok (d', made)) : d'.InBounds := by
  cases op with
  | select anchor head =>
    obtain ⟨d₁, hd, he⟩ := ok_of_map ha
    cases he
    exact h.select? hd
  | moveTo pos =>
    obtain ⟨d₁, hd, he⟩ := ok_of_map ha
    cases he
    exact h.select? hd
  | setSelection selection =>
    cases ha
    exact h.select (selection.within_clamp d.length)
  | setMarker name span =>
    cases ha
    exact h.setMarker name (of_decide_eq_true hm)
  | clearMarker name =>
    cases ha
    exact h.clearMarker name
  | protect readonly =>
    cases ha
    exact ⟨h.now, h.history⟩
  | report =>
    cases ha
    exact ⟨h.now, h.history⟩
  | edit p =>
    obtain ⟨d₁, hd, he⟩ := ok_of_map ha
    cases he
    exact h.takes (takes_of_edit? hd) (within_edit? h.now.selection hd)
  | type c =>
    obtain ⟨⟨d₁, p⟩, hd, he⟩ := ok_of_map ha
    cases he
    exact h.takes (takes_of_type? hd).1 ((lands_type? h.now.selection c).within hd)
  | backspace =>
    obtain ⟨⟨d₁, p⟩, hd, he⟩ := ok_of_map ha
    cases he
    exact h.takes (takes_of_backspace? hd).1 ((lands_backspace? h.now.selection).within hd)
  | insertSnippet span snippet =>
    obtain ⟨d₂, hd, he⟩ := ok_of_map ha
    have hs := within_insertSnippet? hd
    obtain ⟨p, d₁, ht, rfl⟩ := takes_of_insertSnippet? hd
    cases he
    have hi : d₁.InBounds := h.takes ht hs
    exact ⟨hi.now, hi.history⟩
  | undo =>
    cases ha
    exact h.undo

theorem perform (h : d.InBounds) (hm : d.marksText op = true) : (d.perform op).InBounds := by
  unfold Document.perform
  split
  · next ha => exact h.attempt hm ha
  · exact h

/-! ## Runs -/

theorem run {ops : List Operation} (h : d.InBounds) (hm : d.marksTexts ops = true) : (d.run ops).InBounds := by
  induction ops generalizing d with
  | nil => exact h
  | cons op ops ih =>
    obtain ⟨hop, hm⟩ := Bool.and_eq_true_iff.1 hm
    exact ih (h.perform hop) hm

end InBounds

/-- **The selection and the markers of a document always fit its text**, whatever is done to it from the start, so that
typing and taking back are refused only where it may not be written to. -/
theorem run_in_bounds (id : DocId) (text : Text) (autoPairs widget : Bool) {ops : List Operation}
    (h : ({ id, text, autoPairs, widget } : Document).marksTexts ops = true) :
    let d := ({ id, text, autoPairs, widget } : Document).run ops
    d.selection.anchor ≤ d.length ∧ d.selection.head ≤ d.length ∧
      (∀ name span, d.marker? name = some span → span.start ≤ span.stop ∧ span.stop ≤ d.length) ∧
      (∀ c error, d.type? c = .error error → error = .readonly ∧ d.readonly = true) ∧
      ∀ error, d.backspace? = .error error → error = .readonly ∧ d.readonly = true := by
  intro d
  have hd : d.InBounds := (InBounds.of_text id text autoPairs widget).run h
  obtain ⟨ha, hh⟩ := hd.now.selection
  refine ⟨ha, hh, hd.now.marker, ?_, ?_⟩
  · intro c error he
    exact (lands_type? hd.now.selection c).readonly he
  · intro error he
    exact (lands_backspace? hd.now.selection).readonly he

/-- A snippet that breaks off in a stop takes the place of a marked stretch, and undoing brings the marker back where
the text is shorter again. -/
theorem run_in_bounds_after_broken_snippet :
    let ops : List Operation := [.select 4 1, .setMarker "m" ⟨1, 4⟩, .insertSnippet ⟨1, 4⟩ "xyz$\x7b2:uv".toList,
      .moveTo 6, .type '(', .undo, .undo, .setSelection ⟨9, 2⟩, .protect true]
    let d := ({ id := 1, text := "abcd".toList } : Document).run ops
    d.text = "abcd".toList ∧ d.marker? "m" = some ⟨1, 4⟩ ∧ d.selection.anchor ≤ d.length ∧
      ∀ error, d.type? 'x' = .error error → error = .readonly ∧ d.readonly = true := by
  intro ops d
  have hm : ({ id := 1, text := "abcd".toList } : Document).marksTexts ops = true := by decide +kernel
  obtain ⟨ha, -, -, ht, -⟩ := run_in_bounds 1 "abcd".toList true false hm
  exact ⟨by decide +kernel, by decide +kernel, ha, ht 'x'⟩

end Document
end Shorthand
