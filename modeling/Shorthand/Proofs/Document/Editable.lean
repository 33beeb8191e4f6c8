import Shorthand.Proofs.Document.Edit
import Shorthand.Proofs.Snippet.Stops
/-!
# Documents that take every edit

Typing, taking back and putting snippets in leave the selection in the text if it was there before, and are refused
only where the document may not be written to (`Lands`).  So a document that may be written to and whose selection lies
in the text, now and after any number of undos, takes every edit: it is `Editable`, and stays so.
-/
namespace Shorthand

/-! ## Selections in the text -/

/-- Both ends lie in a text of `length` chars. -/
def Selection.Within (s : Selection) (length : Nat) : Prop := s.anchor ≤ length ∧ s.head ≤ length

theorem Selection.within_clamp (s : Selection) (length : Nat) : (s.clamp length).Within length :=
  ⟨Nat.min_le_right _ _, Nat.min_le_right _ _⟩

theorem Selection.Within.span {s : Selection} {length : Nat} (h : s.Within length) : s.span.Within length := by
  obtain ⟨ha, hh⟩ := h
  unfold Selection.span Span.between Span.Within
  dsimp only
  omega

namespace Document

open Text (closerOf isCloser)

variable {d d' : Document} {p : Patch}

/-! ## Edits at the selection -/

/-- **The edit is made and leaves the selection in the text**, or it is refused because the document may not be written
to. -/
inductive Lands (d : Document) : Except DocumentError (Document × Patch) → Prop
  | made {d' : Document} {p : Patch} (selection : d'.selection.Within d'.length) : Lands d (.ok (d', p))
  | refused (readonly : d.readonly = true) : Lands d (.error .readonly)

/-- A replacement in the text lands, if the caret then has a place in the text. -/
theorem lands_replace? {r : Replacement} (hs : r.start ≤ r.stop) (hl : r.stop ≤ d.length) {caret : Nat}
    (hc : caret ≤ d.length + r.inserted.length - (r.stop - r.start)) : d.Lands (d.replace? r caret) := by
  cases hw : d.readonly with
  | false =>
    obtain ⟨d', p, hd, -, ht, hsel⟩ := replace?_ok hw hs hl caret
    have hlen : d'.length = d.length + r.inserted.length - (r.stop - r.start) := by
      unfold length
      rw [ht, Text.length_splice hs hl]
    rw [← hlen] at hc
    rw [hd]
    exact .made (hsel ▸ ⟨hc, hc⟩)
  | true =>
    have hfits : Replacement.Fits d.length 0 [r] := ⟨Nat.zero_le _, hs, hl, trivial⟩
    obtain ⟨p, hp, -⟩ := Patch.of?_of_fits hfits
    have he : d.replace? r caret = .error .readonly := by simp [Document.replace?, edit?, hp, hw]
    rw [he]
    exact .refused hw

theorem lands_type? (h : d.selection.Within d.length) (c : Char) : d.Lands (d.type? c) := by
  obtain ⟨hs, hl⟩ := h.span
  unfold type?
  dsimp only
  split
  · next hover =>
    have hlt : d.selection.span.stop < d.text.length := by
      unfold stepsOver at hover
      simp only [Bool.and_eq_true, decide_eq_true_eq] at hover
      exact (List.getElem?_eq_some_iff.1 hover.2).1
    exact .made ⟨hlt, hlt⟩
  · exact lands_replace? hs hl (by simp only [List.length_cons]; omega)

theorem lt_length_of_isPairAround {pos : Nat} (h : d.isPairAround pos = true) : pos < d.length := by
  unfold isPairAround at h
  split at h
  · exact (List.getElem?_eq_some_iff.1 (of_decide_eq_true h)).1
  · cases h

theorem lands_backspace? (h : d.selection.Within d.length) : d.Lands d.backspace? := by
  obtain ⟨hs, hl⟩ := h.span
  unfold backspace?
  dsimp only
  split
  · exact lands_replace? hs hl (by simp only [List.length_nil]; omega)
  · split
    · exact .made h
    · next hpos =>
      split
      · next hpair =>
        have hlt := lt_length_of_isPairAround (Bool.and_eq_true_iff.1 hpair).2
        exact lands_replace? (by dsimp only; omega) (by dsimp only; omega) (by simp only [List.length_nil]; omega)
      · exact lands_replace? (by dsimp only; omega) (by dsimp only; omega) (by simp only [List.length_nil]; omega)

/-- The replacement that puts a snippet in lands, wherever the stops of the snippet are. -/
theorem lands_snippet {span : Span} (hs : span.Within d.length) (snippet : Text) :
    let flat := Snippet.flatten snippet
    d.Lands (d.replace? ⟨span.start, span.stop, flat.text⟩ (span.start + flat.caret.getD flat.text.length)) := by
  have hc := Snippet.caret_le snippet
  generalize Snippet.flatten snippet = flat at hc
  obtain ⟨hs, hl⟩ := hs
  exact lands_replace? hs hl (by dsimp only; omega)

theorem select?_cases (d : Document) (anchor head : Nat) :
    ((d.length < anchor ∨ d.length < head) ∧ ∃ error, d.select? anchor head = .error error) ∨
      (¬(d.length < anchor ∨ d.length < head) ∧
        d.select? anchor head = .ok { d with selection := ⟨anchor, head⟩ }) := by
  unfold select?
  split
  · next ha => exact .inl ⟨.inl ha, _, rfl⟩
  · next ha =>
    split
    · next hh => exact .inl ⟨.inr hh, _, rfl⟩
    · next hh => exact .inr ⟨not_or.2 ⟨ha, hh⟩, rfl⟩

/-! ## Editable documents -/

/-- **The document takes every edit**: it may be written to, and its selection lies in the text, like those that undoing
brings back. -/
structure Editable (d : Document) : Prop where
  writable : d.readonly = false
  selection : d.selection.Within d.length
  history : ∀ s ∈ d.history, s.selection.Within s.text.length

namespace Editable

theorem select (h : d.Editable) (selection : Selection) (hs : selection.Within d.length) :
    Editable { d with selection } := ⟨h.writable, hs, h.history⟩

theorem takes (h : d.Editable) (ht : d.Takes p d') (hs : d'.selection.Within d'.length) : d'.Editable where
  writable := ht.readonly_eq.trans h.writable
  selection := hs
  history s hm := by
    rcases ht.mem_history hm with rfl | hm
    · exact h.selection
    · exact h.history s hm

/-- An edit that lands is made. -/
theorem lands (h : d.Editable) {made : Except DocumentError (Document × Patch)} (hl : d.Lands made)
    (ht : ∀ {d' p}, made = .ok (d', p) → d.Takes p d') : ∃ d' p, made = .ok (d', p) ∧ d'.Editable := by
  cases hl with
  | made selection => exact ⟨_, _, rfl, h.takes (ht rfl) selection⟩
  | refused readonly => rw [h.writable] at readonly; cases readonly

theorem type? (h : d.Editable) (c : Char) : ∃ d' p, d.type? c = .ok (d', p) ∧ d'.Editable :=
  h.lands (lands_type? h.selection c) fun hd => (takes_of_type? hd).1

theorem backspace? (h : d.Editable) : ∃ d' p, d.backspace? = .ok (d', p) ∧ d'.Editable :=
  h.lands (lands_backspace? h.selection) fun hd => (takes_of_backspace? hd).1

theorem insertSnippet? (h : d.Editable) {span : Span} (hs : span.Within d.length) (snippet : Text) :
    ∃ d', d.insertSnippet? span snippet = .ok d' ∧ d'.Editable := by
  obtain ⟨d', p, hd, he⟩ := h.lands (lands_snippet hs snippet) fun hd => (takes_of_replace? hd).1
  unfold Document.insertSnippet?
  dsimp only
  rw [hd]
  exact ⟨_, rfl, he.writable, he.selection, he.history⟩

theorem undo? (h : d.Editable) (hu : d.undo? = some d') : d'.Editable := by
  unfold Document.undo? at hu
  split at hu
  · cases hu
  · next s history hs =>
    cases hu
    have hh := h.history
    rw [hs] at hh
    exact ⟨h.writable, hh s List.mem_cons_self, fun s' hm => hh s' (List.mem_cons_of_mem s hm)⟩

end Editable
end Document
end Shorthand
