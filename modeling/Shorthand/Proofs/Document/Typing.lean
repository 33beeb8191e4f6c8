import Shorthand.Proofs.Document.Edit
/-!
# Typing at the caret

With nothing selected, a char typed between two texts (`Parted`) either steps over the same closer behind the caret
(`Parted.type?_over`) or is put in there, with the closer that it brings along behind it (`Parted.type?_in`).  In a
document with auto-pairs (`Between`), the closer is the char's own wherever no letter or digit follows.
-/
namespace Shorthand

open Text (closerOf isCloser isAlphanumeric)

theorem Selection.eq_point {s : Selection} (h : s.isEmpty = true) : s = .point s.head := by
  have he : s.anchor = s.head := of_decide_eq_true h
  cases s
  cases he
  rfl

namespace Document

variable {d d' : Document} {p : Patch} {before behind : Text} {c : Char}

theorem replacements_of_replace? {r : Replacement} (he : r.Effective) {caret : Nat}
    (h : d.replace? r caret = .ok (d', p)) : p.replacements = [r] := by
  unfold replace? at h
  split at h
  · cases h
  next p' hp =>
  split at h
  · cases h
  cases h
  obtain ⟨-, -, hr⟩ := Patch.of?_eq_ok_iff.1 hp
  rw [hr, List.filter_cons_of_pos (by simpa using he), List.filter_nil]

/-- **The caret stands between two texts**, with nothing selected, and the document may be written to. -/
structure Parted (d : Document) (before behind : Text) : Prop where
  text : d.text = before ++ behind
  selection : d.selection = .point before.length
  readonly : d.readonly = false

namespace Parted

/-- A caret in the text parts it. -/
theorem of_point {pos : Nat} (hw : d.readonly = false) (hs : d.selection = .point pos) (hpos : pos ≤ d.length) :
    d.Parted (d.text.take pos) (d.text.drop pos) := by
  refine ⟨(List.take_append_drop pos d.text).symm, ?_, hw⟩
  rw [List.length_take_of_le hpos, hs]

theorem span_eq (h : d.Parted before behind) : d.selection.span = .point before.length := by
  rw [h.selection]
  unfold Selection.span Selection.point Span.between Span.point
  dsimp only
  rw [Nat.min_self, Nat.max_self]

theorem next_eq (h : d.Parted before behind) : d.text[d.selection.span.stop]? = behind.head? := by
  rw [h.text, h.span_eq]
  unfold Span.point
  dsimp only
  rw [List.getElem?_append_right (Nat.le_refl _), Nat.sub_self, ← List.head?_eq_getElem?]

theorem length_le (h : d.Parted before behind) : before.length ≤ d.length := by
  unfold length
  rw [h.text, List.length_append]
  exact Nat.le_add_right _ _

theorem stepsOver_eq (h : d.Parted before behind) (c : Char) :
    d.stepsOver c = (d.autoPairs && isCloser c && decide (behind.head? = some c)) := by
  have he : d.selection.span.isEmpty = true := by rw [h.span_eq]; exact decide_eq_true (Nat.le_refl _)
  unfold stepsOver
  rw [h.next_eq, he, Bool.and_true]

theorem broughtCloser_eq (h : d.Parted before behind) (c : Char) :
    d.broughtCloser c = if d.autoPairs && !behind.head?.any isAlphanumeric then (closerOf c).toList else [] := by
  unfold broughtCloser
  rw [h.next_eq]

theorem stepsOver_of_not_closer (h : d.Parted before behind) (hc : isCloser c = false) : d.stepsOver c = false := by
  rw [h.stepsOver_eq, hc, Bool.and_false, Bool.false_and]

/-- Typing a closer that stands there steps over it. -/
theorem type?_over (h : d.Parted before (c :: behind)) (ha : d.autoPairs = true) (hc : isCloser c = true) :
    ∃ d', d.type? c = .ok (d', .empty d.length) ∧ d'.Parted (before ++ [c]) behind ∧
      d' = { d with selection := d'.selection } := by
  have hs : d.stepsOver c = true := by
    rw [h.stepsOver_eq, ha, hc, List.head?_cons]
    exact decide_eq_true rfl
  refine ⟨{ d with selection := .point (d.selection.span.stop + 1) }, ?_, ⟨?_, ?_, h.readonly⟩, rfl⟩
  · unfold type?
    dsimp only
    rw [if_pos hs]
  · rw [List.append_assoc]
    exact h.text
  · dsimp only
    rw [h.span_eq, List.length_append]
    rfl

/-- Typing any other char puts it there, and the closer that it brings along behind it. -/
theorem type?_in (h : d.Parted before behind) (hs : d.stepsOver c = false) :
    ∃ d' p, d.type? c = .ok (d', p) ∧ d.Takes p d' ∧ p.length = d.length ∧
      p.replacements = [⟨before.length, before.length, c :: d.broughtCloser c⟩] ∧
      d'.Parted (before ++ [c]) (d.broughtCloser c ++ behind) := by
  have he : (⟨before.length, before.length, c :: d.broughtCloser c⟩ : Replacement).Effective :=
    .inr (List.cons_ne_nil _ _)
  obtain ⟨d', p, hd, -, hx, hsel⟩ := replace?_ok (r := ⟨before.length, before.length, c :: d.broughtCloser c⟩)
    h.readonly (Nat.le_refl _) h.length_le (before.length + 1)
  have ht : d.type? c = .ok (d', p) := by
    unfold type?
    dsimp only
    rw [hs, h.span_eq]
    exact hd
  obtain ⟨htakes, hlen⟩ := takes_of_type? ht
  refine ⟨d', p, ht, htakes, hlen, replacements_of_replace? he hd, ⟨?_, ?_, ?_⟩⟩
  · rw [hx, h.text]
    unfold Text.splice
    rw [List.take_left', List.drop_left'] <;> simp
  · rw [hsel, List.length_append]
    rfl
  · exact htakes.readonly_eq.trans h.readonly

end Parted

/-- **The caret stands between two texts in a document with auto-pairs**: an opening bracket typed there brings its
closer along, unless a letter or digit follows, and a closer that stands there is stepped over. -/
structure Between (d : Document) (before behind : Text) : Prop extends d.Parted before behind where
  autoPairs : d.autoPairs = true

namespace Between

theorem broughtCloser_eq (h : d.Between before behind) (hn : behind.head?.any isAlphanumeric = false) (c : Char) :
    d.broughtCloser c = (closerOf c).toList := by
  rw [h.toParted.broughtCloser_eq, h.autoPairs, hn]
  rfl

/-- No edit turns auto-pairs off. -/
theorem of_takes (h : d.Between before behind) (ht : d.Takes p d') {before' behind' : Text}
    (hd : d'.Parted before' behind') : d'.Between before' behind' :=
  ⟨hd, ht.autoPairs_eq.trans h.autoPairs⟩

end Between
end Document

end Shorthand
