import Shorthand.Proofs.Document.Typing
import Shorthand.Proofs.Text.Brackets
/-!
# Typing balanced text

A text is transparent if typing it char by char puts just that text in, wherever the caret is and whatever follows it
(`Transparent`).  Single brackets are not: an opener may bring its closer along, and a closer may be stepped over.  The
two go together, since both depend on the char behind the caret.  Where a closer has come along, it stands behind the
caret again when all between the brackets has been typed; where none has, the closer typed is not what stands there
(`types_closer`).  So every balanced text is transparent (`typeAll_balanced`).
-/
namespace Shorthand.Document

open Text (Balanced closerOf isCloser isAlphanumeric)

variable {d d' d₁ : Document} {p : Patch} {before behind w w' : Text} {c close : Char}

/-! ## Typing a text -/

/-- Typing all of `w` takes `d` to `d'`, and no char is refused. -/
def Types (d : Document) (w : Text) (d' : Document) : Prop := ∃ patches, d.typeAll w = (d', .ok patches)

theorem types_nil (d : Document) : d.Types [] d := ⟨[], rfl⟩

theorem types_cons_iff : d.Types (c :: w) d' ↔ ∃ d₁ p, d.type? c = .ok (d₁, p) ∧ d₁.Types w d' := by
  constructor
  · rintro ⟨patches, h⟩
    unfold typeAll at h
    split at h
    · cases h
    next d₁ p hc =>
    cases hr : d₁.typeAll w with
    | mk d₂ made =>
      rw [hr] at h
      cases made with
      | error _ => cases h
      | ok patches => cases h; exact ⟨d₁, p, hc, patches, hr⟩
  · rintro ⟨d₁, p, hc, patches, h⟩
    refine ⟨p :: patches, ?_⟩
    unfold typeAll
    rw [hc]
    dsimp only
    rw [h]
    rfl

theorem types_single (h : d.type? c = .ok (d', p)) : d.Types [c] d' := types_cons_iff.2 ⟨d', p, h, types_nil d'⟩

theorem Types.append (h : d.Types w d₁) (h' : d₁.Types w' d') : d.Types (w ++ w') d' := by
  induction w generalizing d with
  | nil =>
    obtain ⟨patches, he⟩ := h
    cases he
    exact h'
  | cons c w ih =>
    obtain ⟨d₂, p, hc, hw⟩ := types_cons_iff.1 h
    exact types_cons_iff.2 ⟨d₂, p, hc, ih hw⟩

/-! ## Transparent texts -/

/-- **Typing `w` puts just `w` in**, wherever the caret is and whatever follows it. -/
def Transparent (w : Text) : Prop :=
  ∀ ⦃d : Document⦄ ⦃before behind : Text⦄, d.Parted before behind →
    ∃ d', d.Types w d' ∧ d'.Parted (before ++ w) behind ∧ d'.autoPairs = d.autoPairs

theorem transparent_nil : Transparent [] := by
  intro d before behind h
  refine ⟨d, types_nil d, ?_, rfl⟩
  rwa [List.append_nil]

theorem Transparent.append (h : Transparent w) (h' : Transparent w') : Transparent (w ++ w') := by
  intro d before behind hd
  obtain ⟨d₁, ht, hd₁, ha⟩ := h hd
  obtain ⟨d₂, ht', hd₂, ha'⟩ := h' hd₁
  rw [List.append_assoc] at hd₂
  exact ⟨d₂, ht.append ht', hd₂, ha'.trans ha⟩

theorem Parted.broughtCloser_of_none (h : d.Parted before behind) (ho : closerOf c = none) :
    d.broughtCloser c = [] := by
  rw [h.broughtCloser_eq, ho]
  exact ite_self _

/-- A char that is no bracket is put in as it is. -/
theorem transparent_char (opens : closerOf c = none) (closes : isCloser c = false) : Transparent [c] := by
  intro d before behind h
  obtain ⟨d', p, ht, htakes, -, -, hd⟩ := h.type?_in (h.stepsOver_of_not_closer closes)
  rw [h.broughtCloser_of_none opens, List.nil_append] at hd
  exact ⟨d', types_single ht, hd, htakes.autoPairs_eq⟩

/-- **Typing a closer leaves it there once**, whether it has come along with the opener or not. -/
theorem types_closer (opens : closerOf c = some close)
    (h : d.Parted before
      ((if d.autoPairs && !behind.head?.any isAlphanumeric then (closerOf c).toList else []) ++ behind)) :
    ∃ d', d.Types [close] d' ∧ d'.Parted (before ++ [close]) behind ∧ d'.autoPairs = d.autoPairs := by
  obtain ⟨-, hopens, hcloses⟩ := Text.closer_of_closerOf opens
  split at h
  · next hbrought =>
    rw [opens] at h
    obtain ⟨d', ht, hd, he⟩ := h.type?_over (Bool.and_eq_true_iff.1 hbrought).1 hcloses
    exact ⟨d', types_single ht, hd, by rw [he]⟩
  · next hbrought =>
    -- nothing is brought along, or a letter or digit follows, which is no closer
    have hs : d.stepsOver close = false := by
      rw [← Bool.not_eq_true]
      intro hover
      rw [h.stepsOver_eq, List.nil_append] at hover
      simp only [Bool.and_eq_true, decide_eq_true_eq] at hover
      obtain ⟨⟨ha, -⟩, hnext⟩ := hover
      rw [ha, hnext, Option.any_some, Text.isAlphanumeric_of_isCloser hcloses] at hbrought
      exact hbrought rfl
    obtain ⟨d', p, ht, htakes, -, -, hd⟩ := h.type?_in hs
    rw [h.broughtCloser_of_none hopens] at hd
    exact ⟨d', types_single ht, hd, htakes.autoPairs_eq⟩

/-- Brackets around a transparent text make a transparent text. -/
theorem Transparent.pair (opens : closerOf c = some close) (h : Transparent w) :
    Transparent (c :: (w ++ [close])) := by
  intro d before behind hd
  obtain ⟨hcloses, -, -⟩ := Text.closer_of_closerOf opens
  obtain ⟨d₁, p, ht, htakes, -, -, hd₁⟩ := hd.type?_in (hd.stepsOver_of_not_closer hcloses)
  obtain ⟨d₂, ht', hd₂, ha⟩ := h hd₁
  have ha : d₂.autoPairs = d.autoPairs := ha.trans htakes.autoPairs_eq
  rw [hd.broughtCloser_eq, ← ha] at hd₂
  obtain ⟨d₃, ht'', hd₃, ha'⟩ := types_closer opens hd₂
  refine ⟨d₃, types_cons_iff.2 ⟨d₁, p, ht, ht'.append ht''⟩, ?_, ha'.trans ha⟩
  simpa using hd₃

theorem transparent_of_balanced (h : Balanced w) : Transparent w := by
  induction h with
  | nil => exact transparent_nil
  | char opens closes => exact transparent_char opens closes
  | pair opens _ ih => exact ih.pair opens
  | append _ _ ih ih' => exact ih.append ih'

/-- **A balanced text is typed as it is**, closers brought along or not and whatever follows the caret: no char is
refused, the text stands at the caret just once, and the caret right behind it. -/
theorem typeAll_balanced {pos : Nat} (hw : d.readonly = false) (hs : d.selection = .point pos) (hpos : pos ≤ d.length)
    (hb : Balanced w) :
    ∃ d' patches, d.typeAll w = (d', .ok patches) ∧ d'.text = d.text.take pos ++ (w ++ d.text.drop pos) ∧
      d'.selection = .point (pos + w.length) := by
  have hl : (d.text.take pos).length = pos := List.length_take_of_le hpos
  obtain ⟨d', ⟨patches, ht⟩, hd', -⟩ := transparent_of_balanced hb (.of_point hw hs hpos)
  refine ⟨d', patches, ht, ?_, ?_⟩
  · rw [hd'.text, List.append_assoc]
  · rw [hd'.selection, List.length_append, hl]

/-- In front of a closer and behind a letter, with another bracket of each kind within. -/
theorem typeAll_balanced_in_brackets :
    let d : Document := { id := 1, text := "a)b".toList, selection := .point 1 }
    let w := "x[\x7b(y)\x7d()]z".toList
    d.readonly = false ∧ Balanced w ∧
      ∃ d' patches, d.typeAll w = (d', .ok patches) ∧ d'.text = "ax[\x7b(y)\x7d()]z)b".toList ∧ d'.selection = .point 12 := by
  intro d w
  have hb : Balanced w := Text.balanced_iff.2 (by decide)
  obtain ⟨d', patches, ht, hx, hs⟩ := typeAll_balanced (d := d) (w := w) rfl rfl (by decide) hb
  exact ⟨rfl, hb, d', patches, ht, hx, hs⟩

end Shorthand.Document
