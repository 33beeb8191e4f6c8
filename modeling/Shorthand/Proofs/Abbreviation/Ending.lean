import Shorthand.Proofs.Abbreviation.Reading
/-!
# How an abbreviation ends

Whatever a phrase takes from a text ends with a char of a name or one that stands for itself (`Trims`), so that no text
is read that ends with anything else, such as a line break (`isEnding_of_read`).
-/
namespace Shorthand.Abbreviation

variable {s s' left : Text}

/-- `c` may end a phrase. -/
def isEnding (c : Char) : Bool :=
  isNameChar c || c.isDigit || "\"'[]()\x7b\x7d.#*+>^= ".toList.contains c

/-- **`left` is all of `s`, or what is left of it behind a char that may end a phrase.** -/
def Trims (s left : Text) : Prop := s = left ∨ ∃ w c, s = w ++ c :: left ∧ isEnding c = true

namespace Trims

theorem refl (s : Text) : Trims s s := .inl rfl

theorem trans (h : Trims s s') (h' : Trims s' left) : Trims s left := by
  rcases h' with rfl | ⟨w', c', rfl, hc'⟩
  · exact h
  · rcases h with rfl | ⟨w, c, rfl, -⟩
    · exact .inr ⟨w', c', rfl, hc'⟩
    · exact .inr ⟨w ++ c :: w', c', by simp, hc'⟩

theorem cons {c : Char} (hc : isEnding c = true) (s : Text) : Trims (c :: s) s := .inr ⟨[], c, rfl, hc⟩

theorem append {w : Text} (hw : ∀ c ∈ w, isEnding c = true) (s : Text) : Trims (w ++ s) s := by
  induction w with
  | nil => exact refl s
  | cons c w ih =>
    exact (cons (hw c List.mem_cons_self) _).trans (ih fun c hc => hw c (List.mem_cons_of_mem _ hc))

/-- What stands before the last char taken does not matter. -/
theorem last (w : Text) {c : Char} (hc : isEnding c = true) (s : Text) : Trims (w ++ c :: s) s := .inr ⟨w, c, rfl, hc⟩

theorem run {name : Text} (h : IsRun name) (s : Text) : Trims (name ++ s) s :=
  append (fun c hc => by simp [isEnding, h c hc]) s

end Trims

theorem SpellsValue.trims {value : Text} (h : SpellsValue s value left) : Trims s left := by
  cases h with
  | run run => exact .run run left
  | @quoted q value left quote _ =>
    have hq : isEnding q = true := by rcases quote with rfl | rfl <;> decide
    exact .last (q :: value) hq left

theorem SpellsAttribute.trims {a : Attribute} (h : SpellsAttribute s a left) : Trims s left := by
  cases h with
  | bare run _ => exact .run run left
  | valued run _ spelled => exact (Trims.run run _).trans ((Trims.cons (by decide) _).trans spelled.trims)

theorem SpellsAttributes.trims {as : List Attribute} (h : SpellsAttributes s as left) : Trims s left := by
  induction h with
  | close => exact .cons (by decide) _
  | space _ ih => exact (Trims.cons (by decide) _).trans ih
  | cons first _ _ ih => exact first.trims.trans ih

theorem SpellsParts.trims {e e' : Element} (h : SpellsParts e s e' left) : Trims s left := by
  induction h with
  | done => exact .refl _
  | className run _ _ ih => exact (Trims.cons (by decide) _).trans ((Trims.run run _).trans ih)
  | id run _ _ ih => exact (Trims.cons (by decide) _).trans ((Trims.run run _).trans ih)
  | @waiting _ c opener =>
    have hc : isEnding c = true := by rcases opener with rfl | rfl <;> decide
    exact .cons hc []
  | attributes list _ ih => exact (Trims.cons (by decide) _).trans (list.trims.trans ih)
  | @text _ _ text _ _ _ _ ih => exact (Trims.last ('\x7b' :: text) (by decide) _).trans ih

theorem SpellsElement.trims {e : Element} (h : SpellsElement s e left) : Trims s left := by
  cases h with
  | parts run parts _ => exact (Trims.run run _).trans parts.trims

theorem SpellsCount.trims {count : Nat} (h : SpellsCount s count left) : Trims s left := by
  cases h with
  | once => exact .refl _
  | times digit _ _ =>
    refine (Trims.cons (by decide) _).trans (.append (fun c hc => ?_) left)
    simp [isEnding, digit c hc]

theorem SpellsOperator.trims {o : Operator} (h : SpellsOperator s o left) : Trims s left := by
  cases h with
  | sibling => exact .cons (by decide) left
  | child => exact .cons (by decide) left
  | climb levels _ =>
    refine .append (fun c hc => ?_) left
    rw [List.eq_of_mem_replicate hc]
    decide

theorem Spells.trims {phrase : Phrase} (h : Spells phrase s left) : Trims s left := by
  induction h with
  | element element times => exact element.trims.trans times.trims
  | emptyGroup times => exact (Trims.cons (by decide) _).trans ((Trims.cons (by decide) _).trans times.trims)
  | group _ times ih =>
    exact (Trims.cons (by decide) _).trans (ih.trans ((Trims.cons (by decide) _).trans times.trims))
  | stay => exact .refl _
  | step operator _ _ ih ih' => exact operator.trims.trans (ih.trans ih')
  | chain _ _ ih ih' => exact ih.trans ih'

/-- **What is read ends with a char that may end a phrase.** -/
theorem isEnding_of_read {a : Text} {nodes : List Node} (h : read a = .ok nodes) {c : Char}
    (hc : a.getLast? = some c) : isEnding c = true := by
  obtain ⟨chain, hs, -⟩ := read_eq_ok_iff.1 h
  rcases hs.trims with rfl | ⟨w, d, rfl, hd⟩
  · cases hc
  · rw [List.getLast?_concat, Option.some.injEq] at hc
    exact hc ▸ hd

end Shorthand.Abbreviation
