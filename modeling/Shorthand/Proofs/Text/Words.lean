import Shorthand.Text.Blank
/-!
# Words

A blank char parts the words in front of it from those behind it (`words_append_cons`), and that is all there is to the
words of a text: chars that are not blank are one word (`words_eq_singleton`), and chars that are all blank are none.
-/
namespace Shorthand.Text

variable {t w gap : List Char} {c : Char}

theorem words_cons_of_blank (hc : isBlank c = true) (t : List Char) : words (c :: t) = words t := by
  conv => lhs; unfold words
  rw [if_pos hc]

/-- A char in front of a word belongs to it. -/
theorem words_cons_cons {d : Char} (hc : isBlank c = false) (hd : isBlank d = false) {ws : List (List Char)}
    (h : words (d :: t) = w :: ws) : words (c :: d :: t) = (c :: w) :: ws := by
  conv => lhs; unfold words
  rw [if_neg (by rw [hc]; exact Bool.false_ne_true)]
  dsimp only
  rw [if_neg (by rw [hd]; exact Bool.false_ne_true), h]

theorem words_ne_nil (hc : isBlank c = false) (t : List Char) : words (c :: t) ≠ [] := by
  unfold words
  rw [if_neg (by rw [hc]; exact Bool.false_ne_true)]
  cases t with
  | nil => exact List.cons_ne_nil _ _
  | cons d t =>
    dsimp only
    split
    · exact List.cons_ne_nil _ _
    · split <;> exact List.cons_ne_nil _ _

/-- **A blank char parts the words.** -/
theorem words_append_cons (hc : isBlank c = true) (behind : List Char) :
    ∀ t : List Char, words (t ++ c :: behind) = words t ++ words behind
  | [] => words_cons_of_blank hc behind
  | a :: t => by
    have ih := words_append_cons hc behind t
    cases ha : isBlank a with
    | true => rw [List.cons_append, words_cons_of_blank ha, words_cons_of_blank ha, ih]
    | false =>
      cases t with
      | nil => simp [words, ha, hc]
      | cons d t =>
        cases hd : isBlank d with
        | true =>
          have hone (x : List Char) : words (a :: d :: x) = [a] :: words (d :: x) := by simp [words, ha, hd]
          rw [List.cons_append, List.cons_append, hone, hone, ← List.cons_append, ih]
          rfl
        | false =>
          obtain ⟨w, ws, hw⟩ := List.exists_cons_of_ne_nil (words_ne_nil hd t)
          rw [List.cons_append, hw] at ih
          rw [List.cons_append, List.cons_append, words_cons_cons ha hd hw, words_cons_cons ha hd ih]
          rfl

theorem words_blank_append (hg : ∀ c ∈ gap, isBlank c = true) (t : List Char) : words (gap ++ t) = words t := by
  induction gap with
  | nil => rfl
  | cons c gap ih =>
    rw [List.cons_append, words_cons_of_blank (hg c List.mem_cons_self)]
    exact ih fun c hc => hg c (List.mem_cons_of_mem _ hc)

/-- **So does a run of blank chars**, which has no word in it. -/
theorem words_append_gap (hg : ∀ c ∈ gap, isBlank c = true) (hn : gap ≠ []) (t behind : List Char) :
    words (t ++ (gap ++ behind)) = words t ++ words behind := by
  obtain ⟨c, gap, rfl⟩ := List.exists_cons_of_ne_nil hn
  rw [List.cons_append, words_append_cons (hg c List.mem_cons_self),
    words_blank_append fun c hc => hg c (List.mem_cons_of_mem _ hc)]

theorem words_append_blank (hg : ∀ c ∈ gap, isBlank c = true) (t : List Char) : words (t ++ gap) = words t := by
  cases gap with
  | nil => rw [List.append_nil]
  | cons c gap =>
    have h := words_append_gap hg (List.cons_ne_nil c gap) t []
    rwa [List.append_nil, words, List.append_nil] at h

theorem words_eq_singleton (hn : w ≠ []) (hw : ∀ c ∈ w, isBlank c = false) : words w = [w] := by
  induction w with
  | nil => exact absurd rfl hn
  | cons c w ih =>
    have hc := hw c List.mem_cons_self
    cases w with
    | nil => simp [words, hc]
    | cons d w =>
      have hd := hw d (List.mem_cons_of_mem _ List.mem_cons_self)
      exact words_cons_cons hc hd (ih (List.cons_ne_nil d w) fun a ha => hw a (List.mem_cons_of_mem _ ha))

end Shorthand.Text
