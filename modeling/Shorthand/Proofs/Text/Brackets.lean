import Shorthand.Text.Alphanumeric
import Shorthand.Text.Basic
import Shorthand.Text.Character
/-!
# Brackets that are open

In a balanced text (`Balanced`) every bracket that opens is closed by its own closer, the innermost first.  Behind a
beginning of such a text the closers of the brackets still open are due (`due`); a char more opens another bracket,
closes the innermost, or changes nothing of that (`due_append`).
-/
namespace Shorthand.Text

/-- Every bracket is closed by its closer, in the right order. -/
inductive Balanced : Text → Prop
  | nil : Balanced []
  | char {c : Char} (opens : closerOf c = none) (closes : isCloser c = false) : Balanced [c]
  | pair {c close : Char} {t : Text} (opens : closerOf c = some close) (inner : Balanced t) :
      Balanced (c :: (t ++ [close]))
  | append {t t' : Text} (left : Balanced t) (right : Balanced t') : Balanced (t ++ t')

/-- The closers due behind `t`, those of the list being due before it; none if `t` closes what is not open. -/
def dueFrom : Text → Text → Option Text
  | closers, [] => some closers
  | closers, c :: t =>
    match closerOf c with
    | some close => dueFrom (close :: closers) t
    | none =>
      if isCloser c then
        match closers with
        | [] => none
        | close :: outer => if c = close then dueFrom outer t else none
      else dueFrom closers t

/-- **The closers of the brackets still open in `t`**, the innermost first. -/
def due (t : Text) : Text := (dueFrom [] t).getD []

/-! ## Chars -/

theorem closer_of_closerOf {c close : Char} (h : closerOf c = some close) :
    isCloser c = false ∧ closerOf close = none ∧ isCloser close = true := by
  unfold closerOf at h
  split at h
  · cases h; decide
  · cases h; decide
  · cases h; decide
  · cases h

theorem isAlphanumeric_of_isCloser {c : Char} (h : isCloser c = true) : isAlphanumeric c = false := by
  simp only [isCloser, Bool.or_eq_true, decide_eq_true_eq] at h
  rcases h with (rfl | rfl) | rfl <;> decide

theorem isLineBreak_of_isCloser {c : Char} (h : isCloser c = true) : isLineBreak c = false := by
  simp only [isCloser, Bool.or_eq_true, decide_eq_true_eq] at h
  rcases h with (rfl | rfl) | rfl <;> decide

/-! ## Scanning -/

theorem dueFrom_cons (closers : Text) (c : Char) (t : Text) :
    dueFrom closers (c :: t) = (dueFrom closers [c]).bind fun closers => dueFrom closers t := by
  simp only [dueFrom]
  cases closerOf c with
  | some close => rfl
  | none =>
    dsimp only
    split
    · cases closers with
      | nil => rfl
      | cons close outer =>
        dsimp only
        split <;> rfl
    · rfl

theorem dueFrom_append (closers t t' : Text) :
    dueFrom closers (t ++ t') = (dueFrom closers t).bind fun closers => dueFrom closers t' := by
  induction t generalizing closers with
  | nil => rfl
  | cons c t ih =>
    rw [List.cons_append, dueFrom_cons, dueFrom_cons closers c t, Option.bind_assoc]
    exact congrArg _ (funext ih)

theorem dueFrom_open {c close : Char} (h : closerOf c = some close) (closers : Text) :
    dueFrom closers [c] = some (close :: closers) := by
  unfold dueFrom
  rw [h]
  rfl

theorem dueFrom_close {c : Char} (h : isCloser c = true) (hn : closerOf c = none) {closers closers' : Text}
    (hc : dueFrom closers [c] = some closers') : closers = c :: closers' := by
  unfold dueFrom at hc
  rw [hn] at hc
  dsimp only at hc
  rw [if_pos h] at hc
  split at hc
  · cases hc
  · split at hc
    · next he =>
      cases hc
      rw [he]
    · cases hc

theorem dueFrom_other {c : Char} (h : closerOf c = none) (h' : isCloser c = false) (closers : Text) :
    dueFrom closers [c] = some closers := by
  unfold dueFrom
  rw [h]
  dsimp only
  rw [h']
  rfl

/-- **A balanced text leaves due what was due before it.** -/
theorem Balanced.dueFrom_eq {t : Text} (h : Balanced t) (closers : Text) : dueFrom closers t = some closers := by
  induction h generalizing closers with
  | nil => rfl
  | char opens closes => exact dueFrom_other opens closes closers
  | @pair c close t opens _ ih =>
    obtain ⟨-, hn, hc⟩ := closer_of_closerOf opens
    have hpair : c :: (t ++ [close]) = [c] ++ (t ++ [close]) := rfl
    rw [hpair, dueFrom_append, dueFrom_open opens, Option.bind_some, dueFrom_append, ih, Option.bind_some]
    unfold dueFrom
    rw [hn]
    dsimp only
    rw [if_pos hc, if_pos rfl]
    rfl
  | append _ _ ih ih' => rw [dueFrom_append, ih, Option.bind_some, ih']

/-- `t` closes the given brackets one after the other, and whatever else it opens. -/
def Closes : Text → Text → Prop
  | [], t => Balanced t
  | close :: closers, t => ∃ inner t', t = inner ++ close :: t' ∧ Balanced inner ∧ Closes closers t'

theorem Balanced.closes_append {t : Text} (h : Balanced t) : ∀ {closers t' : Text}, Closes closers t' →
    Closes closers (t ++ t')
  | [], _, h' => .append h h'
  | _ :: _, _, ⟨inner, t', he, hi, hc⟩ => ⟨t ++ inner, t', by rw [he, List.append_assoc], .append h hi, hc⟩

theorem closes_of_dueFrom : ∀ {t closers : Text}, dueFrom closers t = some [] → Closes closers t
  | [], _, h => by cases h; exact .nil
  | c :: t, closers, h => by
    rw [dueFrom_cons] at h
    obtain ⟨closers', hc, h⟩ := Option.bind_eq_some_iff.1 h
    have ih := closes_of_dueFrom h
    cases ho : closerOf c with
    | some close =>
      rw [dueFrom_open ho] at hc
      cases hc
      obtain ⟨inner, t', rfl, hi, hc⟩ := ih
      have hp := (Balanced.pair ho hi).closes_append hc
      rwa [List.cons_append, List.append_assoc] at hp
    | none =>
      cases hx : isCloser c with
      | true =>
        rw [dueFrom_close hx ho hc]
        exact ⟨[], t, rfl, .nil, ih⟩
      | false =>
        rw [dueFrom_other ho hx] at hc
        cases hc
        exact (Balanced.char ho hx).closes_append ih

/-- **The texts that leave nothing due are the balanced ones.** -/
theorem balanced_iff {t : Text} : Balanced t ↔ dueFrom [] t = some [] :=
  ⟨fun h => h.dueFrom_eq [], closes_of_dueFrom⟩

theorem dueFrom_of_prefix {t rest : Text} (h : Balanced (t ++ rest)) : dueFrom [] t = some (due t) := by
  have hd := h.dueFrom_eq []
  rw [dueFrom_append] at hd
  obtain ⟨closers, hc, -⟩ := Option.bind_eq_some_iff.1 hd
  unfold due
  rw [hc]
  rfl

/-- **One more char** of a beginning of a balanced text is the first of the closers due, or else makes its own closer
due, if it has one. -/
theorem due_append {t rest : Text} {c : Char} (h : Balanced (t ++ c :: rest)) :
    (isCloser c = true ∧ due t = c :: due (t ++ [c])) ∨
    (isCloser c = false ∧ due (t ++ [c]) = (closerOf c).toList ++ due t) := by
  have ht : dueFrom [] t = some (due t) := dueFrom_of_prefix h
  have hc : dueFrom (due t) [c] = some (due (t ++ [c])) := by
    have h' : Balanced ((t ++ [c]) ++ rest) := by rwa [List.append_assoc]
    have hd := dueFrom_of_prefix h'
    rwa [dueFrom_append, ht, Option.bind_some] at hd
  cases ho : closerOf c with
  | some close =>
    rw [dueFrom_open ho] at hc
    exact .inr ⟨(closer_of_closerOf ho).1, (Option.some.inj hc).symm⟩
  | none =>
    cases hx : isCloser c with
    | true => exact .inl ⟨rfl, dueFrom_close hx ho hc⟩
    | false =>
      rw [dueFrom_other ho hx] at hc
      exact .inr ⟨rfl, (Option.some.inj hc).symm⟩

/-- What is due is closers only. -/
theorem isCloser_of_mem_dueFrom : ∀ {t closers closers' : Text}, (∀ c ∈ closers, isCloser c = true) →
    dueFrom closers t = some closers' → ∀ c ∈ closers', isCloser c = true
  | [], _, _, hc, h => by cases h; exact hc
  | d :: t, closers, closers', hc, h => by
    unfold dueFrom at h
    split at h
    · next close ho =>
      refine isCloser_of_mem_dueFrom (fun c hm => ?_) h
      rcases List.mem_cons.1 hm with rfl | hm
      · exact (closer_of_closerOf ho).2.2
      · exact hc c hm
    · split at h
      · split at h
        · cases h
        · split at h
          · exact isCloser_of_mem_dueFrom (fun c hm => hc c (List.mem_cons_of_mem _ hm)) h
          · cases h
      · exact isCloser_of_mem_dueFrom hc h

theorem isCloser_of_mem_due {t : Text} {c : Char} (h : c ∈ due t) : isCloser c = true := by
  cases hd : dueFrom [] t with
  | none =>
    unfold due at h
    rw [hd] at h
    cases h
  | some closers =>
    unfold due at h
    rw [hd] at h
    exact isCloser_of_mem_dueFrom (fun _ hm => absurd hm List.not_mem_nil) hd c h

end Shorthand.Text
