import Shorthand.Proofs.Snippet.Template
/-!
# Guarded stops

In a guarded snippet every tab stop stands right behind a quote or an angle bracket, and nothing but the stops has a
dollar (`Guarded`).  When such a snippet, which ends in a quote or a bracket itself, is flattened, the caret goes right
behind one of them (`caret_guarded`).
-/
namespace Shorthand.Snippet

/-- A quote, or the bracket that ends a tag. -/
def IsGuard (c : Char) : Prop := c = '"' ∨ c = '>'

/-- **Read behind the char `last`, every stop of the snippet stands right behind a guard**, and the last char that is
left behind, which is no part of a stop, is `last'` then. -/
inductive Guarded : Option Char → Text → Option Char → Prop
  | nil {last : Option Char} : Guarded last [] last
  | char {last last' : Option Char} {c : Char} {t : Text} (plain : c ≠ '$') (rest : Guarded (some c) t last') :
      Guarded last (c :: t) last'
  | stop {c : Char} {last' : Option Char} {number : Nat} {t : Text} (guard : IsGuard c)
      (rest : Guarded (some c) t last') : Guarded (some c) (writeStop number [] ++ t) last'

variable {last last' last'' : Option Char} {t t' : Text}

namespace Guarded

theorem append (h : Guarded last t last') (h' : Guarded last' t' last'') : Guarded last (t ++ t') last'' := by
  induction h with
  | nil => exact h'
  | char plain _ ih => exact .char plain (ih h')
  | stop guard _ ih =>
    rw [List.append_assoc]
    exact .stop guard (ih h')

theorem of_plain (h : '$' ∉ t) (last : Option Char) : ∃ last', Guarded last t last' := by
  induction t generalizing last with
  | nil => exact ⟨last, .nil⟩
  | cons c t ih =>
    obtain ⟨hc, ht⟩ := List.ne_and_not_mem_of_not_mem_cons h
    obtain ⟨last', hr⟩ := ih ht (some c)
    exact ⟨last', .char hc.symm hr⟩

/-- Only a guard has a dollar behind it. -/
theorem head?_ne {c : Char} (h : Guarded (some c) t last') (hc : ¬IsGuard c) : t.head? ≠ some '$' := by
  cases h with
  | nil => simp
  | char plain _ => simpa using plain
  | stop guard _ => exact absurd guard hc

/-- **Flattened behind the text `before`, the snippet has a guard right before each of its stops.** -/
theorem flat (h : Guarded last t last') {before : Text} (hb : before.getLast? = last) :
    (before ++ textOf (pieces t)).getLast? = last' ∧ ∀ s ∈ stopsFrom before.length (pieces t),
      ∃ c ∈ ((before ++ textOf (pieces t)).take s.2).getLast?, IsGuard c := by
  induction h generalizing before with
  | nil => exact ⟨by rw [← hb]; exact congrArg _ (List.append_nil before), nofun⟩
  | @char _ _ c t plain rest ih =>
    have hr : pieces (c :: t) = .char c :: pieces t :=
      pieces_cons plain fun hc => rest.head?_ne (by rw [hc]; simp [IsGuard])
    have hlast : (before ++ [c]).getLast? = some c := by simp
    have ih := ih hlast
    rw [List.length_append, List.append_assoc] at ih
    rw [hr]
    exact ih
  | @stop c _ number t guard _ ih =>
    have ih := ih hb
    have hclosed : closesBraces 0 [] = true := rfl
    rw [pieces_writeStop hclosed number t]
    refine ⟨ih.1, fun s hs => ?_⟩
    rcases List.mem_cons.1 hs with rfl | hs
    · exact ⟨c, by rw [List.take_left']; exacts [hb, rfl], guard⟩
    · exact ih.2 s hs

end Guarded

/-- **The caret goes right behind a guard** if a guard ends the snippet and stands before each of its stops. -/
theorem caret_guarded {c : Char} (h : Guarded none t (some c)) (hc : IsGuard c) :
    ∃ c' ∈ ((flatten t).text.take ((flatten t).caret.getD (flatten t).text.length)).getLast?, IsGuard c' := by
  have hnil : ([] : Text).getLast? = none := rfl
  obtain ⟨hl, hs⟩ := h.flat hnil
  unfold flatten
  dsimp only
  cases hf : firstStop (stopsFrom 0 (pieces t)) with
  | none => exact ⟨c, by rw [Option.map_none, Option.getD_none, List.take_length]; exact hl, hc⟩
  | some s => exact hs s (firstStop_mem hf)

end Shorthand.Snippet
