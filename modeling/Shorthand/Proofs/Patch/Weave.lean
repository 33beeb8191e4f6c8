import Mathlib.Data.List.Chain
import Shorthand.Proofs.Patch.Checked
/-!
# What a patch makes of a text, all at once

Replacements make a patch just if each of them lies in the text and none starts before the end of the one in front of
it.  The text after the patch is then woven of two kinds of pieces, in order: what lies between the replacements, as it
was, and what they put in (`weave`).  So nothing depends on their being made from the last to the first
(`replaceAll_eq_weave`), and those without an effect may be among them or not (`of?_all_at_once`).
-/
namespace Shorthand.Patch

open Replacement (Fits)

variable {length last : Nat} {rs : List Replacement} {t : Text} {p : Patch}

/-! ## Which replacements make a patch -/

/-- Replacements follow one another just if each lies in the text and none starts before the end of the one in front of
it. -/
theorem fits_iff : ∀ {last : Nat} {rs : List Replacement}, Fits length last rs ↔
    (∀ r ∈ rs, r.start ≤ r.stop ∧ r.stop ≤ length) ∧ (∀ r ∈ rs.head?, last ≤ r.start) ∧
      rs.IsChain fun r r' => r.stop ≤ r'.start
  | _, [] => by simp [Fits]
  | last, [r] => by
    simp only [Fits, List.mem_singleton, List.head?_cons, Option.mem_def, Option.some.injEq, forall_eq,
      forall_eq', List.IsChain.singleton, and_true]
    tauto
  | last, r :: r' :: rs => by
    have ih := @fits_iff r.stop (r' :: rs)
    rw [Fits, ih, List.isChain_cons_cons, List.forall_mem_cons (l := r' :: rs)]
    simp only [List.head?_cons, Option.mem_def, Option.some.injEq, forall_eq']
    tauto

/-- A patch is made of its own replacements. -/
theorem of?_replacements (p : Patch) : of? p.length p.replacements = .ok p := by
  refine of?_eq_ok_iff.2 ⟨p.fits, rfl, (List.filter_eq_self.2 ?_).symm⟩
  intro r hr
  exact decide_eq_true (p.effective r hr)

/-- The length after the replacements can be counted from first to last without going below zero. -/
theorem extentChecked_eq : ∀ {last n : Nat} {rs : List Replacement}, Fits length last rs → length ≤ last + n →
    extentChecked length last n rs = some (.ok
      ((rs.filter fun r => r.Effective).foldl (fun n r => n - r.removed + r.inserted.length) n))
  | _, _, [], _, _ => rfl
  | last, n, r :: rs, ⟨h₁, h₂, h₃, h₄⟩, hn => by
    have hr : r.removed = r.stop - r.start := rfl
    unfold extentChecked
    rw [if_neg (by omega), if_neg (by omega), if_neg (by omega)]
    by_cases he : r.Effective
    · rw [if_pos he, List.filter_cons_of_pos (by simpa using he), List.foldl_cons, sub?_of_le h₂]
      simp only [Option.bind_eq_bind, Option.bind_some]
      rw [sub?_of_le (by omega), Option.bind_some, extentChecked_eq h₄ (by omega), hr]
    · have hs : r.start = r.stop := Decidable.not_not.1 (not_or.1 he).1
      rw [if_neg he, List.filter_cons_of_neg (by simpa using he), extentChecked_eq h₄ (by omega)]

/-! ## What it makes of the text -/

/-- **What is left of `t` from `last` on, with what the replacements put in**: the pieces of `t` between the
replacements and their own pieces, in order. -/
def weave (t : Text) : Nat → List Replacement → Text
  | last, [] => t.drop last
  | last, r :: rs => t.slice last r.start ++ (r.inserted ++ weave t r.stop rs)

/-- **Made from the last to the first, the replacements weave the text**: those made so far leave what is in front of
them as it was. -/
theorem replaceAll_eq_weave : ∀ {last : Nat} {rs : List Replacement}, Fits t.length last rs →
    replaceAll rs t = t.take last ++ weave t last rs
  | last, [], _ => (List.take_append_drop last t).symm
  | last, r :: rs, ⟨h₁, h₂, h₃, h₄⟩ => by
    have hl : (t.take r.stop).length = r.stop := by rw [List.length_take]; omega
    calc replaceAll (r :: rs) t
      _ = Text.splice (t.take r.stop ++ weave t r.stop rs) r.start r.stop r.inserted := by
        rw [← replaceAll_eq_weave h₄]
        rfl
      _ = t.take r.start ++ (r.inserted ++ weave t r.stop rs) := by
        unfold Text.splice
        rw [List.drop_left' hl, List.take_append_of_le_length (by omega), List.take_take, Nat.min_eq_left h₂]
      _ = t.take last ++ weave t last (r :: rs) := by
        rw [weave, ← List.append_assoc (t.take last), ← Text.slice_zero t last,
          Text.slice_append_slice t (Nat.zero_le last) h₁, Text.slice_zero]

theorem replaceAll_filter (t : Text) : ∀ rs : List Replacement,
    replaceAll (rs.filter fun r => r.Effective) t = replaceAll rs t
  | [] => rfl
  | r :: rs => by
    have ih := replaceAll_filter t rs
    have hc : replaceAll (r :: rs) t = (replaceAll rs t).splice r.start r.stop r.inserted := rfl
    by_cases he : r.Effective
    · rw [List.filter_cons_of_pos (by simpa using he), hc, ← ih]
      rfl
    · obtain ⟨hs, hi⟩ := not_or.1 he
      rw [List.filter_cons_of_neg (by simpa using he), hc, ih, ← Decidable.not_not.1 hs, Decidable.not_not.1 hi,
        Text.splice_nothing]

/-- **The text after a patch is woven by the replacements that it has been made of.** -/
theorem result?_eq_weave (h : of? t.length rs = .ok p) : p.result? t = .ok (weave t 0 rs) := by
  obtain ⟨hf, hl, hr⟩ := of?_eq_ok_iff.1 h
  unfold result?
  rw [if_pos hl.symm, hr, replaceAll_filter, replaceAll_eq_weave hf]
  rfl

/-- **Replacements make a patch just if they are well formed, and a patch replaces all at once.**  It is the patch of
its own replacements, and its length has been counted without going below zero.  A text of the length it is for becomes
the untouched pieces with the others in between, as long as the patch says, and nothing is read or written behind its
end; a text of any other length is refused. -/
theorem of?_all_at_once (length : Nat) (rs : List Replacement) :
    ((∃ p, of? length rs = .ok p) ↔
      (∀ r ∈ rs, r.start ≤ r.stop ∧ r.stop ≤ length) ∧ rs.IsChain fun r r' => r.stop ≤ r'.start) ∧
    ∀ p, of? length rs = .ok p →
      of? p.length p.replacements = .ok p ∧
      extentChecked length 0 length rs = some (.ok p.lengthAfter) ∧
      ∀ t : Text, p.resultChecked? t = some (p.result? t) ∧
        (t.length = length → p.result? t = .ok (weave t 0 rs) ∧ (weave t 0 rs).length = p.lengthAfter) ∧
        (t.length ≠ length → p.result? t = .error (.lengthMismatch length t.length)) := by
  constructor
  · constructor
    · rintro ⟨p, hp⟩
      obtain ⟨hin, -, hc⟩ := fits_iff.1 (of?_eq_ok_iff.1 hp).1
      exact ⟨hin, hc⟩
    · rintro ⟨hin, hc⟩
      have hf : Fits length 0 rs := fits_iff.2 ⟨hin, fun r _ => Nat.zero_le r.start, hc⟩
      obtain ⟨p, hp, -⟩ := of?_of_fits hf
      exact ⟨p, hp⟩
  · intro p hp
    obtain ⟨hf, hl, hr⟩ := of?_eq_ok_iff.1 hp
    refine ⟨of?_replacements p, ?_, fun t => ⟨resultChecked?_eq p t, ?_, ?_⟩⟩
    · rw [extentChecked_eq hf (Nat.le_add_left length 0), ← hr, ← hl]
      rfl
    · rintro rfl
      have ht : p.result? t = .ok (weave t 0 rs) := result?_eq_weave hp
      exact ⟨ht, length_of_result? ht⟩
    · intro ht
      rw [← hl]
      exact if_neg (hl ▸ ht)

/-- Two pieces put in at one offset follow one another as listed, and what has no effect may stand between them. -/
theorem of?_all_at_once_at_one_offset :
    let rs : List Replacement := [⟨0, 1, ['H']⟩, ⟨5, 5, [',']⟩, ⟨5, 5, []⟩, ⟨5, 5, " oh".toList⟩, ⟨6, 11, "you".toList⟩]
    ∃ p, of? 11 rs = .ok p ∧ p.replacements.length = 4 ∧ of? 11 p.replacements = .ok p ∧
      p.result? "hello world".toList = .ok "Hello, oh you".toList ∧ p.lengthAfter = 13 ∧
      p.result? "hello".toList = .error (.lengthMismatch 11 5) := by
  intro rs
  have hmade := (of?_all_at_once 11 rs).1.2 (by decide)
  obtain ⟨p, hp⟩ := hmade
  obtain ⟨hself, -, htext⟩ := (of?_all_at_once 11 rs).2 p hp
  obtain ⟨-, hlength, hreplacements⟩ := of?_eq_ok_iff.1 hp
  have hwoven : weave "hello world".toList 0 rs = "Hello, oh you".toList := by decide +kernel
  obtain ⟨hresult, hafter⟩ := (htext "hello world".toList).2.1 (by decide +kernel)
  rw [hwoven] at hresult hafter
  have hother : p.result? "hello".toList = .error (.lengthMismatch 11 "hello".toList.length) :=
    (htext "hello".toList).2.2 (by decide +kernel)
  exact ⟨p, hp, by rw [hreplacements]; decide +kernel, hlength ▸ hself, hresult, hafter.symm, hother⟩

end Shorthand.Patch
