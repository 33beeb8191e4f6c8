import Shorthand.Abbreviation.Location
/-!
# What is located

An abbreviation located left of an offset is not empty and ends there (`locate?_eq_some`).  Behind a marker it holds
nothing blank (`not_isBlank_of_locate?`).  Without one it may hold anything that ends no abbreviation, so that one is
found wherever something of that kind stands right before the offset (`isSome_locate?_of_getLast?`).
-/
namespace Shorthand.Abbreviation

open Text (isBlank)

variable {line before : Text} {pos : Nat} {lead : Option Text} {x : Located}

theorem locate?_eq_some (h : locate? line pos lead = some x) :
    ∃ start, start + (lead.map List.length).getD 0 < (line.take pos).length ∧
      x = ⟨(line.take pos).drop (start + (lead.map List.length).getD 0), start, (line.take pos).length,
        start + (lead.map List.length).getD 0⟩ := by
  unfold locate? at h
  dsimp only at h
  split at h
  · next lead =>
    obtain ⟨start, -, h⟩ := Option.bind_eq_some_iff.1 h
    split at h
    · next hlt =>
      cases h
      exact ⟨start, hlt, rfl⟩
    · cases h
  · split at h
    · next hlt =>
      cases h
      exact ⟨bareStart (line.take pos), hlt, rfl⟩
    · cases h

theorem locate?_some (h : locate? line pos lead = some x) : x.location - x.start = (lead.map List.length).getD 0 := by
  obtain ⟨start, -, rfl⟩ := locate?_eq_some h
  exact Nat.add_sub_cancel_left start _

/-- An abbreviation that is located ends where it is looked for. -/
theorem locate?_stop (h : locate? line pos lead = some x) : x.stop = (line.take pos).length := by
  obtain ⟨start, -, rfl⟩ := locate?_eq_some h
  rfl

/-- What is located is an end of the text before the offset, and not an empty one. -/
theorem getLast?_of_locate? (h : locate? line pos lead = some x) : x.text.getLast? = (line.take pos).getLast? := by
  obtain ⟨start, hlt, rfl⟩ := locate?_eq_some h
  rw [List.getLast?_drop, if_neg (Nat.not_le.2 hlt)]

theorem subset_of_locate? (h : locate? line pos lead = some x) : x.text ⊆ line.take pos := by
  obtain ⟨start, -, rfl⟩ := locate?_eq_some h
  exact List.drop_subset _ _

/-! ## Behind a marker -/

/-- Behind the last marker nothing is blank. -/
theorem not_isBlank_of_lastLead? {lead : Text} {bound start : Nat} (h : lastLead? lead before bound = some start) :
    ∀ k, start ≤ k → k < bound → ∀ c, before[k + lead.length]? = some c → isBlank c = false := by
  induction bound with
  | zero => intro k _ hk; omega
  | succ bound ih =>
    intro k hs hk c hc
    unfold lastLead? at h
    split at h
    · cases h
    · next hb =>
      by_cases hk' : k = bound
      · subst hk'
        simpa [hc] using hb
      · split at h
        · cases h
          omega
        · exact ih h k hs (by omega) c hc

theorem not_isBlank_of_locate? {lead : Text} (h : locate? line pos (some lead) = some x) :
    ∀ c ∈ x.text, isBlank c = false := by
  unfold locate? at h
  dsimp only at h
  obtain ⟨start, hs, h⟩ := Option.bind_eq_some_iff.1 h
  split at h
  · next hlt =>
    cases h
    intro c hc
    obtain ⟨k, hk⟩ := List.mem_iff_getElem?.1 hc
    rw [List.getElem?_drop] at hk
    have hlen := (List.getElem?_eq_some_iff.1 hk).1
    refine not_isBlank_of_lastLead? hs (start + k) (Nat.le_add_right _ _) (by omega) c ?_
    rwa [Nat.add_right_comm] at hk
  · cases h

/-! ## Without a marker -/

theorem length_takeWhile_lt {p : Char → Bool} {t : Text} {c : Char} (hc : c ∈ t) (hp : p c = false) (behind : Text) :
    ((t ++ behind).takeWhile p).length < t.length := by
  induction t with
  | nil => cases hc
  | cons a t ih =>
    rw [List.cons_append, List.takeWhile_cons]
    by_cases ha : p a = true
    · rw [if_pos ha, List.length_cons, List.length_cons]
      rcases List.mem_cons.1 hc with rfl | hc
      · rw [hp] at ha
        cases ha
      · exact Nat.succ_lt_succ (ih hc)
    · rw [if_neg ha]
      exact Nat.succ_pos _

/-- An abbreviation without a marker starts before a last char that can be in one, unless that ends a tag. -/
theorem bareStart_lt {c : Char} (h : before.getLast? = some c) (hc : isOutside c = false) (hg : c ≠ '>') :
    bareStart before < before.length := by
  obtain ⟨w, rfl⟩ := List.getLast?_eq_some_iff.1 h
  have hrun : ((w ++ [c]).reverse.takeWhile fun c => !isOutside c).reverse =
      (w.reverse.takeWhile fun c => !isOutside c).reverse ++ [c] := by simp [hc]
  have hle : (w.reverse.takeWhile fun c => !isOutside c).reverse.length ≤ w.length := by
    simpa using (List.takeWhile_sublist (fun c => !isOutside c) (l := w.reverse)).length_le
  unfold bareStart
  rw [hrun]
  generalize (w.reverse.takeWhile fun c => !isOutside c).reverse = r at hle ⊢
  simp only [List.length_append, List.length_singleton]
  split
  · next hb =>
    simp only [Bool.and_eq_true, List.contains_append, Bool.or_eq_true] at hb
    have hmem : '>' ∈ r := by
      rcases hb.2 with hm | hm
      · simpa using hm
      · exact absurd (by simpa using hm) hg.symm
    have := length_takeWhile_lt (p := (· != '>')) hmem (by decide) [c]
    omega
  · omega

theorem isSome_locate?_of_getLast? {c : Char} (h : (line.take pos).getLast? = some c) (hc : isOutside c = false)
    (hg : c ≠ '>') : (locate? line pos none).isSome = true := by
  have hlt := bareStart_lt h hc hg
  unfold locate?
  dsimp only
  rw [if_pos hlt]
  rfl

end Shorthand.Abbreviation
