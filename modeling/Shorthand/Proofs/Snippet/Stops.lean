import Shorthand.Snippet
/-!
# The stop that the caret goes to

Of the stops of a snippet the first of those with the least rank is visited first (`firstStop_eq_some_iff`).  It has a
place in the flat text, so that the caret does too (`caret_le`).
-/
namespace Shorthand.Snippet

theorem firstStop_eq_none_iff {ss : List (Nat × Nat)} : firstStop ss = none ↔ ss = [] := by
  cases ss with
  | nil => simp [firstStop]
  | cons s ss =>
    unfold firstStop
    cases firstStop ss with
    | none => simp
    | some s' =>
      dsimp only
      split <;> simp

/-- **The first stop has the least rank, and those before it have a greater one.** -/
theorem firstStop_eq_some_iff {s : Nat × Nat} {ss : List (Nat × Nat)} : firstStop ss = some s ↔
    ∃ before behind, ss = before ++ s :: behind ∧ (∀ b ∈ before, s.1 < b.1) ∧ ∀ b ∈ behind, s.1 ≤ b.1 := by
  induction ss generalizing s with
  | nil => simp [firstStop]
  | cons s₀ ss ih =>
    constructor
    · intro h
      unfold firstStop at h
      split at h
      · next hn =>
        cases h
        exact ⟨[], [], by rw [firstStop_eq_none_iff.1 hn, List.nil_append], nofun, nofun⟩
      next s' hs =>
      obtain ⟨before, behind, rfl, hb, ha⟩ := ih.1 hs
      split at h
      · next hlt =>
        cases h
        exact ⟨s₀ :: before, behind, rfl, List.forall_mem_cons.2 ⟨hlt, hb⟩, ha⟩
      · next hge =>
        cases h
        have hle : s₀.1 ≤ s'.1 := Nat.le_of_not_lt hge
        refine ⟨[], _, rfl, nofun, fun b hm => ?_⟩
        rcases List.mem_append.1 hm with hm | hm
        · exact Nat.le_trans hle (Nat.le_of_lt (hb b hm))
        · rcases List.mem_cons.1 hm with rfl | hm
          · exact hle
          · exact Nat.le_trans hle (ha b hm)
    · rintro ⟨before, behind, he, hb, ha⟩
      unfold firstStop
      cases before with
      | nil =>
        obtain ⟨rfl, rfl⟩ := List.cons.inj he
        cases hs : firstStop ss with
        | none => rfl
        | some s' =>
          obtain ⟨before, behind, rfl, -, -⟩ := ih.1 hs
          have hle : s₀.1 ≤ s'.1 := ha s' (by simp)
          dsimp only
          rw [if_neg (Nat.not_lt.2 hle)]
      | cons b before =>
        obtain ⟨rfl, rfl⟩ := List.cons.inj he
        obtain ⟨hlt, hb⟩ := List.forall_mem_cons.1 hb
        rw [ih.2 ⟨before, behind, rfl, hb, ha⟩]
        exact if_pos hlt

theorem firstStop_mem {stop : Nat × Nat} {ss : List (Nat × Nat)} (h : firstStop ss = some stop) : stop ∈ ss := by
  obtain ⟨before, behind, rfl, -, -⟩ := firstStop_eq_some_iff.1 h
  simp

theorem le_of_mem_stopsFrom {stop : Nat × Nat} : ∀ {offset : Nat} {ps : List Piece}, stop ∈ stopsFrom offset ps →
    stop.2 ≤ offset + (textOf ps).length
  | _, [], h => nomatch h
  | offset, .char c :: ps, h => by
    have ih : stop.2 ≤ offset + 1 + (textOf ps).length := le_of_mem_stopsFrom h
    have hl : (textOf (.char c :: ps)).length = (textOf ps).length + 1 := rfl
    omega
  | offset, .stop number :: ps, h => by
    have hl : textOf (.stop number :: ps) = textOf ps := rfl
    rw [hl]
    rcases List.mem_cons.1 h with rfl | h
    · exact Nat.le_add_right _ _
    · exact le_of_mem_stopsFrom h

/-- The caret goes to a place in the flat text. -/
theorem caret_le (snippet : Text) :
    (flatten snippet).caret.getD (flatten snippet).text.length ≤ (flatten snippet).text.length := by
  unfold flatten
  dsimp only
  cases hs : firstStop (stopsFrom 0 (pieces snippet)) with
  | none => exact Nat.le_refl _
  | some stop =>
    have h := le_of_mem_stopsFrom (firstStop_mem hs)
    rw [Nat.zero_add] at h
    exact h

end Shorthand.Snippet
