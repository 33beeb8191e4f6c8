import Shorthand.Patch.Follow
/-!
# How far a patch reaches

A patch is there for all replacements that fit (`of?_eq_ok_iff`).  The text after it is as long as the patch says
(`length_of_result?`), and a span of the text before it is mapped to a span of the text after it (`mapSpan_within`).
Both count with `growth`, the change in length as an integer, since the text may shrink on the way.
-/
namespace Shorthand.Patch

open Replacement (Fits)

variable {length : Nat}

/-! ## The patches that there are -/

theorem of?_of_fits {rs : List Replacement} (h : Fits length 0 rs) :
    ∃ p, of? length rs = .ok p ∧ p.length = length ∧ p.replacements = rs.filter fun r => r.Effective := by
  unfold of?
  split
  · next error he =>
    rw [(fault?_eq_none_iff length 0 rs).2 h] at he
    cases he
  · exact ⟨_, rfl, rfl, rfl⟩

/-- **A patch is made of the replacements that have an effect**, if all of them fit. -/
theorem of?_eq_ok_iff {rs : List Replacement} {p : Patch} : of? length rs = .ok p ↔
    Fits length 0 rs ∧ p.length = length ∧ p.replacements = rs.filter fun r => r.Effective := by
  constructor
  · intro h
    unfold of? at h
    split at h
    · cases h
    · next he =>
      cases h
      exact ⟨(fault?_eq_none_iff length 0 rs).1 he, rfl, rfl⟩
  · rintro ⟨hf, hl, hr⟩
    obtain ⟨q, hq, hql, hqr⟩ := of?_of_fits hf
    rw [hq]
    cases p
    cases q
    cases hl.trans hql.symm
    cases hr.trans hqr.symm
    rfl

/-! ## The length after a patch -/

/-- The change in length that replacements make. -/
def growth : List Replacement → Int
  | [] => 0
  | r :: rs => r.inserted.length - r.removed + growth rs

theorem le_add_growth : ∀ {last : Nat} {rs : List Replacement}, last ≤ length → Fits length last rs →
    (last : Int) ≤ length + growth rs
  | last, [], h, _ => by simp only [growth]; omega
  | last, r :: rs, _, ⟨h₁, h₂, h₃, h₄⟩ => by
    have ih := le_add_growth h₃ h₄
    simp only [growth, Replacement.removed]
    omega

theorem foldl_eq_add_growth : ∀ {last n : Nat} {rs : List Replacement}, Fits length last rs → length ≤ last + n →
    ((rs.foldl (fun n r => n - r.removed + r.inserted.length) n : Nat) : Int) = n + growth rs
  | _, n, [], _, _ => by simp [growth]
  | last, n, r :: rs, ⟨h₁, h₂, h₃, h₄⟩, hn => by
    have hr : r.removed = r.stop - r.start := rfl
    have ih := foldl_eq_add_growth (n := n - r.removed + r.inserted.length) h₄ (by omega)
    rw [List.foldl_cons, ih]
    simp only [growth]
    omega

theorem lengthAfter_eq (p : Patch) : (p.lengthAfter : Int) = p.length + growth p.replacements :=
  foldl_eq_add_growth p.fits (by omega)

theorem lengthAfter_of_isEmpty {p : Patch} (h : p.isEmpty = true) : p.lengthAfter = p.length := by
  unfold lengthAfter
  rw [List.isEmpty_iff.1 h]
  rfl

theorem length_replaceAll : ∀ {last : Nat} {rs : List Replacement} {t : Text}, Fits t.length last rs →
    ((replaceAll rs t).length : Int) = t.length + growth rs
  | _, [], t, _ => by simp [replaceAll, growth]
  | _, r :: rs, t, ⟨h₁, h₂, h₃, h₄⟩ => by
    have ih := length_replaceAll h₄
    have hle := le_add_growth h₃ h₄
    have hs : r.stop ≤ (replaceAll rs t).length := by omega
    have hl := Text.length_splice h₂ hs r.inserted
    have he : replaceAll (r :: rs) t = (replaceAll rs t).splice r.start r.stop r.inserted := rfl
    rw [he, hl]
    simp only [growth, Replacement.removed]
    omega

/-- **The text after a patch has the length that the patch says.** -/
theorem length_of_result? {p : Patch} {t t' : Text} (h : p.result? t = .ok t') : t'.length = p.lengthAfter := by
  unfold result? at h
  split at h
  · next hl =>
    cases h
    have := length_replaceAll (t := t) (hl ▸ p.fits)
    have := lengthAfter_eq p
    omega
  · cases h

theorem length_eq_of_result? {p : Patch} {t t' : Text} (h : p.result? t = .ok t') : p.length = t.length := by
  unfold result? at h
  split at h
  · next hl => exact hl.symm
  · cases h

/-! ## Spans and positions -/

/-- What one replacement makes of a span, where the text up to it has been changed by `shift`. -/
theorem followSpan_cons {r : Replacement} {rs : List Replacement} {shift : Int} (h : 0 ≤ r.start + shift)
    (h' : r.start ≤ r.stop) (m : Span) :
    followSpan (r :: rs) shift m = followSpan rs (shift + r.inserted.length - r.removed)
      (if r.stop + shift < m.start then
        ⟨m.start + r.inserted.length - r.removed, m.stop + r.inserted.length - r.removed⟩
      else if r.start + shift ≤ m.stop then
        ⟨min m.start (moved r.start shift), max m.stop (moved r.stop shift) + r.inserted.length - r.removed⟩
      else m) := by
  have start_eq : (moved r.start shift : Int) = r.start + shift := Int.toNat_of_nonneg h
  have stop_eq : (moved r.stop shift : Int) = r.stop + shift := Int.toNat_of_nonneg (by omega)
  have removed_eq : moved r.stop shift - moved r.start shift = r.removed := by
    unfold Replacement.removed
    omega
  have hahead : moved r.stop shift < m.start ↔ r.stop + shift < m.start := by omega
  have htouching : moved r.start shift ≤ m.stop ↔ r.start + shift ≤ m.stop := by omega
  conv => lhs; unfold followSpan
  simp only [removed_eq, hahead, htouching]

/-- A span within a text of `n` chars, the original one having been changed by `shift` in front of `last`, stays within
it while the other replacements are made. -/
theorem followSpan_within : ∀ {rs : List Replacement} {last n : Nat} {shift : Int} {s : Span}, Fits length last rs →
    (n : Int) = length + shift → 0 ≤ last + shift → s.Within n →
    (followSpan rs shift s).Within (n + growth rs).toNat
  | [], _, n, _, s, _, _, _, hs => by simpa [followSpan, growth] using hs
  | r :: rs, last, n, shift, s, ⟨h₁, h₂, h₃, h₄⟩, hn, hl, hs => by
    obtain ⟨hs₁, hs₂⟩ := hs
    have start_eq : (moved r.start shift : Int) = r.start + shift := Int.toNat_of_nonneg (by omega)
    have stop_eq : (moved r.stop shift : Int) = r.stop + shift := Int.toNat_of_nonneg (by omega)
    have removed_eq : r.removed = r.stop - r.start := rfl
    -- what the replacement makes of the text around the span
    have hn' : ((n + r.inserted.length - r.removed : Nat) : Int) =
        length + (shift + r.inserted.length - r.removed) := by omega
    have hgrowth : n + growth (r :: rs) = (n + r.inserted.length - r.removed : Nat) + growth rs := by
      simp only [growth]
      omega
    rw [hgrowth, followSpan_cons (by omega) h₂]
    refine followSpan_within h₄ hn' (by omega) ?_
    split
    · constructor <;> dsimp only <;> omega
    · split
      · constructor <;> dsimp only <;> omega
      · constructor <;> omega

/-- **A span of the text becomes a span of the text after the patch.** -/
theorem mapSpan_within {p : Patch} {s : Span} (h : s.Within p.length) : (p.mapSpan s).Within p.lengthAfter := by
  have hn : (p.length : Int) = p.length + 0 := (Int.add_zero _).symm
  have hw := followSpan_within p.fits hn (by omega) h
  rwa [← lengthAfter_eq p, Int.toNat_natCast] at hw

theorem mapSpan_of_isEmpty {p : Patch} (h : p.isEmpty = true) (s : Span) : p.mapSpan s = s := by
  unfold mapSpan
  rw [List.isEmpty_iff.1 h]
  rfl

/-- A position in a text that has been changed by `shift` in front of `last` stays in it while the other replacements
are made. -/
theorem followPos_le (side : Side) : ∀ {rs : List Replacement} {last : Nat} {shift : Int} {pos : Nat},
    Fits length last rs → last ≤ length → 0 ≤ last + shift → pos ≤ length →
    (followPos side rs shift pos : Int) ≤ length + shift + growth rs
  | [], last, shift, pos, _, hlast, hl, hp => by
    simp only [followPos, growth, moved]
    omega
  | r :: rs, last, shift, pos, ⟨h₁, h₂, h₃, h₄⟩, hlast, hl, hp => by
    have removed_eq : r.removed = r.stop - r.start := rfl
    have hstart : (r.start : Int) ≤ length + growth (r :: rs) :=
      le_add_growth (by omega) ⟨Nat.le_refl _, h₂, h₃, h₄⟩
    have hstop := le_add_growth h₃ h₄
    unfold followPos
    split
    · -- the position is in front of the replacement
      next hlt =>
      have hle : pos ≤ r.start := by
        simp only [Bool.or_eq_true, Bool.and_eq_true, decide_eq_true_eq] at hlt
        omega
      unfold moved
      omega
    simp only [growth]
    split
    · cases side with
      | before => simp only [moved]; omega
      | after => simp only [moved]; omega
    · have ih : (followPos side rs (shift + r.inserted.length - r.removed) pos : Int) ≤ _ :=
        followPos_le side h₄ h₃ (by omega) hp
      omega

/-- **A position in the text becomes a position in the text after the patch.** -/
theorem mapPos_le {p : Patch} {pos : Nat} (h : pos ≤ p.length) (side : Side) : p.mapPos side pos ≤ p.lengthAfter := by
  have hle : (followPos side p.replacements 0 pos : Int) ≤ _ :=
    followPos_le side p.fits (Nat.zero_le _) (by omega) h
  have hl := lengthAfter_eq p
  unfold mapPos
  omega

/-- A piece put in within a span, or at one of its ends, becomes part of it. -/
theorem mapSpan_insertion {p : Patch} {pos : Nat} {piece : Text} (hp : p.replacements = [⟨pos, pos, piece⟩])
    {s : Span} (hs : s.start ≤ pos) (hs' : pos ≤ s.stop) : p.mapSpan s = ⟨s.start, s.stop + piece.length⟩ := by
  unfold mapSpan
  rw [hp]
  have h₁ : ¬ moved pos 0 < s.start := by unfold moved; omega
  have h₂ : moved pos 0 ≤ s.stop := by unfold moved; omega
  simp only [followSpan, if_neg h₁, if_pos h₂, Span.mk.injEq]
  unfold moved
  omega

/-- **Taking a piece out again brings every span back**, wherever it has been put in. -/
theorem mapSpan_takenOut {p q : Patch} {pos : Nat} {piece : Text} (hp : p.replacements = [⟨pos, pos, piece⟩])
    (hq : q.replacements = [⟨pos, pos + piece.length, []⟩]) (s : Span) : q.mapSpan (p.mapSpan s) = s := by
  unfold mapSpan
  rw [hp, hq, followSpan_cons (by dsimp only; omega) (Nat.le_add_right _ _),
    followSpan_cons (by dsimp only; omega) (Nat.le_refl _)]
  simp only [followSpan, Replacement.removed, List.length_nil]
  unfold moved
  split
  · rw [if_pos (by dsimp only; omega)]
    simp
  split
  · rw [if_neg (by dsimp only; omega), if_pos (by dsimp only; omega)]
    cases s
    simp only [Span.mk.injEq] at *
    omega
  · rw [if_neg (by omega)]

end Shorthand.Patch
