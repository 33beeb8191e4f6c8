import Shorthand.Proofs.Session.Completion
import Shorthand.Proofs.Text.Line
/-!
# Extracting an abbreviation

The abbreviation left of an offset is looked for in the line of the offset (`Session.found?`), unless something is
tracked around it.  What is found is tracked in place of what was tracked elsewhere, and where nothing is found nothing
is tracked any more (`suggest_of_not_tracksAt`).  The command to extract and the completion list do no more to tracking
than that (`quiet_extract`, `quiet_onQueryCompletions`).
-/
namespace Shorthand.Session

open Abbreviation (Located locate?)

variable {s : Session} {pos : Nat}

/-- The caret, or whatever else is at `pos`, is in the region tracked. -/
def tracksAt (s : Session) (pos : Nat) : Bool := s.tracker?.any (·.region.contains pos)

/-- The abbreviation left of `pos`, in its line. -/
def found? (s : Session) (pos : Nat) : Option Located :=
  let lineStart := Text.lineStart s.document.text pos
  if s.document.length < pos then none
  else locate? (s.document.text.slice lineStart pos) (pos - lineStart) s.service.lead?

/-- The tracker of an abbreviation found left of `pos`. -/
def extracted (s : Session) (pos : Nat) (x : Located) : Tracker :=
  let lineStart := Text.lineStart s.document.text pos
  let span := Span.between (lineStart + x.start) (lineStart + x.stop)
  s.readAt { region := span, offset := x.location - x.start, options := s.optionsAt pos true } span

theorem startExtracted_eq (s : Session) (pos : Nat) : s.startExtracted pos = match s.found? pos with
    | none => (s, none)
    | some x => (s.hold (s.extracted pos x), some (s.extracted pos x)) := by
  have hlead : (s.optionsAt pos true).lead = s.service.lead? := rfl
  unfold startExtracted found?
  dsimp only
  split
  · rfl
  · rw [hlead]
    cases locate? _ _ s.service.lead? with
    | none => rfl
    | some x => exact congrArg (Prod.mk _) (tracker?_hold s (s.extracted pos x))

theorem found?_eq_some {x : Located} (h : s.found? pos = some x) : pos ≤ s.document.text.length ∧
    locate? (s.document.text.slice (Text.lineStart s.document.text pos) pos)
      (pos - Text.lineStart s.document.text pos) s.service.lead? = some x := by
  unfold found? at h
  dsimp only at h
  split at h
  · cases h
  · next hpos => exact ⟨Nat.le_of_not_lt hpos, h⟩

/-- **What is found is the end of the line before `pos`.** -/
theorem span_found? {x : Located} (h : s.found? pos = some x) :
    let lineStart := Text.lineStart s.document.text pos
    lineStart + x.start < pos ∧ x.text ≠ [] ∧
      Span.between (lineStart + x.start) (lineStart + x.stop) = ⟨lineStart + x.start, pos⟩ := by
  obtain ⟨hpos, h⟩ := found?_eq_some h
  have hline := Text.lineStart_le s.document.text pos
  obtain ⟨start, hlt, rfl⟩ := Abbreviation.locate?_eq_some h
  rw [Text.take_line hpos] at hlt ⊢
  have hlen := Text.length_line hpos
  dsimp only
  refine ⟨by omega, fun he => ?_, ?_⟩
  · have := List.drop_eq_nil_iff.1 he
    omega
  · rw [hlen, Span.between_of_le (by omega), Nat.add_sub_cancel' hline]

theorem region_extracted {x : Located} (h : s.found? pos = some x) :
    (s.extracted pos x).region = ⟨Text.lineStart s.document.text pos + x.start, pos⟩ := by
  obtain ⟨hlt, -, hspan⟩ := span_found? h
  have hw : Span.Within ⟨Text.lineStart s.document.text pos + x.start, pos⟩ s.document.length :=
    ⟨Nat.le_of_lt hlt, (found?_eq_some h).1⟩
  unfold extracted
  dsimp only
  rw [hspan]
  exact Span.clamp_eq_self hw

/-- **What is found is what the tracker of it reads.** -/
theorem reading_extracted {x : Located} (h : s.found? pos = some x) :
    (s.extracted pos x).reading = .of Abbreviation.read x.text := by
  obtain ⟨hlt', -, hspan⟩ := span_found? h
  obtain ⟨hpos, h⟩ := found?_eq_some h
  have hline := Text.lineStart_le s.document.text pos
  unfold extracted
  dsimp only
  rw [hspan, reading_readAt s _ ⟨Nat.le_of_lt hlt', hpos⟩]
  obtain ⟨start, hlt, rfl⟩ := Abbreviation.locate?_eq_some h
  rw [Text.take_line hpos, Text.length_line hpos] at hlt
  rw [Text.take_line hpos]
  dsimp only
  rw [Nat.add_sub_cancel_left, Nat.min_eq_left (by omega)]
  unfold Text.slice
  rw [List.drop_drop, Nat.add_assoc]

/-- What is tracked around `pos` already is what is suggested there. -/
theorem suggest_of_tracksAt (h : s.tracksAt pos = true) : (s.suggest pos).1 = s := by
  obtain ⟨t, ht, hc⟩ := (Option.any_eq_true _ _).1 h
  unfold suggest
  split
  · rfl
  · rw [ht]
    dsimp only
    rw [if_pos hc]

theorem suggest_of_untracked (ha : s.service.allowsTracking = true) (h : s.tracker? = none) :
    s.suggest pos = s.startExtracted pos := by
  unfold suggest
  rw [ha, h]
  rfl

/-- **What is suggested** where nothing is tracked already is what is found, whatever is tracked elsewhere. -/
theorem suggest_of_not_tracksAt (ha : s.service.allowsTracking = true) (h : s.tracksAt pos = false) :
    ∃ s₀, (s₀ = s ∧ s.tracker? = none ∨ s₀ = s.stop) ∧ s₀.tracker? = none ∧ s₀.found? pos = s.found? pos ∧
      s.suggest pos = s₀.startExtracted pos := by
  unfold suggest
  rw [ha]
  cases ht : s.tracker? with
  | none => exact ⟨s, .inl ⟨rfl, rfl⟩, ht, rfl, rfl⟩
  | some t =>
    have hc : t.region.contains pos = false := by
      unfold tracksAt at h
      rw [ht] at h
      exact h
    exact ⟨s.stop, .inr rfl, tracker?_stop s, rfl, by simp [hc]⟩

theorem quiet_extract (s : Session) : (s.suggest s.document.caret).1.Quiet s.extract := by
  unfold extract
  split
  · next s₁ hs => rw [hs]; exact .refl s₁
  · next s₁ t hs => rw [hs]; exact .showPreview s₁

theorem onQueryCompletions_of_unasked (h : s.service.completionAsked = false) (pos : Nat) :
    s.onQueryCompletions pos = (s, none) := by
  unfold onQueryCompletions
  rw [h]
  rfl

theorem quiet_onQueryCompletions (h : s.service.completionAsked = true) (pos : Nat) :
    (s.suggest pos).1.Quiet (s.onQueryCompletions pos).1 := by
  rw [onQueryCompletions_of_asked h]
  rcases s.suggest pos with ⟨s', _ | t⟩
  · exact .askCompletion s' false
  · exact (Quiet.expansion s').trans (.askCompletion _ false)

end Shorthand.Session
