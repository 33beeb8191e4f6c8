import Shorthand.Proofs.Session.Extraction
/-!
# What is suggested

A query for the abbreviation at an offset answers with the tracker around the offset, and nothing changes; or else the
abbreviation left of the offset is tracked in place of whatever was tracked elsewhere (`Tracker.InPlace`), and where
there is none nothing is tracked any more.  Asking again gives the same answer and changes nothing (`suggest_suggest`).
-/
namespace Shorthand

open Abbreviation (Located)

/-- **`t` is on `x` as it stands right before `pos`** in the line there, and has been started by itself. -/
structure Tracker.InPlace (t : Tracker) (text : Text) (pos : Nat) (x : Located) : Prop where
  auto : t.forced = false
  stop_eq : t.region.stop = pos
  start_lt : t.region.start < pos
  line : Text.lineStart text t.region.start = Text.lineStart text pos
  reads : t.reading.text = x.text
  nonempty : x.text ≠ []

namespace Session

variable {s : Session} {pos : Nat} {t : Tracker}

theorem suggest_of_tracker (ha : s.service.allowsTracking = true) (ht : s.tracker? = some t)
    (hc : t.region.contains pos = true) : s.suggest pos = (s, some t) := by
  unfold suggest
  rw [ha, ht]
  exact if_pos hc

theorem inPlace_extracted {x : Located} (h : s.found? pos = some x) :
    (s.extracted pos x).InPlace s.document.text pos x := by
  obtain ⟨hlt, hne, -⟩ := span_found? h
  have hr := region_extracted h
  refine ⟨rfl, by rw [hr], by rw [hr]; exact hlt, ?_, ?_, hne⟩
  · rw [hr]
    exact Text.lineStart_eq_of_le (Nat.le_add_right _ _) (Nat.le_of_lt hlt)
  · rw [reading_extracted h, Reading.text_of]

/-- **What is there to be suggested** where nothing is tracked around `pos` is tracked then, and nothing else is. -/
theorem suggest_of_found? (ha : s.service.allowsTracking = true) (h : s.tracksAt pos = false)
    (hm : s.tracker? = none → s.marker? = none) :
    match s.found? pos with
    | none => (s.suggest pos).2 = none ∧ (s.suggest pos).1.tracker? = none ∧ (s.suggest pos).1.marker? = none
    | some x => ∃ t, (s.suggest pos).2 = some t ∧ (s.suggest pos).1.tracker? = some t ∧
        (s.suggest pos).1.marker? = some t.region ∧ t.InPlace s.document.text pos x := by
  obtain ⟨s₀, hs₀, hnone, hfound, hs⟩ := suggest_of_not_tracksAt ha h
  have htext : s₀.document.text = s.document.text ∧ s₀.marker? = none := by
    rcases hs₀ with ⟨rfl, ht⟩ | rfl
    · exact ⟨rfl, hm ht⟩
    · exact ⟨rfl, marker?_stop s⟩
  rw [hs, startExtracted_eq]
  cases hx : s.found? pos with
  | none =>
    rw [hfound.trans hx]
    exact ⟨rfl, hnone, htext.2⟩
  | some x =>
    have hx₀ := hfound.trans hx
    rw [hx₀]
    exact ⟨s₀.extracted pos x, rfl, tracker?_hold s₀ _, marker?_hold s₀ _, htext.1 ▸ inPlace_extracted hx₀⟩

/-- **Asking again gives the same answer** and changes nothing. -/
theorem suggest_suggest (ha : s.service.allowsTracking = true) (pos : Nat) :
    (s.suggest pos).1.suggest pos = s.suggest pos := by
  have hk := (tends_suggest s pos).keeps
  have ha' : (s.suggest pos).1.service.allowsTracking = true := by
    unfold Service.allowsTracking
    rw [hk.settings, hk.dialect]
    exact ha
  obtain ⟨ht, hc⟩ := suggest_tracks ha pos
  cases hsome : (s.suggest pos).2 with
  | some t =>
    rw [hsome] at ht hc
    rw [suggest_of_tracker ha' ht (hc t rfl), ← hsome]
  | none =>
    rw [hsome] at ht
    have hat : s.tracksAt pos = false := by
      rw [← Bool.not_eq_true]
      intro h
      obtain ⟨t, ht', hc'⟩ := (Option.any_eq_true _ _).1 h
      rw [suggest_of_tracker ha ht' hc'] at hsome
      cases hsome
    -- there was nothing to be found, and so there is not
    obtain ⟨s₀, -, -, -, hs⟩ := suggest_of_not_tracksAt ha hat
    rw [suggest_of_untracked ha' ht, hs]
    rw [hs, startExtracted_eq] at hsome
    cases hx : s₀.found? pos with
    | some x => rw [hx] at hsome; cases hsome
    | none =>
      have he : s₀.startExtracted pos = (s₀, none) := by rw [startExtracted_eq, hx]
      rw [he]
      exact he

end Session

namespace Opening

/-- **What is suggested is tracked in place.**  A tracker around the offset is the answer and nothing changes; otherwise
what was tracked is no more, and what is found left of the offset is tracked there, if anything is.  The same query
again gives the same answer and changes nothing. -/
theorem suggest_in_place (o : Opening) (steps : List Host.Step) {i : Nat} {s : Session}
    (hs : (o.host.run steps).session? i = some s) (ha : s.service.allowsTracking = true) (pos : Nat) :
    let s' := (s.suggest pos).1
    (∀ t, s.tracker? = some t → t.region.contains pos = true → s.suggest pos = (s, some t)) ∧
    ((∀ t, s.tracker? = some t → t.region.contains pos = false) →
      match s.found? pos with
      | none => (s.suggest pos).2 = none ∧ s'.tracker? = none ∧ s'.marker? = none
      | some x => ∃ t, (s.suggest pos).2 = some t ∧ s'.tracker? = some t ∧ s'.marker? = some t.region ∧
          t.InPlace s.document.text pos x) ∧
    s'.suggest pos = s.suggest pos := by
  obtain ⟨sound, -, -⟩ := (o.sound steps).of_session? hs
  refine ⟨fun t ht hc => Session.suggest_of_tracker ha ht hc, fun hc => ?_, Session.suggest_suggest ha pos⟩
  have hat : s.tracksAt pos = false := by
    unfold Session.tracksAt
    cases ht : s.tracker? with
    | none => rfl
    | some t => exact hc t ht
  refine Session.suggest_of_found? ha hat fun ht => ?_
  rw [sound.marked, ht]
  rfl

/-- With the tracker at the end of the text, the item behind the marker is suggested in the line above, which ends with
a carriage return and a line feed. -/
theorem suggest_in_place_elsewhere :
    let o := ofTexts ⟨"jsx", true⟩ {} ["a\r\nb <ul>li\r\nc ".toList]
    let steps : List Host.Step := [.on 0 (.select 15 15), .on 0 (.type "<p".toList)]
    ∃ s, (o.host.run steps).session? 0 = some s ∧ s.service.allowsTracking = true ∧
      s.tracker?.map (·.region) = some ⟨15, 17⟩ ∧
      (∃ t, (s.suggest 11).2 = some t ∧ (s.suggest 11).1.tracker? = some t ∧ t.region.start = 5 ∧ t.region.stop = 11 ∧
        t.reading.text = "ul>li".toList) ∧
      (s.suggest 11).1.suggest 11 = s.suggest 11 := by
  intro o steps
  have hc : ((o.host.run steps).session? 0).any (fun s => s.service.allowsTracking &&
      s.tracker?.map (·.region) = some ⟨15, 17⟩ &&
      s.found? 11 = some ⟨"ul>li".toList, 2, 8, 3⟩ && ((s.suggest 11).2.map (·.region.start) = some 5)) = true := by
    decide +kernel
  obtain ⟨s, hs, hc⟩ := (Option.any_eq_true _ _).1 hc
  simp only [Bool.and_eq_true, decide_eq_true_eq] at hc
  obtain ⟨⟨⟨ha, hr⟩, hx⟩, hstart⟩ := hc
  obtain ⟨-, hfound, hagain⟩ := suggest_in_place o steps hs ha 11
  rw [hx] at hfound
  have haway : ∀ t, s.tracker? = some t → t.region.contains 11 = false := by
    intro t ht
    rw [ht] at hr
    have hregion : t.region = ⟨15, 17⟩ := Option.some.inj hr
    rw [hregion]
    rfl
  obtain ⟨t, ht, htracks, -, hplace⟩ := hfound haway
  rw [ht] at hstart
  exact ⟨s, hs, ha, hr, ⟨t, ht, htracks, Option.some.inj hstart, hplace.stop_eq, hplace.reads⟩, hagain⟩

end Opening
end Shorthand
