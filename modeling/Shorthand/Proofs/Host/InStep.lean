import Shorthand.Proofs.Session.Sound
/-!
# Trackers in step with their documents

Whatever an editor does in however many documents, after every step each document has a tracker just when it has the
abbreviation marker, and the marker stands on the region (`marker_on_region`); and what a tracker was read as is what
its stretch of the text reads as now (`reading_of_text`).
-/
namespace Shorthand

namespace Opening

/-- **A document is tracked just when it has the marker**, which stands on the tracker's region within the text. -/
theorem marker_on_region (o : Opening) (steps : List Host.Step) {i : Nat} {s : Session}
    (hs : (o.host.run steps).session? i = some s) :
    (s.tracker?.isSome ↔ s.marker?.isSome) ∧
      ∀ t, s.tracker? = some t → s.marker? = some t.region ∧
        t.region.start ≤ t.region.stop ∧ t.region.stop ≤ s.document.length := by
  obtain ⟨h, -, -⟩ := (o.sound steps).of_session? hs
  constructor
  · rw [h.marked, Option.isSome_map]
  · intro t ht
    have hm : s.marker? = some t.region := by rw [h.marked, ht]; rfl
    exact ⟨hm, (h.reads t ht).within⟩

/-- Two documents: in one a tracker is ended by a char that makes it invalid and brought back by undoing it, in the
other a forced one is undone past its beginning. -/
theorem marker_on_region_undone :
    let o := ofTexts ⟨"html", true⟩ {} ["a ".toList, "hello".toList]
    let steps : List Host.Step := [.on 0 (.type "div+".toList), .on 1 (.type "!".toList), .on 1 (.select 0 5),
      .on 1 (.command .enter), .on 0 .undo, .on 1 .undo]
    ∀ i < 2, ∃ s t, (o.host.run steps).session? i = some s ∧ s.tracker? = some t ∧ s.marker? = some t.region ∧
      t.region.start ≤ t.region.stop ∧ t.region.stop ≤ s.document.length := by
  intro o steps i hi
  have ht : ((o.host.run steps).session? i).any (·.tracker?.isSome) = true := by
    have : ∀ i < 2, ((o.host.run steps).session? i).any (·.tracker?.isSome) = true := by decide +kernel
    exact this i hi
  obtain ⟨s, hs, ht⟩ := (Option.any_eq_true _ _).1 ht
  obtain ⟨t, ht⟩ := Option.isSome_iff_exists.1 ht
  exact ⟨s, t, hs, ht, (marker_on_region o steps hs).2 t ht⟩

/-- **A tracker's reading is what its stretch of the text reads as now**: nothing, an abbreviation or an error. -/
theorem reading_of_text (o : Opening) (steps : List Host.Step) {i : Nat} {s : Session}
    (hs : (o.host.run steps).session? i = some s) {t : Tracker} (ht : s.tracker? = some t) :
    let text := s.document.text.slice (min (t.region.start + t.offset) t.region.stop) t.region.stop
    (t.reading = .empty ↔ text = []) ∧
      (∀ nodes, text ≠ [] → Abbreviation.read text = .ok nodes → t.reading = .valid text nodes) ∧
      ∀ error, text ≠ [] → Abbreviation.read text = .error error → t.reading = .invalid text error := by
  obtain ⟨h, -, -⟩ := (o.sound steps).of_session? hs
  have hr := (h.reads t ht).fresh
  rw [t.textIn_abbreviationSpan] at hr
  rw [hr]
  exact ⟨Reading.of_eq_empty_iff, fun _ => Reading.of_ok, fun _ => Reading.of_error⟩

/-- The marker in front is left out, and the text behind an edit, an undo and other settings read again. -/
theorem reading_of_text_marked :
    let o := ofTexts ⟨"jsx", true⟩ {} ["x ".toList]
    let steps : List Host.Step := [.on 0 (.type "<ul.a".toList), .choose { lead := ['/'] }, .on 0 (.type "b*".toList),
      .on 0 .undo, .on 0 (.backspace 1)]
    ∃ s t nodes, (o.host.run steps).session? 0 = some s ∧ s.tracker? = some t ∧ t.region = ⟨2, 7⟩ ∧
      Abbreviation.read "ul.a".toList = .ok nodes ∧ t.reading = .valid "ul.a".toList nodes := by
  intro o steps
  have hn : (Abbreviation.read "ul.a".toList).isOk = true := by decide +kernel
  obtain ⟨nodes, hn⟩ : ∃ nodes, Abbreviation.read "ul.a".toList = .ok nodes := by
    cases h : Abbreviation.read "ul.a".toList with
    | ok nodes => exact ⟨nodes, rfl⟩
    | error => rw [h] at hn; cases hn
  have ht : ((o.host.run steps).session? 0).any (fun s => s.document.text = "x <ul.a".toList &&
      s.tracker?.any fun t => t.region = ⟨2, 7⟩ && t.offset = 1) = true := by decide +kernel
  obtain ⟨s, hs, ht⟩ := (Option.any_eq_true _ _).1 ht
  obtain ⟨hx, ht⟩ := Bool.and_eq_true_iff.1 ht
  obtain ⟨t, ht, hr⟩ := (Option.any_eq_true _ _).1 ht
  obtain ⟨hr, ho⟩ := Bool.and_eq_true_iff.1 hr
  have h := (reading_of_text o steps hs ht).2.1
  rw [of_decide_eq_true hx, of_decide_eq_true hr, of_decide_eq_true ho] at h
  exact ⟨s, t, nodes, hs, ht, of_decide_eq_true hr, hn, h nodes (by decide) hn⟩

end Opening
end Shorthand
