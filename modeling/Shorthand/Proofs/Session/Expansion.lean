import Shorthand.Proofs.Session.Sound
/-!
# What expanding does

The command to expand puts in place of the tracked region what the abbreviation there expands to as the text reads now,
in the element that the tracker knows or else the one around the region (`Tracker.due?`), and ends tracking; where
nothing is due it only ends tracking, and where nothing is tracked around the caret it does nothing at all
(`expand_replaces_region`).
-/
namespace Shorthand

open Abbreviation (enclosing?)

namespace Tracker

variable {t : Tracker} {text : Text}

/-- The options with the element around the region looked up where it is not known yet. -/
def optionsIn (t : Tracker) (text : Text) : Abbreviation.Options :=
  { t.options with context := t.options.context.or (enclosing? text t.region.start t.options.dialect) }

/-- **What the tracked abbreviation of a document is due to expand to**: the snippet for the text that stands there now,
unless that is empty or no abbreviation or comes to nothing, or the document takes no edits. -/
def due? (t : Tracker) (d : Document) : Option Text :=
  let text := d.text.slice (min (t.region.start + t.offset) t.region.stop) t.region.stop
  if text = [] || d.readonly then none
  else
    match Abbreviation.read text with
    | .error _ => none
    | .ok nodes => (Abbreviation.expand nodes (t.optionsIn d.text)).toOption

theorem locateContext_eq (t : Tracker) (text : Text) :
    t.locateContext text = { t with options := t.optionsIn text } := by
  unfold locateContext optionsIn
  split
  · next c hc => rw [hc, Option.some_or, ← hc]
  · next hc => rw [hc, Option.none_or]

def expansionIn? (t : Tracker) (text : Text) : Option Text :=
  if t.reading.isValid then (t.locateContext text).expansion? else none

/-- The abbreviation read last is the one that stands there now. -/
theorem expansionIn?_eq_due? {d : Document} (h : t.ReadsIn d.text) (hw : d.readonly = false) :
    t.expansionIn? d.text = t.due? d := by
  have hr := h.fresh
  rw [t.textIn_abbreviationSpan] at hr
  unfold expansionIn? due? expansion?
  rw [locateContext_eq, hr, hw]
  dsimp only
  generalize d.text.slice _ _ = abbreviation
  cases abbreviation with
  | nil => rfl
  | cons c cs =>
    rw [Reading.of_cons]
    cases Abbreviation.read (c :: cs) <;> rfl

theorem due?_of_readonly {d : Document} (hw : d.readonly = true) : t.due? d = none := by
  unfold due?
  dsimp only
  rw [hw, Bool.or_true]
  rfl

theorem writable_of_due? {d : Document} {snippet : Text} (h : t.due? d = some snippet) : d.readonly = false := by
  cases hw : d.readonly with
  | false => rfl
  | true => rw [due?_of_readonly hw] at h; cases h

end Tracker

namespace Session

variable {s : Session} {t : Tracker}

theorem stop_withTracker (s : Session) (t : Tracker) : (s.withTracker t).stop = s.stop := by
  have he : (s.service.trackers.insert s.document.id t).erase s.document.id =
      s.service.trackers.erase s.document.id := by
    unfold Keyed.insert
    conv => lhs; unfold Keyed.erase
    rw [List.filter_cons_of_neg (by simp)]
    exact Keyed.erase_erase s.service.trackers s.document.id
  unfold stop withTracker withTrackers
  dsimp only
  rw [he]

theorem expansion_of_some (ht : s.tracker? = some t) :
    s.expansion = (s.withTracker (t.locateContext s.document.text), (t.locateContext s.document.text).expansion?) := by
  unfold expansion
  rw [ht]
  rfl

theorem expand_of_outside (h : s.tracker?.any (·.region.contains s.document.caret) = false) : s.expand = s := by
  unfold expand
  split
  · rfl
  · next t ht =>
    rw [ht, Option.any_some] at h
    exact if_neg (by rw [h]; decide)

theorem expand_of_inside (ht : s.tracker? = some t) (hc : t.region.contains s.document.caret = true) :
    s.expand = match t.expansionIn? s.document.text with
      | none => s.stop
      | some snippet =>
        ((s.withTracker (t.locateContext s.document.text)).insertSnippet t.region snippet).stop := by
  unfold expand Tracker.expansionIn?
  rw [ht]
  dsimp only
  rw [if_pos hc, expansion_of_some ht]
  cases hv : t.reading.isValid with
  | false => rfl
  | true =>
    cases he : (t.locateContext s.document.text).expansion? with
    | none =>
      rw [if_pos rfl, if_pos rfl]
      exact stop_withTracker s _
    | some snippet => rw [if_pos rfl, if_pos rfl]

theorem insertSnippet_withTracker (s : Session) (t : Tracker) (region : Span) (snippet : Text) :
    (s.withTracker t).insertSnippet region snippet = match s.document.insertSnippet? region snippet with
      | .error _ => s.withTracker t
      | .ok d => (s.withTracker t).withDocument d := rfl

theorem expand_of_due_none (ht : s.tracker? = some t) (hc : t.region.contains s.document.caret = true)
    (hr : t.ReadsIn s.document.text) (hd : t.due? s.document = none) : s.expand = s.stop := by
  rw [expand_of_inside ht hc]
  cases hw : s.document.readonly with
  | false => rw [Tracker.expansionIn?_eq_due? hr hw, hd]
  | true =>
    cases t.expansionIn? s.document.text with
    | none => rfl
    | some snippet =>
      -- the document refuses the snippet
      obtain ⟨error, he⟩ := Document.insertSnippet?_readonly hw t.region snippet
      dsimp only
      rw [insertSnippet_withTracker, he]
      exact stop_withTracker s _

theorem expand_of_due_some (ht : s.tracker? = some t) (hc : t.region.contains s.document.caret = true)
    (hr : t.ReadsIn s.document.text) {snippet : Text} (hd : t.due? s.document = some snippet) {d : Document}
    (hi : s.document.insertSnippet? t.region snippet = .ok d) :
    s.expand = ((s.withTracker (t.locateContext s.document.text)).withDocument d).stop := by
  rw [expand_of_inside ht hc, Tracker.expansionIn?_eq_due? hr (Tracker.writable_of_due? hd), hd]
  dsimp only
  rw [insertSnippet_withTracker, hi]

end Session

namespace Opening

/-- **Expanding replaces the tracked region by what the text there expands to now**, leaves one patch to be reported and
ends tracking; where nothing is due the text stays, and without a tracker around the caret everything does. -/
theorem expand_replaces_region (o : Opening) (steps : List Host.Step) {i : Nat} {s : Session}
    (hs : (o.host.run steps).session? i = some s) :
    (s.tracker?.any (·.region.contains s.document.caret) = false → s.after (.command .expand) = s) ∧
    ∀ t, s.tracker? = some t → t.region.contains s.document.caret = true →
      let s' := s.after (.command .expand)
      s'.tracker? = none ∧ s'.marker? = none ∧
      match t.due? s.document with
      | none => s'.document.text = s.document.text ∧ s'.document.selection = s.document.selection
      | some snippet =>
        let flat := Snippet.flatten snippet
        s'.document.text = s.document.text.take t.region.start ++ (flat.text ++ s.document.text.drop t.region.stop) ∧
        s'.document.selection = .point (t.region.start + flat.caret.getD flat.text.length) ∧
        ∃ p, s'.document.unreported = [p] ∧ p.result? s.document.text = .ok s'.document.text := by
  obtain ⟨h, -, hu⟩ := (o.sound steps).of_session? hs
  refine ⟨Session.expand_of_outside, fun t ht hc => ?_⟩
  have hr := h.reads t ht
  have he : s.after (.command .expand) = s.expand := rfl
  dsimp only
  rw [he]
  cases hd : t.due? s.document with
  | none =>
    rw [Session.expand_of_due_none ht hc hr hd]
    exact ⟨Session.tracker?_stop s, Session.marker?_stop s, rfl, rfl⟩
  | some snippet =>
    obtain ⟨d, p, hi, hp, hu', htext, hsel⟩ := Document.insertSnippet?_ok (Tracker.writable_of_due? hd)
      hr.within snippet
    rw [Session.expand_of_due_some ht hc hr hd hi]
    rw [hu] at hu'
    exact ⟨Session.tracker?_stop _, Session.marker?_stop _, htext, hsel, p, hu', hp⟩

/-- In a list an item without a name is a list item. -/
theorem expand_replaces_region_in_list :
    let o := ofTexts ⟨"html", true⟩ {} ["<ul> y".toList]
    let steps : List Host.Step := [.on 0 (.select 4 4), .on 0 (.type ".x".toList)]
    ∃ s, (o.host.run steps).session? 0 = some s ∧ s.document.text = "<ul>.x y".toList ∧
      (s.after (.command .expand)).tracker? = none ∧ (s.after (.command .expand)).marker? = none ∧
      (s.after (.command .expand)).document.text = "<ul><li class=\"x\"></li> y".toList ∧
      (s.after (.command .expand)).document.selection = .point 18 := by
  intro o steps
  let snippet := "<li class=\"x\">$\x7b1\x7d</li>".toList
  have hc : ((o.host.run steps).session? 0).any (fun s => s.document.text = "<ul>.x y".toList &&
      s.tracker?.any fun t => t.region = ⟨4, 6⟩ && t.region.contains s.document.caret &&
        t.due? s.document = some snippet) = true := by decide +kernel
  obtain ⟨s, hs, hc⟩ := (Option.any_eq_true _ _).1 hc
  obtain ⟨hx, hc⟩ := Bool.and_eq_true_iff.1 hc
  obtain ⟨t, ht, hc⟩ := (Option.any_eq_true _ _).1 hc
  simp only [Bool.and_eq_true, decide_eq_true_eq] at hx hc
  obtain ⟨⟨hr, hc⟩, hd⟩ := hc
  have h := (expand_replaces_region o steps hs).2 t ht hc
  dsimp only at h
  rw [hd, hr, hx] at h
  obtain ⟨hn, hm, hx', hl, -⟩ := h
  exact ⟨s, hs, hx, hn, hm, hx'.trans (by decide +kernel), hl.trans (by decide +kernel)⟩

end Opening
end Shorthand
