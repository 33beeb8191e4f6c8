import Shorthand.Proofs.Session.Expansion
import Shorthand.Proofs.Session.Marks
/-!
# Taking a completion is extracting and expanding

There are two ways to expand the abbreviation left of the caret: to open the completion list and take the entry that it
offers, and to run the command to extract and then the one to expand.  The entry is put in by the editor, at the region
that the tracker is on; the expansion by the service.  Both come to the expansion of the tracker that is suggested at
the caret (`Session.suggestedView`), and so to the same (`complete_eq_extract_expand`).
-/
namespace Shorthand

theorem Span.clamp_between_contains (start : Nat) {pos length : Nat} (h : pos ≤ length) :
    ((between start pos).clamp length).contains pos = true := by
  have hs : min (min start pos) length ≤ pos := by omega
  have hp : pos ≤ min (max start pos) length := by omega
  exact Bool.and_eq_true_iff.2 ⟨decide_eq_true hs, decide_eq_true hp⟩

/-- The text and the selection of a document once a snippet has been put in, if the document takes it. -/
def Document.inserted (d : Document) (region : Span) (snippet : Text) : Text × Selection :=
  match d.insertSnippet? region snippet with
  | .error _ => (d.text, d.selection)
  | .ok d' => (d'.text, d'.selection)

/-- The markers do not matter to the text and the selection. -/
theorem Document.inserted_markers (d : Document) (markers : Keyed String Span) (region : Span) (snippet : Text) :
    { d with markers }.inserted region snippet = d.inserted region snippet := by
  unfold inserted insertSnippet? replace? edit?
  dsimp only [length]
  cases Patch.of? d.text.length _ with
  | error => rfl
  | ok p =>
    dsimp only
    cases d.readonly with
    | true => rfl
    | false =>
      cases p.isEmpty with
      | true => rfl
      | false => cases p.result? d.text <;> rfl

theorem Tracker.expansionIn?_eq (t : Tracker) (text : Text) :
    t.expansionIn? text = (t.locateContext text).expansion? := by
  unfold expansionIn? expansion?
  rw [locateContext_eq]
  cases t.reading <;> rfl

theorem Tracker.expansionIn?_preview (t : Tracker) (visible : Bool) (text : Text) :
    (t.preview visible).expansionIn? text = t.expansionIn? text := by
  rw [expansionIn?_eq, expansionIn?_eq, locateContext_eq, locateContext_eq]
  rfl

namespace Session

variable {s s' : Session} {t : Tracker}

/-- What a user sees of the document. -/
def view (s : Session) : Text × Selection := (s.document.text, s.document.selection)

theorem Marks.view (h : s.Marks s') : s'.view = s.view := Prod.ext h.text h.selection

theorem Marks.inserted (h : s.Marks s') (region : Span) (snippet : Text) :
    s'.document.inserted region snippet = s.document.inserted region snippet := by
  obtain ⟨markers, -, hm⟩ := h
  rw [hm]
  exact s.document.inserted_markers markers region snippet

theorem view_flush (s : Session) : s.flush.view = s.view := (Marks.flush s).view

theorem view_insertSnippet (s : Session) (region : Span) (snippet : Text) :
    (s.insertSnippet region snippet).view = s.document.inserted region snippet := by
  unfold insertSnippet Document.inserted
  cases s.document.insertSnippet? region snippet <;> rfl

/-! ## What is suggested -/

theorem startExtracted_tracks (h : s.tracker? = none) (pos : Nat) :
    (s.startExtracted pos).1.tracker? = (s.startExtracted pos).2 ∧
      ∀ t ∈ (s.startExtracted pos).2, t.region.contains pos = true := by
  unfold startExtracted
  split
  · exact ⟨h, nofun⟩
  · next hpos =>
    dsimp only
    split
    · exact ⟨h, nofun⟩
    · next x hx =>
      refine ⟨rfl, fun t ht => ?_⟩
      rw [start_eq_hold, tracker?_hold] at ht
      cases ht
      have hstop := Abbreviation.locate?_stop hx
      have hline := Text.lineStart_le s.document.text pos
      have hlen : pos ≤ s.document.text.length := Nat.le_of_not_lt hpos
      rw [List.length_take, Text.length_slice] at hstop
      have he : Text.lineStart s.document.text pos + x.stop = pos := by omega
      change ((Span.between (Text.lineStart s.document.text pos + x.start)
        (Text.lineStart s.document.text pos + x.stop)).clamp s.document.length).contains pos = true
      rw [he]
      exact Span.clamp_between_contains _ hlen

/-- **What is suggested is what is tracked then**, and it is around the position. -/
theorem suggest_tracks (ha : s.service.allowsTracking = true) (pos : Nat) :
    (s.suggest pos).1.tracker? = (s.suggest pos).2 ∧ ∀ t ∈ (s.suggest pos).2, t.region.contains pos = true := by
  unfold suggest
  rw [ha]
  split
  · next h => cases h
  · split
    · next t ht =>
      split
      · next hc =>
        refine ⟨ht, ?_⟩
        rintro _ ⟨⟩
        exact hc
      · exact startExtracted_tracks (tracker?_stop s) pos
    · next ht => exact startExtracted_tracks ht pos

theorem startExtracted_askCompletion (s : Session) (asked : Bool) (pos : Nat) :
    (s.askCompletion asked).startExtracted pos =
      ((s.startExtracted pos).1.askCompletion asked, (s.startExtracted pos).2) := by
  have ho : (s.askCompletion asked).optionsAt pos true = s.optionsAt pos true := rfl
  have hd : (s.askCompletion asked).document = s.document := rfl
  unfold startExtracted
  rw [ho, hd]
  split
  · rfl
  · dsimp only
    split <;> rfl

/-- Whether a completion list has been asked for does not matter to what is suggested. -/
theorem suggest_askCompletion (s : Session) (asked : Bool) (pos : Nat) :
    (s.askCompletion asked).suggest pos = ((s.suggest pos).1.askCompletion asked, (s.suggest pos).2) := by
  have ha : (s.askCompletion asked).service.allowsTracking = s.service.allowsTracking := rfl
  have ht : (s.askCompletion asked).tracker? = s.tracker? := rfl
  unfold suggest
  rw [ha, ht]
  split
  · rfl
  · split
    · split
      · rfl
      · exact startExtracted_askCompletion s.stop asked pos
    · exact startExtracted_askCompletion s asked pos

/-- The text and the selection once the abbreviation suggested at the caret is expanded. -/
def suggestedView (s : Session) : Text × Selection :=
  match (s.suggest s.document.caret).2 with
  | none => s.view
  | some t =>
    match t.expansionIn? s.document.text with
    | none => s.view
    | some snippet => s.document.inserted t.region snippet

/-! ## Taking the entry of the completion list -/

theorem expansion_askCompletion (s : Session) (asked : Bool) :
    (s.askCompletion asked).expansion = (s.expansion.1.askCompletion asked, s.expansion.2) := by
  have ht : (s.askCompletion asked).tracker? = s.tracker? := rfl
  unfold expansion
  rw [ht]
  split <;> rfl

/-- **The answer to a query that has been asked for**: the entry for what is suggested. -/
theorem onQueryCompletions_of_asked (h : s.service.completionAsked = true) (pos : Nat) :
    s.onQueryCompletions pos = match s.suggest pos with
      | (s', none) => (s'.askCompletion false, none)
      | (s', some t) =>
        let s'' := s'.expansion.1
        (s''.askCompletion false,
          s'.expansion.2.map fun snippet => ⟨t.region.textIn s''.document.text ++ "\tEmmet".toList, snippet⟩) := by
  unfold onQueryCompletions
  rw [h, suggest_askCompletion s false pos]
  rcases s.suggest pos with ⟨s', _ | t⟩
  · rfl
  · simp only [Bool.not_true, Bool.false_eq_true, if_false]
    rw [expansion_askCompletion]
    rcases s'.expansion with ⟨s'', _ | snippet⟩ <;> rfl

/-- The session once the completion list is open, and the entry it offers. -/
theorem complete_eq (ha : s.service.settings.autoMark = true) (pos : Nat) :
    s.complete pos = match s.suggest pos with
      | (s', none) => (s'.askCompletion false, none)
      | (s', some t) =>
        let s'' := s'.expansion.1
        (s''.askCompletion false,
          s'.expansion.2.map fun snippet => ⟨t.region.textIn s''.document.text ++ "\tEmmet".toList, snippet⟩) := by
  have hs : s.after (.textCommand .autoComplete) = s.askCompletion true := if_pos ha
  have hx := onQueryCompletions_of_asked (s := s.askCompletion true) rfl pos
  unfold complete dispatch
  dsimp only
  rw [hs, hx, suggest_askCompletion]
  rcases s.suggest pos with ⟨s', _ | t⟩
  · rfl
  · dsimp only
    rw [expansion_askCompletion]
    rfl

theorem view_commit (s : Session) (region : Span) (snippet : Text) :
    (s.commit region snippet).1.view = s.document.inserted region snippet := by
  have hs : s.after (.textCommand .commitCompletion) = s.stop := rfl
  rw [← (Marks.stop s).inserted]
  unfold commit Document.inserted
  dsimp only
  rw [hs]
  cases s.stop.document.insertSnippet? region snippet with
  | error => rfl
  | ok d => exact view_flush _

theorem view_takeCompletion_of_none (h : s.complete s.document.caret = (s', none)) :
    (s.takeCompletion true).1.view = s'.view := by
  unfold takeCompletion
  rw [h]

theorem view_takeCompletion_of_some {entry : Completion} (h : s.complete s.document.caret = (s', some entry))
    (ht : s'.tracker? = some t) :
    (s.takeCompletion true).1.view = s'.document.inserted t.region entry.snippet := by
  rw [← view_commit]
  unfold takeCompletion
  rw [h]
  dsimp only
  rw [ht]
  dsimp only
  rcases s'.commit t.region entry.snippet with ⟨s'', _ | error⟩ <;> rfl

/-- **Taking the entry of the completion list expands what is suggested.** -/
theorem view_takeCompletion (ha : s.service.allowsTracking = true) :
    (s.takeCompletion true).1.view = s.suggestedView := by
  have hauto : s.service.settings.autoMark = true := (Bool.and_eq_true_iff.1 ha).1
  have hcomplete := complete_eq hauto s.document.caret
  have htracks := (suggest_tracks ha s.document.caret).1
  have hmarks := Marks.suggest s s.document.caret
  unfold suggestedView
  rcases hs : s.suggest s.document.caret with ⟨s', _ | t⟩ <;> rw [hs] at hcomplete htracks hmarks
  · exact (view_takeCompletion_of_none hcomplete).trans hmarks.view
  · dsimp only at hcomplete htracks hmarks ⊢
    rw [expansion_of_some htracks, ← Tracker.expansionIn?_eq, hmarks.text] at hcomplete
    cases hx : t.expansionIn? s.document.text with
    | none =>
      rw [hx] at hcomplete
      exact (view_takeCompletion_of_none hcomplete).trans hmarks.view
    | some snippet =>
      rw [hx] at hcomplete
      have hr : (t.locateContext s.document.text).region = t.region := by rw [Tracker.locateContext_eq]
      rw [view_takeCompletion_of_some hcomplete (tracker?_withTracker s' _), hr]
      exact hmarks.inserted t.region snippet

/-! ## Extracting and expanding -/

theorem view_expand (ht : s.tracker? = some t) (hc : t.region.contains s.document.caret = true) :
    s.expand.view = match t.expansionIn? s.document.text with
      | none => s.view
      | some snippet => s.document.inserted t.region snippet := by
  rw [expand_of_inside ht hc]
  cases t.expansionIn? s.document.text with
  | none => exact (Marks.stop s).view
  | some snippet => exact (Marks.stop _).view.trans (view_insertSnippet _ t.region snippet)

theorem tracker?_extract (ha : s.service.allowsTracking = true) :
    s.extract.tracker? = (s.suggest s.document.caret).2.map (·.preview true) := by
  have ht := (suggest_tracks ha s.document.caret).1
  unfold extract
  rcases hs : s.suggest s.document.caret with ⟨s', _ | t⟩ <;> rw [hs] at ht
  · exact ht
  · dsimp only at ht ⊢
    unfold showPreview
    rw [ht]
    exact tracker?_withTracker s' _

theorem tracker?_onSelectionModified (s : Session) :
    ∃ visible, s.onSelectionModified.tracker? = s.tracker?.map (·.preview visible) := by
  cases ht : s.tracker? with
  | none => exact ⟨true, (Quiet.onSelectionModified s).untracked ht⟩
  | some t =>
    unfold onSelectionModified
    split
    · exact ⟨t.previewVisible, ht⟩
    · exact ⟨_, tracker?_followCaret ht⟩

/-- **Extracting and expanding expands what is suggested.** -/
theorem view_extract_expand (hu : s.document.unreported = []) (ha : s.service.allowsTracking = true) :
    ((s.command .extract).command .expand).view = s.suggestedView := by
  have he : s.command .extract = s.extract.onSelectionModified :=
    flush_of_nil ((tends_extract s).keeps.unreported.trans hu)
  have hm : s.Marks (s.command .extract) := he ▸ (Marks.extract s).trans (.onSelectionModified _)
  have hx : ((s.command .extract).command .expand).view = (s.command .extract).expand.view := view_flush _
  obtain ⟨visible, ht⟩ := tracker?_onSelectionModified s.extract
  have haround := (suggest_tracks ha s.document.caret).2
  rw [← he, tracker?_extract ha, Option.map_map] at ht
  rw [hx]
  unfold suggestedView
  cases hs : (s.suggest s.document.caret).2 with
  | none =>
    rw [hs] at ht
    rw [expand_of_outside (by rw [ht]; rfl)]
    exact hm.view
  | some t =>
    rw [hs] at ht haround
    have hc : t.region.contains (s.command .extract).document.caret = true := by
      unfold Document.caret
      rw [hm.selection]
      exact haround t rfl
    rw [view_expand (t := t.preview visible) ht hc, Tracker.expansionIn?_preview, hm.text]
    dsimp only
    cases t.expansionIn? s.document.text with
    | none => exact hm.view
    | some snippet => exact hm.inserted t.region snippet

end Session

namespace Opening

/-- **Taking a completion is extracting and expanding.**  Where abbreviations may be tracked, the entry of the
completion list leaves the same text and the same selection as the command to extract and then the one to expand. -/
theorem complete_eq_extract_expand (o : Opening) (steps : List Host.Step) {i : Nat} {s : Session}
    (hs : (o.host.run steps).session? i = some s) (ha : s.service.allowsTracking = true) :
    let completed := s.act (.complete true)
    let expanded := (s.act (.command .extract)).act (.command .expand)
    completed.document.text = expanded.document.text ∧ completed.document.selection = expanded.document.selection := by
  obtain ⟨-, -, hu⟩ := (o.sound steps).of_session? hs
  have hv : (s.act (.complete true)).view = ((s.act (.command .extract)).act (.command .expand)).view :=
    (Session.view_takeCompletion ha).trans (Session.view_extract_expand hu ha).symm
  exact Prod.mk.inj hv

/-- With the tracker on what has just been typed and the caret moved behind another abbreviation, that one is expanded
both ways. -/
theorem complete_eq_extract_expand_elsewhere :
    let o := ofTexts ⟨"html", true⟩ {} ["p.a ".toList]
    let steps : List Host.Step := [.on 0 (.type "ul".toList), .on 0 (.select 3 3)]
    ∃ s, (o.host.run steps).session? 0 = some s ∧ s.service.allowsTracking = true ∧
      s.tracker?.map (·.region) = some ⟨4, 6⟩ ∧
      (s.act (.complete true)).document.text = "<p class=\"a\"></p> ul".toList ∧
      ((s.act (.command .extract)).act (.command .expand)).document.text = "<p class=\"a\"></p> ul".toList ∧
      ((s.act (.command .extract)).act (.command .expand)).document.selection = .point 13 := by
  intro o steps
  have hc : ((o.host.run steps).session? 0).any (fun s => s.service.allowsTracking &&
      s.tracker?.map (·.region) = some ⟨4, 6⟩ &&
      (s.act (.complete true)).document.text = "<p class=\"a\"></p> ul".toList &&
      (s.act (.complete true)).document.selection = .point 13) = true := by decide +kernel
  obtain ⟨s, hs, hc⟩ := (Option.any_eq_true _ _).1 hc
  simp only [Bool.and_eq_true, decide_eq_true_eq] at hc
  obtain ⟨⟨⟨ha, hr⟩, hx⟩, hl⟩ := hc
  obtain ⟨htext, hsel⟩ := complete_eq_extract_expand o steps hs ha
  exact ⟨s, hs, ha, hr, hx, htext.symm.trans hx, hsel.symm.trans hl⟩

end Opening
end Shorthand
