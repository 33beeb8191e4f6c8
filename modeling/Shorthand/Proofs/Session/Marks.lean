import Shorthand.Proofs.Session.Tending
/-!
# Events edit nothing

Whatever the service is told, it changes nothing of the document in hand but the abbreviation marker (`Marks`), unless
it is told to expand an abbreviation or to enter one; entering one may collapse the selection, and only expanding
touches the text (`dispatch_edits_nothing`).  So the text and the selection after an edit do not depend on its report.
-/
namespace Shorthand

/-- Nothing is selected exactly where the selection covers no char. -/
theorem Selection.isEmpty_span (s : Selection) : s.span.isEmpty = s.isEmpty := by
  unfold Selection.span Span.between Span.isEmpty Selection.isEmpty
  rw [decide_eq_decide]
  dsimp only
  omega

namespace Session

open Abbreviation (Options)

variable {s s' : Session}

/-- **`s'` has the document of `s`**, apart from the abbreviation marker. -/
def Marks (s s' : Session) : Prop :=
  ∃ markers, (∀ name, name ≠ abbreviationMarker → markers.get? name = s.document.markers.get? name) ∧
    s'.document = { s.document with markers }

namespace Marks

/-- A session with the same document. -/
theorem same (h : s'.document = s.document) : s.Marks s' := ⟨s.document.markers, fun _ _ => rfl, h⟩

theorem refl (s : Session) : s.Marks s := same rfl

theorem trans {s₁ s₂ s₃ : Session} (h : s₁.Marks s₂) (h' : s₂.Marks s₃) : s₁.Marks s₃ := by
  obtain ⟨_, ho, hm⟩ := h
  obtain ⟨markers, ho', hm'⟩ := h'
  rw [hm] at ho' hm'
  exact ⟨markers, fun name hn => (ho' name hn).trans (ho name hn), hm'⟩

theorem stop (s : Session) : s.Marks s.stop :=
  ⟨s.document.markers.erase abbreviationMarker, fun _ hn => by rw [Keyed.get?_erase, if_neg hn], rfl⟩

theorem hold (s : Session) (t : Tracker) : s.Marks (s.hold t) :=
  ⟨s.document.markers.insert abbreviationMarker t.region, fun _ hn => by rw [Keyed.get?_insert, if_neg hn], rfl⟩

theorem followEdit (s : Session) (p : Patch) : s.Marks (s.followEdit p) := by
  rcases followEdit_cases s p with ⟨-, h⟩ | ⟨t, -, -, h⟩ | ⟨t, -, -, h⟩ <;> rw [h]
  · exact refl s
  · exact stop s
  · exact hold s _

theorem startIfTyped (s : Session) : s.Marks s.startIfTyped := by
  rcases startIfTyped_cases s with h | ⟨span, offset, options, -, -, -, h⟩ <;> rw [h]
  · exact refl s
  · exact hold s _

theorem stopIfInvalid (s : Session) : s.Marks s.stopIfInvalid := by
  rcases stopIfInvalid_cases s with h | ⟨t, -, -, h⟩ <;> rw [h]
  · exact refl s
  · exact stop s

theorem onModified (s : Session) (p : Patch) : s.Marks (s.onModified p) := by
  unfold Session.onModified
  split
  · exact refl s
  · have h := (followEdit s p).trans ((startIfTyped _).trans (stopIfInvalid _))
    exact h.trans (same rfl)

theorem showPreview (s : Session) : s.Marks s.showPreview := by
  unfold Session.showPreview
  split
  · exact refl s
  · exact same rfl

theorem onUndone (s : Session) : s.Marks s.onUndone := by
  rcases onUndone_cases s with ⟨-, -, h⟩ | ⟨m, -, -, h⟩ | ⟨t, m, -, -, h⟩ | ⟨t, -, -, -, h⟩ | ⟨t, -, -, -, h⟩ <;> rw [h]
  · exact same rfl
  · exact ((hold s _).trans (showPreview _)).trans (same rfl)
  · exact same rfl
  · exact (hold s _).trans (same rfl)
  · exact (stop s).trans (same rfl)

theorem onActivated (s : Session) : s.Marks s.onActivated := by
  unfold Session.onActivated
  split
  · exact refl s
  · exact same rfl

theorem onSelectionModified (s : Session) : s.Marks s.onSelectionModified := by
  unfold Session.onSelectionModified
  split
  · exact refl s
  · exact same rfl

theorem report (s : Session) (p : Patch) : s.Marks (s.report p) := (onModified s p).trans (onSelectionModified _)

/-! ## Events and commands -/

theorem startExtracted (s : Session) (pos : Nat) : s.Marks (s.startExtracted pos).1 := by
  unfold Session.startExtracted
  split
  · exact refl s
  · dsimp only
    split
    · exact refl s
    · exact hold s _

theorem suggest (s : Session) (pos : Nat) : s.Marks (s.suggest pos).1 := by
  unfold Session.suggest
  split
  · exact refl s
  · split
    · split
      · exact refl s
      · exact (stop s).trans (startExtracted _ pos)
    · exact startExtracted s pos

theorem expansion (s : Session) : s.Marks s.expansion.1 := same (expansion_document s)

theorem onQueryCompletions (s : Session) (pos : Nat) : s.Marks (s.onQueryCompletions pos).1 := by
  unfold Session.onQueryCompletions
  split
  · exact refl s
  · have h : s.Marks ((s.askCompletion false).suggest pos).1 := suggest (s.askCompletion false) pos
    split
    · next s₁ hs => rw [hs] at h; exact h
    · next s₁ t hs =>
      rw [hs] at h
      have he := h.trans (expansion s₁)
      split
      · next s₂ hx => rw [hx] at he; exact he
      · next s₂ snippet hx => rw [hx] at he; exact he

theorem onTextCommand (s : Session) (c : TextCommand) : s.Marks (s.onTextCommand c) := by
  cases c with
  | autoComplete =>
    change s.Marks (if s.service.settings.autoMark then s.askCompletion true else s)
    split
    · exact same rfl
    · exact refl s
  | commitCompletion => exact stop s
  | undo => exact refl s
  | other _ => exact refl s

theorem onPostTextCommand (s : Session) (c : TextCommand) : s.Marks (s.onPostTextCommand c) := by
  cases c with
  | autoComplete => exact same rfl
  | commitCompletion => exact refl s
  | undo => exact onUndone s
  | other _ => exact refl s

theorem complete (s : Session) (pos : Nat) : s.Marks (s.complete pos).1 := by
  rw [complete_fst]
  exact ((onTextCommand s .autoComplete).trans (onQueryCompletions _ pos)).trans (onPostTextCommand _ .autoComplete)

theorem extract (s : Session) : s.Marks s.extract := by
  have h := suggest s s.document.caret
  unfold Session.extract
  split
  · next s₁ hs => rw [hs] at h; exact h
  · next s₁ t hs => rw [hs] at h; exact h.trans (showPreview s₁)

theorem onClosed (s : Session) : s.Marks s.onClosed := by
  unfold Session.onClosed
  split
  · exact refl s
  · exact (stop s).trans (same rfl)

theorem notice (s : Session) {e : Event} (h : e.isNotice = true) : s.Marks (s.after e) := by
  cases e with
  | activated => exact onActivated s
  | closed => exact onClosed s
  | selectionModified => exact onSelectionModified s
  | modified p => cases h
  | textCommand c => exact onTextCommand s c
  | postTextCommand c => exact onPostTextCommand s c
  | queryContext key => exact refl s
  | queryCompletions pos => exact onQueryCompletions s pos
  | command c => cases h

/-- Reporting patches only takes them off the list of those to be reported. -/
theorem flush (s : Session) : (s.withDocument s.document.reported).Marks s.flush := by
  have h : ∀ (ps : List Patch) (s : Session), s.Marks (ps.foldl (fun s p => s.after (.modified p)) s) := by
    intro ps
    induction ps with
    | nil => exact refl
    | cons p ps ih => exact fun s => (onModified s p).trans (ih _)
  exact (h _ _).trans (onSelectionModified _)

/-! ## What stays -/

theorem text (h : s.Marks s') : s'.document.text = s.document.text := by
  obtain ⟨_, -, hm⟩ := h
  rw [hm]

theorem selection (h : s.Marks s') : s'.document.selection = s.document.selection := by
  obtain ⟨_, -, hm⟩ := h
  rw [hm]

theorem history (h : s.Marks s') : s'.document.history = s.document.history := by
  obtain ⟨_, -, hm⟩ := h
  rw [hm]

end Marks

/-! ## Entering an abbreviation -/

/-- The event collapses the selection: an abbreviation is entered where something is selected and none had been
before. -/
def collapses (s : Session) (e : Event) : Bool :=
  e = .command .enter && !s.document.selection.isEmpty && !s.tracker?.any (·.forced)

/-- **Entering an abbreviation collapses the selection to its end**, or changes nothing but the marker. -/
theorem enter_cases (s : Session) :
    (s.collapses (.command .enter) = false ∧ s.Marks s.enter) ∨
    (s.collapses (.command .enter) = true ∧ ∃ s', s.Marks s' ∧
      s.enter.document = s'.document.setSelection (.point s.document.selection.span.stop)) := by
  unfold collapses enter
  cases hf : s.tracker?.any (·.forced) with
  | true => exact .inl ⟨by simp, Marks.stop s⟩
  | false =>
    have hsel : s.stop.document.selection.span = s.document.selection.span := rfl
    simp only [Bool.false_eq_true, if_false, hsel, Selection.isEmpty_span]
    have hm (options : Options) : s.Marks (s.stop.start s.document.selection.span true 0 options) :=
      (Marks.stop s).trans (.hold _ _)
    cases he : s.document.selection.isEmpty with
    | true => exact .inl ⟨by simp, (hm _).trans (.same rfl)⟩
    | false => exact .inr ⟨by simp, _, hm _, rfl⟩

/-- **The service edits only when it is told to expand.**  Whatever else it is told, the text, the history, the version
and the patches to be reported stay as they are, and every marker but its own.  The selection stays too, or is collapsed
to its end. -/
theorem dispatch_edits_nothing (s : Session) {e : Event} (he : e ≠ .command .expand) :
    let d := s.document
    let d' := (s.dispatch e).1.document
    d' = { d with selection := d'.selection, markers := d'.markers } ∧
    (∀ name, name ≠ abbreviationMarker → d'.marker? name = d.marker? name) ∧
    d'.selection = if s.collapses e then .point (min d.selection.span.stop d.length) else d.selection := by
  intro d d'
  -- the document is what a session with another marker has, selected anew if the selection is collapsed
  have hm : ∃ s', s.Marks s' ∧ d' = if s.collapses e then s'.document.setSelection (.point d.selection.span.stop)
      else s'.document := by
    by_cases hn : e.isNotice = true
    · have hc : s.collapses e = false := by
        have hne : e ≠ .command .enter := by
          rintro rfl
          cases hn
        simp [collapses, hne]
      exact ⟨s.after e, .notice s hn, by rw [hc]; rfl⟩
    · cases e with
      | modified p => exact ⟨s.after (.modified p), .onModified s p, rfl⟩
      | command c =>
        cases c with
        | expand => exact absurd rfl he
        | extract => exact ⟨s.extract, .extract s, rfl⟩
        | enter =>
          rcases enter_cases s with ⟨hc, hm⟩ | ⟨hc, s', hm, hd⟩ <;> rw [hc]
          · exact ⟨s.enter, hm, rfl⟩
          · exact ⟨s', hm, hd⟩
        | clear => exact ⟨s.stop, .stop s, rfl⟩
      | _ => exact absurd rfl hn
  obtain ⟨s', ⟨markers, ho, hs⟩, hd⟩ := hm
  rw [hd, hs]
  cases s.collapses e with
  | true => exact ⟨rfl, ho, rfl⟩
  | false => exact ⟨rfl, ho, rfl⟩

/-- An abbreviation is entered on a selection made backwards, in a document that another one is tracked in and that has
a marker of somebody else. -/
theorem dispatch_edits_nothing_entering :
    let before : Snapshot := ⟨"ul".toList, .point 2, .empty⟩
    let d : Document := { id := 1, text := "ul>li p".toList, selection := ⟨5, 3⟩, history := [before], version := 1 }
    let s := (Session.mk { dialect := ⟨"html", true⟩ } (d.setMarker "m" ⟨6, 7⟩)).start ⟨0, 2⟩ false 0 {}
    let d' := (s.dispatch (.command .enter)).1.document
    Event.command .enter ≠ .command .expand ∧ s.marker? = some ⟨0, 2⟩ ∧
      d'.marker? abbreviationMarker = some ⟨3, 5⟩ ∧
      d' = { s.document with selection := d'.selection, markers := d'.markers } ∧
      d'.marker? "m" = some ⟨6, 7⟩ ∧ d'.selection = .point 5 := by
  intro before d s d'
  have he : Event.command .enter ≠ .command .expand := by decide
  obtain ⟨hd, hm, hs⟩ := dispatch_edits_nothing s he
  exact ⟨he, by decide +kernel, by decide +kernel, hd, hm "m" (by decide), hs⟩

end Session
end Shorthand
