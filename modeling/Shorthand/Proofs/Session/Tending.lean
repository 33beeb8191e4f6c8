import Shorthand.Proofs.Session.Moves
import Shorthand.Script.Replay
/-!
# Events and edits as moves

Every event that the service takes, and every step of an editing session that is reported as an editor reports it, is
made of moves of the service (`tends_notice`, `tends_type` and those after it).  A step that edits leaves nothing
unreported.
-/
namespace Shorthand

/-- **The event tells of no edit, and runs no command that could make one.** -/
def Event.isNotice : Event → Bool
  | .modified _ => false
  | .command _ => false
  | _ => true

namespace Session

open Abbreviation (Options)

variable {s s' : Session} {p : Patch} {d : Document}

/-! ## Events -/

theorem tends_startExtracted (s : Session) (pos : Nat) : s.Tends (s.startExtracted pos).1 := by
  unfold startExtracted
  split
  · exact .refl _
  · dsimp only
    split
    · exact .refl _
    · next x hx => exact .move (.start (Span.between_ordered _ _) (Abbreviation.locate?_some hx))

theorem tends_suggest (s : Session) (pos : Nat) : s.Tends (s.suggest pos).1 := by
  unfold suggest
  split
  · exact .refl _
  · split
    · split
      · exact .refl _
      · exact (Tends.stop s).trans (tends_startExtracted _ pos)
    · exact tends_startExtracted s pos

/-- The tracker suggested is the tracker of the session. -/
theorem tracker?_suggest {s₁ : Session} {t : Tracker} {pos : Nat} (h : s.suggest pos = (s₁, some t)) :
    s₁.tracker? = some t := by
  have hx : ∀ {s : Session}, s.startExtracted pos = (s₁, some t) → s₁.tracker? = some t := by
    intro s h
    unfold startExtracted at h
    split at h
    · cases h
    · dsimp only at h
      split at h
      · cases h
      · obtain ⟨rfl, ht⟩ := Prod.mk.inj h
        exact ht
  unfold suggest at h
  split at h
  · cases h
  · split at h
    · next t' ht =>
      split at h
      · cases h
        exact ht
      · exact hx h
    · exact hx h

/-- **Typing starts no tracker, or one that is not forced** where there was none. -/
theorem startIfTyped_cases (s : Session) :
    s.startIfTyped = s ∨ ∃ span offset options, s.tracker? = none ∧ span.start ≤ span.stop ∧
      offset = s.service.leadLength ∧ s.startIfTyped = s.start span false offset options := by
  unfold startIfTyped
  split
  · next ht _ =>
    split
    · cases h : s.startTyped? s.document.caret with
      | none => exact .inl rfl
      | some s' =>
        obtain ⟨found, hfound, rfl⟩ := Option.map_eq_some_iff.1 h
        obtain ⟨hs, ho⟩ := trackingStart?_some hfound
        exact .inr ⟨_, _, _, ht, hs, ho, rfl⟩
    · exact .inl rfl
  · exact .inl rfl

/-- **What a tracker reads as ends it only if it is not forced.** -/
theorem stopIfInvalid_cases (s : Session) :
    s.stopIfInvalid = s ∨ ∃ t, s.tracker? = some t ∧ t.forced = false ∧ s.stopIfInvalid = s.stop := by
  unfold stopIfInvalid
  split
  · next reason hr =>
    obtain ⟨t, ht, hr⟩ := Option.bind_eq_some_iff.1 hr
    cases hf : t.forced with
    | false => exact .inr ⟨t, ht, hf, rfl⟩
    | true =>
      unfold Tracker.stopReason? at hr
      rw [if_pos hf] at hr
      cases hr
  · exact .inl rfl

theorem tends_startIfTyped (s : Session) : s.Tends s.startIfTyped := by
  rcases startIfTyped_cases s with h | ⟨span, offset, options, -, hs, ho, h⟩ <;> rw [h]
  · exact .refl s
  · exact .move (.start hs ho)

theorem tends_stopIfInvalid (s : Session) : s.Tends s.stopIfInvalid := by
  rcases stopIfInvalid_cases s with h | ⟨t, -, -, h⟩ <;> rw [h]
  · exact .refl s
  · exact .stop s

theorem tends_settled (s : Session) : s.Tends s.startIfTyped.stopIfInvalid.noteCaret :=
  ((tends_startIfTyped s).trans (tends_stopIfInvalid _)).trans (.quiet (.noteCaret _))

theorem tends_onModified (hw : s.document.widget = false) (h : s.document.Takes p d) :
    s.Tends ((s.withDocument d).onModified p) := by
  have hd : (s.withDocument d).document.widget = false := h.widget_eq.trans hw
  unfold onModified
  rw [hd]
  exact (Tends.move (.edit h)).trans (tends_settled _)

theorem tends_onModified_of_none (h : s.tracker? = none) (p : Patch) : s.Tends (s.onModified p) := by
  unfold onModified
  split
  · exact .refl _
  · rw [followEdit_of_none h]
    exact tends_settled s

theorem tends_onClosed (s : Session) : s.Tends s.onClosed := by
  unfold onClosed
  split
  · exact .refl _
  · exact (Tends.stop s).trans (.quiet ⟨⟨rfl, rfl, rfl, rfl, rfl, fun _ _ => rfl⟩, rfl, rfl, rfl, rfl⟩)

theorem tends_onUndone (s : Session) : s.Tends s.onUndone := .move (.undone (d := s.document) (.inl rfl))

theorem tends_onQueryCompletions (s : Session) (pos : Nat) : s.Tends (s.onQueryCompletions pos).1 := by
  unfold onQueryCompletions
  split
  · exact .refl _
  · have h := (Tends.quiet (.askCompletion s false)).trans (tends_suggest (s.askCompletion false) pos)
    split
    · next s₁ hs => rw [hs] at h; exact h
    · next s₁ t hs =>
      rw [hs] at h
      have he := h.trans (.quiet (.expansion s₁))
      split
      · next s₂ hx => rw [hx] at he; exact he
      · next s₂ snippet hx => rw [hx] at he; exact he

theorem quiet_onTextCommand (s : Session) {c : TextCommand} (h : c ≠ .commitCompletion) :
    s.Quiet (s.onTextCommand c) := by
  cases c with
  | autoComplete =>
    change s.Quiet (if s.service.settings.autoMark then s.askCompletion true else s)
    split
    · exact .askCompletion s true
    · exact .refl s
  | commitCompletion => exact absurd rfl h
  | undo => exact .refl s
  | other _ => exact .refl s

theorem tends_onTextCommand (s : Session) (c : TextCommand) : s.Tends (s.onTextCommand c) := by
  by_cases hc : c = .commitCompletion
  · subst hc
    exact .stop s
  · exact .quiet (quiet_onTextCommand s hc)

theorem tends_onPostTextCommand (s : Session) (c : TextCommand) : s.Tends (s.onPostTextCommand c) := by
  cases c with
  | autoComplete => exact .quiet (.askCompletion s false)
  | commitCompletion => exact .refl _
  | undo => exact tends_onUndone s
  | other _ => exact .refl _

theorem tends_extract (s : Session) : s.Tends s.extract := by
  have h := tends_suggest s s.document.caret
  unfold extract
  split
  · next s₁ hs => rw [hs] at h; exact h
  · next s₁ t hs => rw [hs] at h; exact h.trans (.quiet (.showPreview s₁))

theorem tends_force (s : Session) (options : Options) :
    s.Tends (s.stop.start s.document.selection.span true 0 options) :=
  (Tends.stop s).trans (.move (.start (Span.between_ordered _ _) rfl))

theorem quiet_showPreview_select (s : Session) (selection : Selection) :
    s.Quiet (s.showPreview.withDocument (s.document.setSelection selection)) := by
  have hd : s.showPreview.document = s.document := by
    unfold showPreview
    split <;> rfl
  refine (Quiet.showPreview s).trans (.withDocument (.withDocument ?_ ?_ ?_) ?_ ?_ ?_) <;> rw [hd] <;> rfl

/-- **Entering an abbreviation ends a forced tracker, or starts one** on the selection. -/
theorem enter_eq_stop_or_quiet (s : Session) :
    (s.tracker?.any (·.forced) = true ∧ s.enter = s.stop) ∨
      ∃ options, (s.stop.start s.document.selection.span true 0 options).Quiet s.enter := by
  unfold enter
  cases hf : s.tracker?.any (·.forced) with
  | true => exact .inl ⟨rfl, rfl⟩
  | false =>
    simp only [Bool.false_eq_true, if_false]
    refine .inr ⟨s.stop.optionsAt s.document.selection.span.start
      (s.service.settings.capturesContext s.document.length), Quiet.trans ?_ (.noteCaret _)⟩
    split
    · exact .refl _
    · exact quiet_showPreview_select _ _

theorem tends_enter (s : Session) : s.Tends s.enter := by
  rcases enter_eq_stop_or_quiet s with ⟨-, h⟩ | ⟨options, h⟩
  · rw [h]
    exact .stop s
  · exact (tends_force s options).trans (.quiet h)

theorem tends_notice (s : Session) {e : Event} (h : e.isNotice = true) : s.Tends (s.after e) := by
  cases e with
  | activated => exact .quiet (.onActivated s)
  | closed => exact tends_onClosed s
  | selectionModified => exact .quiet (.onSelectionModified s)
  | modified p => cases h
  | textCommand c => exact tends_onTextCommand s c
  | postTextCommand c => exact tends_onPostTextCommand s c
  | queryContext key => exact .refl s
  | queryCompletions pos => exact tends_onQueryCompletions s pos
  | command c => cases h

/-! ## Reports -/

theorem tends_report (hw : s.document.widget = false) (h : s.document.Takes p d) :
    s.Tends ((s.withDocument d).report p) :=
  (tends_onModified hw h).trans (.quiet (.onSelectionModified _))

theorem flush_of_nil (h : s.document.unreported = []) : s.flush = s.onSelectionModified := by
  have hr : s.document.reported = s.document := by
    unfold Document.reported
    rw [← h]
  unfold flush
  rw [hr, h]
  rfl

theorem flush_of_singleton (hu : d.unreported = []) :
    (s.withDocument { d with unreported := d.unreported ++ [p] }).flush = (s.withDocument d).report p := by
  have hr : Document.reported { d with unreported := d.unreported ++ [p] } = d := by
    unfold Document.reported
    rw [← hu]
  unfold flush
  change (List.foldl _ ((s.withDocument _).withDocument (Document.reported { d with unreported := _ }))
    (d.unreported ++ [p])).after .selectionModified = _
  rw [hr, hu]
  rfl

/-! ## Commands -/

theorem expansion_document (s : Session) : s.expansion.1.document = s.document := by
  unfold expansion
  split <;> rfl

/-- **Expanding changes no text, or puts the snippet in and ends tracking.** -/
theorem expand_cases (s : Session) :
    s.Tends s.expand ∨ ∃ p d, s.document.Takes p d ∧
      s.expand = (s.expansion.1.withDocument { d with unreported := d.unreported ++ [p] }).stop := by
  unfold expand
  split
  · exact .inl (.refl s)
  · split
    · split
      · have hq := Tends.quiet (Quiet.expansion s)
        have hd := expansion_document s
        generalize s.expansion = e at hq hd
        obtain ⟨s₁, snippet⟩ := e
        cases snippet with
        | none => exact .inl (hq.trans (.stop s₁))
        | some snippet =>
          dsimp only at hd
          unfold insertSnippet
          dsimp only
          cases hi : s₁.document.insertSnippet? _ snippet with
          | error => exact .inl (hq.trans (.stop s₁))
          | ok d' =>
            obtain ⟨p, d, ht, rfl⟩ := Document.takes_of_insertSnippet? hi
            exact .inr ⟨p, d, hd ▸ ht, rfl⟩
      · exact .inl (.stop s)
    · exact .inl (.refl s)

theorem Tends.flush (h : s.Tends s') (hu : s.document.unreported = []) : s.Tends s'.flush := by
  rw [flush_of_nil (h.keeps.unreported.trans hu)]
  exact h.trans (.quiet (.onSelectionModified s'))

theorem tends_expand (hu : s.document.unreported = []) : s.Tends (s.command .expand) := by
  rcases expand_cases s with h | ⟨p, d, ht, he⟩
  · exact h.flush hu
  · -- the snippet goes in with the tracker gone, so that its report can only start a new one
    have hs : s.expand.flush = (s.expansion.1.withDocument d).stop.report p := by
      rw [he]
      exact flush_of_singleton (s := (s.expansion.1.withDocument d).stop)
        (d := (s.expansion.1.withDocument d).stop.document) (ht.unreported_eq.trans hu)
    have hr : s.Tends (s.expansion.1.withDocument d).stop :=
      (Tends.quiet (.expansion s)).trans (.move (.replace (expansion_document s ▸ ht)))
    change s.Tends s.expand.flush
    rw [hs]
    exact (hr.trans (tends_onModified_of_none (tracker?_stop _) p)).trans (.quiet (.onSelectionModified _))

theorem tends_command (hu : s.document.unreported = []) (c : Command) : s.Tends (s.command c) := by
  cases c with
  | expand => exact tends_expand hu
  | extract => exact (tends_extract s).flush hu
  | enter => exact (tends_enter s).flush hu
  | clear => exact (Tends.stop s).flush hu

/-! ## Editing -/

theorem tends_type (hw : s.document.widget = false) (t : Text) : s.Tends (s.type t).1 := by
  induction t generalizing s with
  | nil => exact .refl s
  | cons c t ih =>
    unfold type
    split
    · exact .refl s
    · next d p hd =>
      have h := tends_report hw (Document.takes_of_type? hd).1
      exact h.trans (ih (h.keeps.widget.trans hw))

theorem tends_backspace (hw : s.document.widget = false) (count : Nat) : s.Tends (s.backspace count).1 := by
  induction count generalizing s with
  | zero => exact .refl s
  | succ count ih =>
    unfold backspace
    split
    · exact .refl s
    · next d p hd =>
      have h := tends_report hw (Document.takes_of_backspace? hd).1
      exact h.trans (ih (h.keeps.widget.trans hw))

theorem tends_edit (hw : s.document.widget = false) (p : Patch) : s.Tends (s.edit p).1 := by
  unfold edit
  split
  · exact .refl s
  · next d hd => exact tends_report hw (Document.takes_of_edit? hd)

theorem quiet_select (s : Session) (anchor head : Nat) : s.Quiet (s.select anchor head).1 := by
  unfold select
  split
  · exact .refl s
  · next d hd =>
    unfold Document.select? at hd
    split at hd
    · cases hd
    · split at hd
      · cases hd
      · cases hd
        have hq : s.Quiet (s.withDocument { s.document with selection := ⟨anchor, head⟩ }) :=
          .withDocument (.withDocument rfl rfl rfl) rfl rfl rfl
        exact hq.trans (.onSelectionModified _)

/-- **An undo step takes the tracker back along with the document.** -/
theorem undo_eq (s : Session) :
    s.undo.1 = match s.document.undo? with
      | none => s.onUndone
      | some d => (s.withDocument d).onUndone := by
  have hs : s.after (.textCommand .undo) = s := rfl
  unfold undo
  dsimp only
  rw [hs]
  cases s.document.undo? <;> rfl

theorem tends_undo (s : Session) : s.Tends s.undo.1 := by
  rw [undo_eq]
  split
  · exact tends_onUndone s
  · next d hd => exact .move (.undone (.inr hd))

/-! ## Completions -/

theorem complete_fst (s : Session) (pos : Nat) :
    (s.complete pos).1 =
      (((s.onTextCommand .autoComplete).onQueryCompletions pos).1).onPostTextCommand .autoComplete := rfl

theorem tends_complete (s : Session) (pos : Nat) : s.Tends (s.complete pos).1 := by
  rw [complete_fst]
  exact ((tends_onTextCommand s .autoComplete).trans (tends_onQueryCompletions _ pos)).trans
    (tends_onPostTextCommand _ .autoComplete)

theorem tends_commit (hw : s.document.widget = false) (hu : s.document.unreported = []) (region : Span)
    (snippet : Text) : s.Tends (s.commit region snippet).1 := by
  have hs : s.after (.textCommand .commitCompletion) = s.stop := rfl
  unfold commit
  dsimp only
  rw [hs]
  split
  · exact .stop s
  · next d' hd =>
    obtain ⟨p, d, ht, rfl⟩ := Document.takes_of_insertSnippet? hd
    dsimp only
    rw [flush_of_singleton (ht.unreported_eq.trans hu)]
    exact (Tends.stop s).trans (tends_report hw ht)

theorem tends_takeCompletion (hw : s.document.widget = false) (hu : s.document.unreported = []) (commit : Bool) :
    s.Tends (s.takeCompletion commit).1 := by
  have h := tends_complete s s.document.caret
  unfold takeCompletion
  split
  · next s₁ hs => rw [hs] at h; exact h
  · next s₁ entry hs =>
    rw [hs] at h
    dsimp only
    split
    · exact h
    · split
      · exact h
      · next t _ =>
        have hc := h.trans (tends_commit (h.keeps.widget.trans hw) (h.keeps.unreported.trans hu) t.region entry.snippet)
        split
        · next s₂ _ hs₂ => rw [hs₂] at hc; exact hc
        · next s₂ hs₂ => rw [hs₂] at hc; exact hc

end Session
end Shorthand
