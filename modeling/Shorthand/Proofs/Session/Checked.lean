import Shorthand.Proofs.Document.Checked
import Shorthand.Proofs.Session.Sound
import Shorthand.Proofs.Tracking.Checked
/-!
# Events with every bound checked

What the service does on an event, with the checked operations.  Three things are asked of a session, each by the events
named: that the region of the tracker has its ends in order, when it follows an edit (`Tidy`); that it lies in the text,
when a completion list is opened, since the entry shows what stands there; and that the markers of the document have
their ends in order, when an expansion goes in.
-/
namespace Shorthand

open Abbreviation (Options enclosing? enclosingChecked? enclosingChecked?_eq locate? locateChecked? locateChecked?_eq)

namespace Tracker

def locateContextChecked (t : Tracker) (text : Text) : Option Tracker :=
  match t.options.context with
  | some _ => some t
  | none =>
    (enclosingChecked? text t.region.start t.options.dialect).map fun context =>
      { t with options.context := context }

theorem locateContextChecked_eq (t : Tracker) (text : Text) :
    t.locateContextChecked text = some (t.locateContext text) := by
  unfold locateContextChecked locateContext
  cases t.options.context with
  | some context => rfl
  | none => exact congrArg (Option.map _) (enclosingChecked?_eq text t.region.start t.options.dialect)

end Tracker

namespace Session

variable {s : Session} {t : Tracker} {p : Patch}

/-! ## Starting -/

def optionsAtChecked (s : Session) (pos : Nat) (withContext : Bool) : Option Options :=
  (if withContext then enclosingChecked? s.document.text pos s.service.dialect.name else some none).map fun context =>
    { dialect := s.service.dialect.name, lead := s.service.lead?, context }

theorem optionsAtChecked_eq (s : Session) (pos : Nat) (withContext : Bool) :
    s.optionsAtChecked pos withContext = some (s.optionsAt pos withContext) := by
  unfold optionsAtChecked optionsAt
  rw [enclosingChecked?_eq]
  cases withContext <;> rfl

def startChecked (s : Session) (span : Span) (forced : Bool) (offset : Nat) (options : Options) : Option Session :=
  let region := span.clamp s.document.length
  let tracker : Tracker := { region, forced, offset, options }
  (tracker.rereadChecked Abbreviation.read s.document.text).map fun tracker =>
    (s.withTrackers (s.service.trackers.insert s.document.id tracker)).setMarker region

theorem startChecked_eq (s : Session) (span : Span) (forced : Bool) (offset : Nat) (options : Options) :
    s.startChecked span forced offset options = some (s.start span forced offset options) := by
  unfold startChecked
  dsimp only
  rw [Tracker.rereadChecked_eq]
  rfl

def startTypedChecked? (s : Session) (pos : Nat) : Option (Option Session) := do
  match ← trackingStartChecked? s.document.text pos s.service.lead? with
  | none => some none
  | some found =>
    let options ←
      s.optionsAtChecked found.span.start (s.service.settings.capturesContext s.document.length)
    (s.startChecked found.span false found.offset options).map some

theorem startTypedChecked?_eq (s : Session) (pos : Nat) : s.startTypedChecked? pos = some (s.startTyped? pos) := by
  unfold startTypedChecked? startTyped?
  simp only [trackingStartChecked?_eq, Option.bind_eq_bind, Option.bind_some]
  cases trackingStart? s.document.text pos s.service.lead? with
  | none => rfl
  | some found =>
    simp only [optionsAtChecked_eq, Option.bind_some, startChecked_eq]
    rfl

def startExtractedChecked (s : Session) (pos : Nat) : Option (Session × Option Tracker) := do
  let options ← s.optionsAtChecked pos true
  if s.document.length < pos then some (s, none)
  else
    let lineStart ← Text.lineStartChecked s.document.text pos
    let line ← s.document.text.slice? lineStart pos
    let column ← sub? pos lineStart
    match ← locateChecked? line column options.lead with
    | none => some (s, none)
    | some x =>
      let s ← s.startChecked (.between (lineStart + x.start) (lineStart + x.stop)) false (x.location - x.start) options
      some (s, s.tracker?)

theorem startExtractedChecked_eq (s : Session) (pos : Nat) :
    s.startExtractedChecked pos = some (s.startExtracted pos) := by
  unfold startExtractedChecked startExtracted
  simp only [optionsAtChecked_eq, Option.bind_eq_bind, Option.bind_some]
  split
  · rfl
  · next h =>
    have hpos : pos ≤ s.document.text.length := Nat.le_of_not_lt h
    have hline := Text.lineStart_le s.document.text pos
    have hstart : Text.lineStartChecked s.document.text pos = some (Text.lineStart s.document.text pos) := if_pos hpos
    simp only [hstart, Text.slice?_of_le hline hpos, sub?_of_le hline, locateChecked?_eq, Option.bind_some]
    generalize locate? _ _ _ = found
    cases found with
    | none => rfl
    | some x => simp only [startChecked_eq, Option.bind_some]

def suggestChecked (s : Session) (pos : Nat) : Option (Session × Option Tracker) :=
  if !s.service.allowsTracking then some (s, none)
  else
    match s.tracker? with
    | some t => if t.region.contains pos then some (s, some t) else s.stop.startExtractedChecked pos
    | none => s.startExtractedChecked pos

/-- **An abbreviation may be looked for at any position whatever.** -/
theorem suggestChecked_eq (s : Session) (pos : Nat) : s.suggestChecked pos = some (s.suggest pos) := by
  unfold suggestChecked suggest
  split
  · rfl
  · cases s.tracker? with
    | none => exact startExtractedChecked_eq s pos
    | some t =>
      dsimp only
      split
      · rfl
      · exact startExtractedChecked_eq s.stop pos

def restoreChecked? (s : Session) : Option (Option Session) :=
  match s.marker?, s.tracker? with
  | some marker, none => do
    let options ← s.optionsAtChecked marker.start true
    (s.startChecked marker false options.leadLength options).map some
  | _, _ => some none

theorem restoreChecked?_eq (s : Session) : s.restoreChecked? = some s.restore? := by
  unfold restoreChecked? restore?
  cases s.marker? with
  | none => rfl
  | some marker =>
    cases s.tracker? with
    | some t => rfl
    | none =>
      dsimp only
      rw [optionsAtChecked_eq, Option.bind_eq_bind, Option.bind_some, startChecked_eq]
      rfl

def expansionChecked (s : Session) : Option (Session × Option Text) :=
  match s.tracker? with
  | none => some (s, none)
  | some t =>
    (t.locateContextChecked s.document.text).map fun t =>
      (s.withTrackers (s.service.trackers.insert s.document.id t), t.expansion?)

theorem expansionChecked_eq (s : Session) : s.expansionChecked = some s.expansion := by
  unfold expansionChecked expansion
  cases s.tracker? with
  | none => rfl
  | some t =>
    dsimp only
    rw [Tracker.locateContextChecked_eq]
    rfl

/-! ## Following edits -/

/-- The region of the tracker has its ends in order. -/
def Tidy (s : Session) : Prop := ∀ t, s.tracker? = some t → t.region.start ≤ t.region.stop

/-- The tracker has read no more than its region holds, wherever that is. -/
def Fitting (s : Session) : Prop := ∀ t, s.tracker? = some t → t.reading.text.length ≤ t.region.stop

theorem Tidy.of_none (h : s.tracker? = none) : s.Tidy := fun t ht => by
  rw [h] at ht
  cases ht

theorem Tidy.hold (h : t.region.start ≤ t.region.stop) : (s.hold t).Tidy := fun t' ht => by
  rw [tracker?_hold] at ht
  cases ht
  exact h

theorem Fitting.of_none (h : s.tracker? = none) : s.Fitting := fun t ht => by
  rw [h] at ht
  cases ht

theorem Fitting.hold_reread (s : Session) (t : Tracker) (text : Text) :
    (s.hold (t.reread Abbreviation.read text)).Fitting := fun t' ht => by
  rw [tracker?_hold] at ht
  cases ht
  exact t.length_reading_reread Abbreviation.read text

theorem Sound.tidy (h : s.Sound) : s.Tidy := fun t ht => (h.reads t ht).within.1

def followEditChecked (s : Session) (p : Patch) : Option Session :=
  match s.tracker? with
  | none => some s
  | some _ =>
    if p.lengthAfter = s.document.length then
      (s.service.trackers.editedChecked Abbreviation.read s.document.id p s.document.text).map fun trackers =>
        match trackers.get? s.document.id with
        | some t => (s.withTrackers trackers).setMarker t.region
        | none => (s.withTrackers trackers).stop
    else some s.stop

theorem followEditChecked_eq (h : s.Tidy) (p : Patch) : s.followEditChecked p = some (s.followEdit p) := by
  unfold followEditChecked followEdit
  rw [Registry.editedChecked_eq Abbreviation.read h]
  cases s.tracker? with
  | none => rfl
  | some t =>
    dsimp only
    split <;> rfl

theorem Tidy.followEdit (h : s.Tidy) (p : Patch) : (s.followEdit p).Tidy := by
  rcases followEdit_cases s p with ⟨ht, he⟩ | ⟨t, -, -, he⟩ | ⟨t, ht, -, he⟩ <;> rw [he]
  · exact h
  · exact .of_none (tracker?_stop s)
  · exact .hold (p.mapSpan_ordered (h t ht))

/-- **Whatever was read before, an edit has the region read again.** -/
theorem fitting_followEdit (s : Session) (p : Patch) : (s.followEdit p).Fitting := by
  rcases followEdit_cases s p with ⟨ht, he⟩ | ⟨t, -, -, he⟩ | ⟨t, ht, -, he⟩ <;> rw [he]
  · exact .of_none ht
  · exact .of_none (tracker?_stop s)
  · exact .hold_reread s (t.follow p) s.document.text

def startIfTypedChecked (s : Session) : Option Session :=
  match s.tracker?, s.service.carets.get? s.document.id with
  | none, some last =>
    if last + 1 = s.document.caret && s.service.allowsTracking then
      (s.startTypedChecked? s.document.caret).map fun started => started.getD s
    else some s
  | _, _ => some s

theorem startIfTypedChecked_eq (s : Session) : s.startIfTypedChecked = some s.startIfTyped := by
  unfold startIfTypedChecked startIfTyped
  cases s.tracker? with
  | some t => rfl
  | none =>
    cases s.service.carets.get? s.document.id with
    | none => rfl
    | some last =>
      dsimp only
      rw [startTypedChecked?_eq]
      split <;> rfl

theorem Tidy.startIfTyped (h : s.Tidy) : s.startIfTyped.Tidy := by
  rcases startIfTyped_cases s with he | ⟨span, offset, options, -, hs, -, he⟩ <;> rw [he]
  · exact h
  · exact .hold (Span.clamp_within hs s.document.length).1

theorem Fitting.startIfTyped (h : s.Fitting) : s.startIfTyped.Fitting := by
  rcases startIfTyped_cases s with he | ⟨span, offset, options, -, hs, -, he⟩ <;> rw [he]
  · exact h
  · exact .hold_reread s _ s.document.text

def stopIfInvalidChecked (s : Session) : Option Session :=
  match s.tracker? with
  | none => some s
  | some t => (t.stopReasonChecked? s.document.caret).map fun reason => if reason.isSome then s.stop else s

theorem stopIfInvalidChecked_eq (h : s.Fitting) : s.stopIfInvalidChecked = some s.stopIfInvalid := by
  unfold stopIfInvalidChecked stopIfInvalid
  cases ht : s.tracker? with
  | none => rfl
  | some t =>
    dsimp only
    rw [Tracker.stopReasonChecked?_eq (h t ht), Option.bind_some]
    cases t.stopReason? s.document.caret <;> rfl

theorem Tidy.stopIfInvalid (h : s.Tidy) : s.stopIfInvalid.Tidy := by
  rcases stopIfInvalid_cases s with he | ⟨t, -, -, he⟩ <;> rw [he]
  · exact h
  · exact .of_none (tracker?_stop s)

def onModifiedChecked (s : Session) (p : Patch) : Option Session :=
  if s.document.widget then some s
  else do
    let s ← s.followEditChecked p
    let s ← s.startIfTypedChecked
    let s ← s.stopIfInvalidChecked
    some s.noteCaret

theorem onModifiedChecked_eq (h : s.Tidy) (p : Patch) : s.onModifiedChecked p = some (s.onModified p) := by
  unfold onModifiedChecked onModified
  split
  · rfl
  · rw [followEditChecked_eq h, Option.bind_eq_bind, Option.bind_some, startIfTypedChecked_eq, Option.bind_some,
      stopIfInvalidChecked_eq (fitting_followEdit s p).startIfTyped, Option.bind_some]

theorem Tidy.onModified (h : s.Tidy) (p : Patch) : (s.onModified p).Tidy := by
  unfold Session.onModified
  split
  · exact h
  · exact (h.followEdit p).startIfTyped.stopIfInvalid

/-! ## Undoing -/

def resyncChecked (s : Session) : Option Session :=
  let moveTo (region : Span) : Option Session :=
    (s.service.trackers.movedChecked Abbreviation.read s.document.id region s.document.text).map s.withTrackers
  match s.tracker?, s.marker? with
  | some _, some marker => moveTo marker
  | some t, none =>
    if t.forced then (moveTo t.region).map (·.setMarker (t.region.clamp s.document.length)) else some s.stop
  | none, _ => some s

theorem resyncChecked_eq (s : Session) : s.resyncChecked = some s.resync := by
  unfold resyncChecked resync
  simp only [Registry.movedChecked_eq, Option.map_some]
  cases s.tracker? with
  | none => rfl
  | some t =>
    cases s.marker? with
    | some marker => rfl
    | none =>
      dsimp only
      split <;> rfl

def onUndoneChecked (s : Session) : Option Session :=
  match s.tracker? with
  | some _ => s.resyncChecked.map noteCaret
  | none => s.restoreChecked?.map fun restored => (restored.elim s showPreview).noteCaret

/-- **Undoing may bring back any text and any marker.** -/
theorem onUndoneChecked_eq (s : Session) : s.onUndoneChecked = some s.onUndone := by
  unfold onUndoneChecked onUndone
  rw [resyncChecked_eq, restoreChecked?_eq]
  cases s.tracker? <;> rfl

/-! ## Completions -/

def onQueryCompletionsChecked (s : Session) (pos : Nat) : Option (Session × Option Completion) :=
  if !s.service.completionAsked then some (s, none)
  else do
    match ← (s.askCompletion false).suggestChecked pos with
    | (s, none) => some (s, none)
    | (s, some t) =>
      let abbreviation ← s.document.text.slice? t.region.start t.region.stop
      match ← s.expansionChecked with
      | (s, none) => some (s, none)
      | (s, some snippet) => some (s, some ⟨abbreviation ++ "\tEmmet".toList, snippet⟩)

theorem onQueryCompletionsChecked_eq (h : s.Sound) (pos : Nat) :
    s.onQueryCompletionsChecked pos = some (s.onQueryCompletions pos) := by
  unfold onQueryCompletionsChecked onQueryCompletions
  split
  · rfl
  · simp only [suggestChecked_eq, Option.bind_eq_bind, Option.bind_some]
    have hs : ((s.askCompletion false).suggest pos).1.Sound :=
      ((Tends.quiet (.askCompletion s false)).trans (tends_suggest _ pos)).preserves Moves.sound h
    cases hr : (s.askCompletion false).suggest pos with
    | mk s₁ found =>
      rw [hr] at hs
      cases found with
      | none => rfl
      | some t =>
        obtain ⟨hw, hw'⟩ := (hs.reads t (tracker?_suggest hr)).within
        simp only [Text.slice?_of_le hw hw', expansionChecked_eq, Option.bind_some]
        have hd := expansion_document s₁
        cases hx : s₁.expansion with
        | mk s₂ snippet =>
          rw [hx] at hd
          cases snippet with
          | none => rfl
          | some snippet =>
            dsimp only at hd ⊢
            rw [hd]
            rfl

def onPostTextCommandChecked (s : Session) : TextCommand → Option Session
  | .autoComplete => some (s.askCompletion false)
  | .undo => s.onUndoneChecked
  | _ => some s

theorem onPostTextCommandChecked_eq (s : Session) (c : TextCommand) :
    s.onPostTextCommandChecked c = some (s.onPostTextCommand c) := by
  cases c with
  | undo => exact onUndoneChecked_eq s
  | autoComplete | commitCompletion | other _ => rfl

/-! ## Commands -/

def insertSnippetChecked (s : Session) (region : Span) (snippet : Text) : Option Session :=
  (s.document.insertSnippetChecked? region snippet).map fun
    | .error _ => s
    | .ok d => s.withDocument d

theorem insertSnippetChecked_eq (h : s.document.Ordered) (region : Span) (snippet : Text) :
    s.insertSnippetChecked region snippet = some (s.insertSnippet region snippet) := by
  unfold insertSnippetChecked insertSnippet
  rw [Document.insertSnippetChecked?_eq h.markers]
  cases s.document.insertSnippet? region snippet <;> rfl

def expandChecked (s : Session) : Option Session :=
  match s.tracker? with
  | none => some s
  | some t =>
    if t.region.contains s.document.caret then
      if t.reading.isValid then do
        match ← s.expansionChecked with
        | (s, none) => some s.stop
        | (s, some snippet) => (s.insertSnippetChecked t.region snippet).map stop
      else some s.stop
    else some s

theorem expandChecked_eq (h : s.document.Ordered) : s.expandChecked = some s.expand := by
  unfold expandChecked expand
  cases s.tracker? with
  | none => rfl
  | some t =>
    dsimp only
    rw [expansionChecked_eq, Option.bind_eq_bind, Option.bind_some]
    have hd := expansion_document s
    cases hx : s.expansion with
    | mk s₁ snippet =>
      rw [hx] at hd
      cases snippet with
      | none => split <;> [split; skip] <;> rfl
      | some snippet =>
        dsimp only at hd ⊢
        rw [insertSnippetChecked_eq (hd ▸ h)]
        split <;> [split; skip] <;> rfl

def extractChecked (s : Session) : Option Session :=
  (s.suggestChecked s.document.caret).map fun
    | (s, none) => s
    | (s, some _) => s.showPreview

theorem extractChecked_eq (s : Session) : s.extractChecked = some s.extract := by
  unfold extractChecked extract
  rw [suggestChecked_eq]
  rfl

def enterChecked (s : Session) : Option Session :=
  if s.tracker?.any (·.forced) then some s.stop
  else do
    let s := s.stop
    let selected := s.document.selection.span
    let options ← s.optionsAtChecked selected.start (s.service.settings.capturesContext s.document.length)
    let s ← s.startChecked selected true 0 options
    some (if selected.isEmpty then s
      else s.showPreview.withDocument (s.document.setSelection (.point selected.stop))).noteCaret

theorem enterChecked_eq (s : Session) : s.enterChecked = some s.enter := by
  unfold enterChecked enter
  split
  · rfl
  · simp only [optionsAtChecked_eq, startChecked_eq, Option.bind_eq_bind, Option.bind_some]

def runChecked (s : Session) : Command → Option Session
  | .expand => s.expandChecked
  | .extract => s.extractChecked
  | .enter => s.enterChecked
  | .clear => some s.stop

theorem runChecked_eq (h : s.document.Ordered) (c : Command) : s.runChecked c = some (s.run c) := by
  cases c with
  | expand => exact expandChecked_eq h
  | extract => exact extractChecked_eq s
  | enter => exact enterChecked_eq s
  | clear => rfl

/-! ## All events -/

def dispatchChecked (s : Session) : Event → Option (Session × Reply)
  | .activated => some (s.onActivated, .none)
  | .closed => some (s.onClosed, .none)
  | .selectionModified => some (s.onSelectionModified, .none)
  | .modified p => (s.onModifiedChecked p).map (·, .none)
  | .textCommand c => some (s.onTextCommand c, .none)
  | .postTextCommand c => (s.onPostTextCommandChecked c).map (·, .none)
  | .queryContext key => some (s, .context (s.holds key))
  | .queryCompletions pos => (s.onQueryCompletionsChecked pos).map fun (s, entry) => (s, .completions entry)
  | .command c => (s.runChecked c).map (·, .none)

/-- **What an event asks of the session that it comes in.** -/
def Bears (s : Session) : Event → Prop
  | .modified _ => s.Tidy
  | .queryCompletions _ => s.Sound
  | .command _ => s.document.Ordered
  | _ => True

/-- **No event fails.** -/
theorem dispatchChecked_eq {e : Event} (h : s.Bears e) : s.dispatchChecked e = some (s.dispatch e) := by
  cases e with
  | modified p => exact congrArg (Option.map _) (onModifiedChecked_eq h p)
  | postTextCommand c => exact congrArg (Option.map _) (onPostTextCommandChecked_eq s c)
  | queryCompletions pos => exact congrArg (Option.map _) (onQueryCompletionsChecked_eq h pos)
  | command c => exact congrArg (Option.map _) (runChecked_eq h c)
  | activated | closed | selectionModified | textCommand _ | queryContext _ => rfl

def afterChecked (s : Session) (e : Event) : Option Session := (s.dispatchChecked e).map (·.1)

theorem afterChecked_eq {e : Event} (h : s.Bears e) : s.afterChecked e = some (s.after e) :=
  congrArg (Option.map _) (dispatchChecked_eq h)

end Session
end Shorthand
