import Shorthand.Proofs.Session.Checked
/-!
# No handler fails

A whole run of a host with the checked operations: editing, undoing, commands and completions, each told to the service
as an editor tells it.  Between two actions a session is `Intact`: sound, with the markers of its document in order.  So
every event finds what it asks for, and the checked run comes to the same as the run (`Opening.runChecked_eq_run`):
nothing is ever read or changed outside a text, and no difference falls below zero.
-/
namespace Shorthand

namespace Session

variable {s s' : Session} {t : Tracker} {p : Patch} {d : Document}

/-- **Between two actions**: tracker, marker and text agree, and the markers have their ends in order. -/
structure Intact (s : Session) : Prop extends s.Sound where
  ordered : s.document.Ordered

/-- A tracker has its region in order also when the document has changed and the service has not been told yet. -/
theorem Tidy.withDocument (h : s.Tidy) (hd : d.id = s.document.id) : (s.withDocument d).Tidy := fun t ht =>
  h t ((tracker?_withDocument hd).symm.trans ht)

theorem Moves.intact (h : s.Moves s') (hs : s.Intact) : s'.Intact := by
  refine ⟨h.sound hs.toSound, ?_⟩
  cases h with
  | quiet same => exact ⟨same.markers ▸ hs.ordered.markers, same.history ▸ hs.ordered.history⟩
  | stop => exact hs.ordered.clearMarker _
  | start ordered _ => exact hs.ordered.setMarker _ (Span.clamp_within ordered s.document.length).1
  | @edit p d takes =>
    have hd := hs.ordered.takes takes
    have ht : (s.withDocument d).Tidy := hs.tidy.withDocument takes.id_eq
    rcases followEdit_cases (s.withDocument d) p with ⟨-, he⟩ | ⟨t, -, -, he⟩ | ⟨t, hu, -, he⟩ <;> rw [he]
    · exact hd
    · exact hd.clearMarker _
    · exact hd.setMarker _ (p.mapSpan_ordered (ht t hu))
  | replace takes => exact (hs.ordered.takes takes).clearMarker _
  | @undone d back =>
    have hd : d.Ordered := by
      rcases back with rfl | hd
      · exact hs.ordered
      · exact hs.ordered.undo? hd
    have ht : (s.withDocument d).Tidy := hs.tidy.withDocument (Keeps.of_undo? back).id
    rcases onUndone_cases (s.withDocument d) with ⟨-, -, hu⟩ | ⟨m, -, hm, hu⟩ | ⟨t, m, -, -, hu⟩ | ⟨t, hr, -, -, hu⟩ |
      ⟨t, -, -, -, hu⟩ <;> rw [hu]
    · exact hd
    · have hq := (Quiet.showPreview ((s.withDocument d).start m false (s.withDocument d).service.leadLength
        ((s.withDocument d).optionsAt m.start true))).trans (.noteCaret _)
      have ho := hd.setMarker abbreviationMarker (Span.clamp_within (hd.markers.get? hm) d.length).1
      exact ⟨hq.markers ▸ ho.markers, hq.history ▸ ho.history⟩
    · exact hd
    · exact hd.setMarker _ (Span.clamp_within (ht t hr) d.length).1
    · exact hd.clearMarker _

theorem kept_intact : Kept Intact where
  moves := Moves.intact
  own hd ht hv hs h := ⟨invariant_sound.own hd ht hv hs h.toSound, hd ▸ h.ordered⟩

theorem Tends.intact (h : s.Tends s') (hs : s.Intact) : s'.Intact := h.preserves Moves.intact hs

/-! ## Editing -/

def reportChecked (s : Session) (p : Patch) : Option Session := do
  let s ← s.afterChecked (.modified p)
  s.afterChecked .selectionModified

theorem reportChecked_eq (h : s.Tidy) (p : Patch) : s.reportChecked p = some (s.report p) := by
  unfold reportChecked
  rw [afterChecked_eq (e := .modified p) h]
  rfl

def typeChecked (s : Session) : Text → Option (Session × Option DocumentError)
  | [] => some (s, none)
  | c :: t => do
    match ← s.document.typeChecked? c with
    | .error error => some (s, some error)
    | .ok (d, p) =>
      let s ← (s.withDocument d).reportChecked p
      typeChecked s t

theorem typeChecked_eq (hw : s.document.widget = false) (h : s.Intact) (t : Text) :
    s.typeChecked t = some (s.type t) := by
  induction t generalizing s with
  | nil => rfl
  | cons c t ih =>
    unfold typeChecked type
    simp only [Document.typeChecked?_eq h.ordered.markers, Option.bind_eq_bind, Option.bind_some]
    cases hd : s.document.type? c with
    | error error => rfl
    | ok made =>
      obtain ⟨d, p⟩ := made
      have ht := (Document.takes_of_type? hd).1
      have hr := tends_report hw ht
      simp only [reportChecked_eq (h.tidy.withDocument ht.id_eq), Option.bind_some]
      exact ih (hr.keeps.widget.trans hw) (hr.intact h)

def backspaceChecked (s : Session) : Nat → Option (Session × Option DocumentError)
  | 0 => some (s, none)
  | n + 1 => do
    match ← s.document.backspaceChecked? with
    | .error error => some (s, some error)
    | .ok (d, p) =>
      let s ← (s.withDocument d).reportChecked p
      backspaceChecked s n

theorem backspaceChecked_eq (hw : s.document.widget = false) (h : s.Intact) (count : Nat) :
    s.backspaceChecked count = some (s.backspace count) := by
  induction count generalizing s with
  | zero => rfl
  | succ count ih =>
    unfold backspaceChecked backspace
    simp only [Document.backspaceChecked?_eq h.ordered.markers, Option.bind_eq_bind, Option.bind_some]
    cases hd : s.document.backspace? with
    | error error => rfl
    | ok made =>
      obtain ⟨d, p⟩ := made
      have ht := (Document.takes_of_backspace? hd).1
      have hr := tends_report hw ht
      simp only [reportChecked_eq (h.tidy.withDocument ht.id_eq), Option.bind_some]
      exact ih (hr.keeps.widget.trans hw) (hr.intact h)

def editChecked (s : Session) (p : Patch) : Option (Session × Option DocumentError) := do
  match ← s.document.editChecked? p with
  | .error error => some (s, some error)
  | .ok d =>
    let s ← (s.withDocument d).reportChecked p
    some (s, none)

theorem editChecked_eq (h : s.Intact) (p : Patch) : s.editChecked p = some (s.edit p) := by
  unfold editChecked edit
  simp only [Document.editChecked?_eq h.ordered.markers, Option.bind_eq_bind, Option.bind_some]
  cases hd : s.document.edit? p with
  | error error => rfl
  | ok d =>
    have ht := Document.takes_of_edit? hd
    simp only [reportChecked_eq (h.tidy.withDocument ht.id_eq), Option.bind_some]

def selectChecked (s : Session) (anchor head : Nat) : Option (Session × Option DocumentError) :=
  match s.document.select? anchor head with
  | .error error => some (s, some error)
  | .ok d => ((s.withDocument d).afterChecked .selectionModified).map (·, none)

theorem selectChecked_eq (s : Session) (anchor head : Nat) :
    s.selectChecked anchor head = some (s.select anchor head) := by
  unfold selectChecked select
  cases s.document.select? anchor head <;> rfl

def undoChecked (s : Session) : Option (Session × Bool) := do
  let s ← s.afterChecked (.textCommand .undo)
  match s.document.undo? with
  | none => (s.afterChecked (.postTextCommand .undo)).map (·, false)
  | some d => ((s.withDocument d).afterChecked (.postTextCommand .undo)).map (·, true)

theorem undoChecked_eq (s : Session) : s.undoChecked = some s.undo := by
  have hu : ∀ s : Session, s.afterChecked (.postTextCommand .undo) = some (s.after (.postTextCommand .undo)) :=
    fun s => afterChecked_eq (e := .postTextCommand .undo) trivial
  unfold undoChecked undo
  rw [afterChecked_eq (e := .textCommand .undo) trivial, Option.bind_eq_bind, Option.bind_some]
  generalize s.after (.textCommand .undo) = s
  dsimp only
  cases s.document.undo? with
  | none => exact congrArg (Option.map _) (hu s)
  | some d => exact congrArg (Option.map _) (hu (s.withDocument d))

def flushChecked (s : Session) : Option Session := do
  let s ← s.document.unreported.foldlM (fun s p => s.afterChecked (.modified p)) (s.withDocument s.document.reported)
  s.afterChecked .selectionModified

theorem foldlM_afterChecked_eq (h : s.Tidy) (ps : List Patch) :
    ps.foldlM (fun s p => s.afterChecked (.modified p)) s = some (ps.foldl (fun s p => s.after (.modified p)) s) := by
  induction ps generalizing s with
  | nil => rfl
  | cons p ps ih =>
    rw [List.foldlM_cons, afterChecked_eq (e := .modified p) h, Option.bind_eq_bind, Option.bind_some]
    exact ih (h.onModified p)

theorem flushChecked_eq (h : s.Tidy) : s.flushChecked = some s.flush := by
  unfold flushChecked
  rw [foldlM_afterChecked_eq (h.withDocument (d := s.document.reported) rfl)]
  rfl

def commandChecked (s : Session) (c : Command) : Option Session := do
  let s ← s.afterChecked (.command c)
  s.flushChecked

theorem tidy_run (h : s.Sound) (c : Command) : (s.run c).Tidy := by
  cases c with
  | expand =>
    rcases expand_cases s with ht | ⟨p, d, -, he⟩
    · exact (ht.preserves Moves.sound h).tidy
    · exact .of_none ((congrArg tracker? he).trans (tracker?_stop _))
  | extract => exact ((tends_extract s).preserves Moves.sound h).tidy
  | enter => exact ((tends_enter s).preserves Moves.sound h).tidy
  | clear => exact .of_none (tracker?_stop s)

theorem commandChecked_eq (h : s.Intact) (c : Command) : s.commandChecked c = some (s.command c) := by
  unfold commandChecked
  rw [afterChecked_eq (e := .command c) h.ordered]
  exact flushChecked_eq (tidy_run h.toSound c)

/-! ## Completions -/

def completeChecked (s : Session) (pos : Nat) : Option (Session × Option Completion) := do
  let s ← s.afterChecked (.textCommand .autoComplete)
  match ← s.dispatchChecked (.queryCompletions pos) with
  | (s, .completions entry) => (s.afterChecked (.postTextCommand .autoComplete)).map (·, entry)
  | (s, _) => (s.afterChecked (.postTextCommand .autoComplete)).map (·, none)

theorem completeChecked_eq (h : s.Sound) (pos : Nat) : s.completeChecked pos = some (s.complete pos) := by
  have hs : (s.after (.textCommand .autoComplete)).Sound :=
    (tends_onTextCommand s .autoComplete).preserves Moves.sound h
  have hq := dispatchChecked_eq (e := .queryCompletions pos) hs
  unfold completeChecked complete
  simp only [afterChecked_eq (e := .textCommand .autoComplete) trivial, hq, Option.bind_eq_bind, Option.bind_some]
  rfl

def commitChecked (s : Session) (region : Span) (snippet : Text) : Option (Session × Option DocumentError) := do
  let s ← s.afterChecked (.textCommand .commitCompletion)
  match ← s.document.insertSnippetChecked? region snippet with
  | .error error => some (s, some error)
  | .ok d => (s.withDocument d).flushChecked.map (·, none)

theorem commitChecked_eq (h : s.Intact) (region : Span) (snippet : Text) :
    s.commitChecked region snippet = some (s.commit region snippet) := by
  have hm : s.stop.document.markers.Ordered := (h.ordered.clearMarker abbreviationMarker).markers
  have hs : s.afterChecked (.textCommand .commitCompletion) = some s.stop := rfl
  have hs' : s.after (.textCommand .commitCompletion) = s.stop := rfl
  unfold commitChecked commit
  simp only [hs, hs', Option.bind_eq_bind, Option.bind_some, Document.insertSnippetChecked?_eq hm]
  cases hd : s.stop.document.insertSnippet? region snippet with
  | error error => rfl
  | ok d =>
    have hid : d.id = s.stop.document.id := by
      obtain ⟨p, d₁, ht, rfl⟩ := Document.takes_of_insertSnippet? hd
      exact ht.id_eq
    have hn : s.stop.Tidy := .of_none (tracker?_stop s)
    exact congrArg (Option.map _) (flushChecked_eq (hn.withDocument hid))

def takeCompletionChecked (s : Session) (commit : Bool) :
    Option (Session × Except StepError (Option String)) := do
  match ← s.completeChecked s.document.caret with
  | (s, none) => some (s, .ok (some "no completion"))
  | (s, some entry) =>
    let line := Text.quoted entry.trigger ++ " -> " ++ Text.quoted entry.snippet
    if !commit then some (s, .ok (some line))
    else
      match s.tracker? with
      | none => some (s, .error .noTracker)
      | some t =>
        match ← s.commitChecked t.region entry.snippet with
        | (s, some error) => some (s, .error (.refused error))
        | (s, none) => some (s, .ok (some line))

theorem takeCompletionChecked_eq (h : s.Intact) (commit : Bool) :
    s.takeCompletionChecked commit = some (s.takeCompletion commit) := by
  have hi := (tends_complete s s.document.caret).intact h
  unfold takeCompletionChecked takeCompletion
  simp only [completeChecked_eq h.toSound, Option.bind_eq_bind, Option.bind_some]
  cases hc : s.complete s.document.caret with
  | mk s₁ entry =>
    rw [hc] at hi
    cases entry with
    | none => rfl
    | some entry =>
      cases commit with
      | false => rfl
      | true =>
        dsimp only
        cases s₁.tracker? with
        | none => rfl
        | some t =>
          simp only [commitChecked_eq hi, Option.bind_some]
          rcases s₁.commit t.region entry.snippet with ⟨s₂, _ | error⟩ <;> rfl

/-! ## Actions -/

def actChecked (s : Session) : Action → Option Session
  | .type t => (s.typeChecked t).map (·.1)
  | .backspace count => (s.backspaceChecked count).map (·.1)
  | .edit p => (s.editChecked p).map (·.1)
  | .select anchor head => (s.selectChecked anchor head).map (·.1)
  | .undo => s.undoChecked.map (·.1)
  | .command c => s.commandChecked c
  | .complete commit => (s.takeCompletionChecked commit).map (·.1)
  | .notify e _ => s.afterChecked e
  | .protect readonly => some (s.withDocument { s.document with readonly })

theorem bears_notice (h : s.Sound) {e : Event} (notice : e.isNotice = true) : s.Bears e := by
  cases e with
  | modified p => cases notice
  | command c => cases notice
  | queryCompletions pos => exact h
  | activated | closed | selectionModified | textCommand _ | postTextCommand _ | queryContext _ => trivial

/-- **No action fails** between two others. -/
theorem actChecked_eq (hw : s.document.widget = false) (h : s.Intact) (a : Action) :
    s.actChecked a = some (s.act a) := by
  cases a with
  | type t => exact congrArg (Option.map _) (typeChecked_eq hw h t)
  | backspace count => exact congrArg (Option.map _) (backspaceChecked_eq hw h count)
  | edit p => exact congrArg (Option.map _) (editChecked_eq h p)
  | select anchor head => exact congrArg (Option.map _) (selectChecked_eq s anchor head)
  | undo => exact congrArg (Option.map _) (undoChecked_eq s)
  | command c => exact commandChecked_eq h c
  | complete commit => exact congrArg (Option.map _) (takeCompletionChecked_eq h commit)
  | notify e notice => exact afterChecked_eq (bears_notice h.toSound notice)
  | protect readonly => rfl

end Session

/-! ## Runs -/

namespace Host

variable {h : Host}

def stepChecked (h : Host) : Step → Option Host
  | .on i a =>
    match h.session? i with
    | none => some h
    | some s => (s.actChecked a).map (h.put i)
  | .choose settings => some { h with service.settings := settings }

def runChecked (h : Host) (steps : List Step) : Option Host := steps.foldlM stepChecked h

theorem stepChecked_eq (hh : h.Holds Session.Intact) (st : Step) : h.stepChecked st = some (h.step st) := by
  cases st with
  | choose settings => rfl
  | on i a =>
    unfold stepChecked step Host.on
    dsimp only
    cases hs : h.session? i with
    | none => rfl
    | some s =>
      obtain ⟨hi, hw, -⟩ := hh.of_session? hs
      exact congrArg (Option.map _) (Session.actChecked_eq hw hi a)

theorem Holds.step_intact (hh : h.Holds Session.Intact) (st : Step) : (h.step st).Holds Session.Intact := by
  cases st with
  | on i a => exact hh.step_on Session.kept_intact i a
  | choose settings => exact hh.choose (fun _ hs => ⟨⟨hs.marked, hs.reads, hs.history⟩, hs.ordered⟩) settings

theorem runChecked_eq (hh : h.Holds Session.Intact) (steps : List Step) :
    h.runChecked steps = some (h.run steps) := by
  induction steps generalizing h with
  | nil => rfl
  | cons st steps ih =>
    unfold runChecked
    rw [List.foldlM_cons, stepChecked_eq hh, Option.bind_eq_bind, Option.bind_some]
    exact ih (hh.step_intact st)

end Host

namespace Opening

theorem intact (o : Opening) (ordered : ∀ d ∈ o.documents, d.Ordered) : o.host.Holds Session.Intact :=
  Host.Holds.activateAll Session.kept_intact
    ⟨o.distinct, fun d hd => (o.unmarked d hd).widget, fun d hd => (o.unmarked d hd).unreported, fun d hd =>
      ⟨Session.invariant_sound.opened (o.unmarked d hd) rfl, ordered d hd⟩⟩

/-- **No handler fails**, whatever an editor does and asks for: with every bound checked, a run comes to the same.  The
documents may come with markers of others, the ends of which have to be in order. -/
theorem runChecked_eq_run (o : Opening) (ordered : ∀ d ∈ o.documents, d.Ordered) (steps : List Host.Step) :
    o.host.runChecked steps = some (o.host.run steps) :=
  Host.runChecked_eq (o.intact ordered) steps

/-- An abbreviation is typed and partly undone beside somebody else's marker; completions are asked for behind the text
and inside it, with an edit in two places in between, which the marker follows. -/
theorem runChecked_eq_run_beside_a_marker :
    let d : Document := { id := 1, text := "ul ".toList, selection := .point 3, markers := ⟨[("note", ⟨0, 2⟩)]⟩ }
    let p : Patch := ⟨7, [⟨0, 1, []⟩, ⟨6, 6, "bc".toList⟩], by decide, by decide⟩
    let steps : List Host.Step := [.on 0 (.type "p>(a".toList), .on 0 .undo,
      .on 0 (.notify (.textCommand .autoComplete) rfl), .on 0 (.notify (.queryCompletions 99) rfl), .on 0 (.edit p),
      .on 0 (.notify (.textCommand .autoComplete) rfl), .on 0 (.notify (.queryCompletions 1) rfl),
      .on 0 (.command .expand), .on 0 (.backspace 2)]
    ∃ o : Opening, o.documents = [d] ∧ d.Ordered ∧ o.host.runChecked steps = some (o.host.run steps) ∧
      (o.host.run steps).documents.map (·.marker? "note") = [some ⟨0, 1⟩] := by
  intro d p steps
  let o : Opening := ⟨⟨"html", true⟩, {}, [d], by decide, by
    intro e he
    cases List.mem_singleton.1 he
    exact ⟨rfl, rfl, rfl, nofun⟩⟩
  have ho : ∀ e ∈ o.documents, e.Ordered := by decide
  have hn : (o.host.run steps).documents.map (·.marker? "note") = [some ⟨0, 1⟩] := by decide +kernel
  exact ⟨o, rfl, ho d List.mem_cons_self, runChecked_eq_run o ho steps, hn⟩

end Opening
end Shorthand
