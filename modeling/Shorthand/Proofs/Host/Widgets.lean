import Shorthand.Proofs.Document.Operations
import Shorthand.Proofs.Host.Forced
import Shorthand.Proofs.Host.Run
import Shorthand.Proofs.Session.Rewind
/-!
# Input fields of the editor

Nothing is to be tracked in an input field of the editor itself.  Four handlers see to that: an input field that is
activated, closed, modified or selected in is left alone.  The others treat it as any document, so that some events get
past (`Session.passes`): entering an abbreviation always, extracting and completing one where there is something to
extract, and where somebody has put the abbreviation marker on the field also what takes it off or tracks it again.  An
input field is left alone throughout a run of events just if none of those told of it gets past
(`Host.widget_spared_iff`).
-/
namespace Shorthand

namespace Session

variable {s s' : Session}

/-! ## Attending to one document -/

/-- **`s'` attends to the document that `s` attends to**, and has the trackers of the others. -/
structure Attends (s s' : Session) : Prop where
  id : s'.document.id = s.document.id
  widget : s'.document.widget = s.document.widget
  others : ∀ other, other ≠ s.document.id → s'.service.trackers.get? other = s.service.trackers.get? other

theorem Keeps.attends (h : s.Keeps s') : s.Attends s' := ⟨h.id, h.widget, h.others⟩

theorem keeps_onModified (s : Session) (p : Patch) : s.Keeps (s.onModified p) := by
  unfold onModified
  split
  · exact .refl s
  · exact (Keeps.followEdit s p).trans (tends_settled _).keeps

theorem attends_expand (s : Session) : s.Attends s.expand := by
  rcases expand_cases s with h | ⟨p, d, ht, he⟩
  · exact h.keeps.attends
  · have hx := (Quiet.expansion s).toKeeps
    rw [he]
    refine ⟨ht.id_eq, ht.widget_eq, fun other ho => ?_⟩
    -- the document taken for this one has its number still
    have ho' : other ≠ d.id := ht.id_eq ▸ ho
    have hstop := Keeps.stop (s.expansion.1.withDocument { d with unreported := d.unreported ++ [p] })
    exact (hstop.others other ho').trans (hx.others other ho)

/-- **Whatever the service is told, it attends to the document that it is told of.** -/
theorem attends_after (s : Session) (e : Event) : s.Attends (s.after e) := by
  by_cases hn : e.isNotice = true
  · exact (tends_notice s hn).keeps.attends
  · cases e with
    | modified p => exact (keeps_onModified s p).attends
    | command c =>
      cases c with
      | expand => exact attends_expand s
      | extract => exact (tends_extract s).keeps.attends
      | enter => exact (tends_enter s).keeps.attends
      | clear => exact (Keeps.stop s).attends
    | _ => exact absurd rfl hn

/-! ## Leaving a document alone -/

/-- **`s'` tracks nothing in the document of `s`**, and has left its text, its selection and its markers alone. -/
structure Spares (s s' : Session) : Prop where
  tracker : s'.tracker? = none
  text : s'.document.text = s.document.text
  selection : s'.document.selection = s.document.selection
  markers : ∀ name, s'.document.marker? name = s.document.marker? name

namespace Spares

theorem same (ht : s.tracker? = none) (h : s'.document = s.document) (h' : s'.tracker? = s.tracker?) : s.Spares s' where
  tracker := h'.trans ht
  text := by rw [h]
  selection := by rw [h]
  markers name := by rw [h]

theorem refl (ht : s.tracker? = none) : s.Spares s := same ht rfl rfl

theorem quiet (ht : s.tracker? = none) (hq : s.Quiet s') (hl : s'.document.selection = s.document.selection) :
    s.Spares s' where
  tracker := hq.untracked ht
  text := hq.text
  selection := hl
  markers name := congrArg (·.get? name) hq.markers

end Spares

theorem not_spares_of_some {t : Tracker} (h : s'.tracker? = some t) : ¬s.Spares s' := by
  intro hs
  rw [hs.tracker] at h
  cases h

/-- To stop where nothing is tracked takes off a marker that has been left. -/
theorem spares_stop_iff (s : Session) : s.Spares s.stop ↔ s.marker?.isSome = false := by
  rw [Option.isSome_eq_false_iff, Option.isNone_iff_eq_none]
  constructor
  · intro h
    have hm : s.stop.marker? = s.marker? := h.markers abbreviationMarker
    rw [← hm, marker?_stop]
  · intro hm
    refine ⟨tracker?_stop s, rfl, rfl, fun name => ?_⟩
    by_cases hn : name = abbreviationMarker
    · subst hn
      exact (marker?_stop s).trans hm.symm
    · change (s.document.markers.erase abbreviationMarker).get? name = _
      rw [Keyed.get?_erase, if_neg hn]
      rfl

/-- An undo tracks again where a marker has been left. -/
theorem spares_onUndone_iff (ht : s.tracker? = none) : s.Spares s.onUndone ↔ s.marker?.isSome = false := by
  cases hm : s.marker? with
  | none =>
    rw [onUndone_of_none ht hm]
    exact iff_of_true (.same ht rfl rfl) rfl
  | some m =>
    obtain ⟨t, ht', -, -⟩ := tracker?_onUndone_of_marker hm
    exact iff_of_false (not_spares_of_some ht') (by simp)

/-- There is something to extract left of `pos`, and it may be tracked. -/
def findsAt (s : Session) (pos : Nat) : Bool := s.service.allowsTracking && (s.found? pos).isSome

/-- **What is found is tracked**, and where nothing is found nothing has changed. -/
theorem spares_suggest_iff (ht : s.tracker? = none) (pos : Nat) :
    ((s.suggest pos).1.tracker? = none ↔ s.findsAt pos = false) ∧
      (s.findsAt pos = false → (s.suggest pos).1 = s) := by
  unfold findsAt
  cases ha : s.service.allowsTracking with
  | false =>
    have hs : (s.suggest pos).1 = s := by simp [suggest, ha]
    rw [hs]
    exact ⟨iff_of_true ht rfl, fun _ => rfl⟩
  | true =>
    rw [suggest_of_untracked ha ht, startExtracted_eq]
    cases hx : s.found? pos with
    | none => exact ⟨iff_of_true ht rfl, fun _ => rfl⟩
    | some x => exact ⟨iff_of_false (by rw [tracker?_hold]; nofun) (by simp), nofun⟩

theorem spares_extract_iff (ht : s.tracker? = none) : s.Spares s.extract ↔ s.findsAt s.document.caret = false := by
  have hl : s.extract.document.selection = s.document.selection := (Marks.extract s).selection
  have hq := quiet_extract s
  obtain ⟨hiff, hs⟩ := spares_suggest_iff ht s.document.caret
  rw [← hiff]
  constructor
  · intro h
    exact hq.untracked_iff.1 h.tracker
  · intro h
    rw [hs (hiff.1 h)] at hq
    exact .quiet ht hq hl

theorem spares_onQueryCompletions_iff (ht : s.tracker? = none) (pos : Nat) :
    s.Spares (s.onQueryCompletions pos).1 ↔ (s.service.completionAsked && s.findsAt pos) = false := by
  cases ha : s.service.completionAsked with
  | false =>
    rw [onQueryCompletions_of_unasked ha]
    exact iff_of_true (.refl ht) rfl
  | true =>
    have hl : (s.onQueryCompletions pos).1.document.selection = s.document.selection :=
      (Marks.onQueryCompletions s pos).selection
    have hq := quiet_onQueryCompletions ha pos
    obtain ⟨hiff, hs⟩ := spares_suggest_iff ht pos
    rw [Bool.true_and, ← hiff]
    constructor
    · intro h
      exact hq.untracked_iff.1 h.tracker
    · intro h
      rw [hs (hiff.1 h)] at hq
      exact .quiet ht hq hl

/-! ## What gets past -/

/-- **The event is not kept from an input field**: with nothing tracked there it starts a tracker, or takes off the
marker of one that is gone. -/
def passes (s : Session) : Event → Bool
  | .command .enter => true
  | .command .extract => s.findsAt s.document.caret
  | .queryCompletions pos => s.service.completionAsked && s.findsAt pos
  | .postTextCommand .undo | .textCommand .commitCompletion | .command .clear => s.marker?.isSome
  | _ => false

/-- **An event leaves an input field alone just if it does not get past.** -/
theorem spares_after_iff (hw : s.document.widget = true) (ht : s.tracker? = none) (e : Event) :
    s.Spares (s.after e) ↔ s.passes e = false := by
  have same {s' : Session} (h : s' = s) : s.Spares s' ↔ false = false := by
    rw [h]
    exact iff_of_true (.refl ht) rfl
  cases e with
  | activated => exact same (if_pos hw)
  | closed => exact same (if_pos hw)
  | selectionModified => exact same (if_pos (by rw [hw]; rfl))
  | modified p => exact same (if_pos hw)
  | textCommand c =>
    cases c with
    | commitCompletion => exact spares_stop_iff s
    | autoComplete =>
      have hq : s.Quiet (s.onTextCommand .autoComplete) := quiet_onTextCommand s nofun
      exact iff_of_true (.quiet ht hq (Marks.onTextCommand s _).selection) rfl
    | _ => exact same rfl
  | postTextCommand c =>
    cases c with
    | undo => exact spares_onUndone_iff ht
    | autoComplete => exact iff_of_true (.same ht rfl rfl) rfl
    | _ => exact same rfl
  | queryContext key => exact same rfl
  | queryCompletions pos => exact spares_onQueryCompletions_iff ht pos
  | command c =>
    cases c with
    | expand =>
      refine same ?_
      change s.expand = s
      unfold expand
      rw [ht]
    | extract => exact spares_extract_iff ht
    | enter =>
      refine iff_of_false (fun hs => ?_) nofun
      rcases enter_eq_stop_or_quiet s with ⟨hf, -⟩ | ⟨options, hq⟩
      · rw [ht] at hf
        cases hf
      · have hn := hq.untracked_iff.1 hs.tracker
        rw [start_eq_hold, tracker?_hold] at hn
        cases hn
    | clear => exact spares_stop_iff s

end Session

/-! ## Runs of events -/

namespace Host

variable {h : Host} {i : Nat} {s : Session}

/-- What goes on in a host: an event that the service is told of, something done to a document, or other settings. -/
inductive Happening where
  | event (i : Nat) (e : Event)
  | operation (i : Nat) (op : Operation)
  | choose (settings : Settings)
  deriving DecidableEq, Repr

def Happening.isEvent : Happening → Bool
  | .event _ _ => true
  | _ => false

def happen (h : Host) : Happening → Host
  | .event i e => h.on i fun s => s.after e
  | .operation i op => h.on i fun s => s.withDocument (s.document.perform op)
  | .choose settings => { h with service.settings := settings }

/-- **The host after all that goes on.** -/
def happenings (h : Host) (xs : List Happening) : Host := xs.foldl happen h

/-- The document at `i` is told of an event that is not kept from input fields. -/
def passes (h : Host) (i : Nat) : Happening → Bool
  | .event j e => j = i && (h.session? i).any (·.passes e)
  | _ => false

/-- Nothing that the document at `i` is told of gets past. -/
def guarded (h : Host) (i : Nat) (xs : List Happening) : Bool := along happen (fun h x => !h.passes i x) h xs

/-- **Nothing is tracked in the document at `i` after `x`**, and if `x` is an event, told of whatever document, it has
left the text, the selection and the markers there alone. -/
def Spared (h : Host) (i : Nat) (x : Happening) : Prop :=
  ∃ s s', h.session? i = some s ∧ (h.happen x).session? i = some s' ∧ s'.tracker? = none ∧
    (x.isEvent = true → s.Spares s')

theorem distinct_on (hn : (h.documents.map (·.id)).Nodup) (j : Nat) {f : Session → Session}
    (hf : ∀ s : Session, s.Attends (f s)) : ((h.on j f).documents.map (·.id)).Nodup := by
  cases hj : h.session? j with
  | none =>
    rw [on_of_none hj]
    exact hn
  | some o =>
    rw [on_of_some hj, map_id_put hj (hf o).id]
    exact hn

theorem attends_operation (s : Session) (op : Operation) : s.Attends (s.withDocument (s.document.perform op)) := by
  obtain ⟨hid, hw⟩ := s.document.perform_keeps op
  exact ⟨hid, hw, fun _ _ => rfl⟩

theorem distinct_happen (hn : (h.documents.map (·.id)).Nodup) (x : Happening) :
    ((h.happen x).documents.map (·.id)).Nodup := by
  cases x with
  | event j e => exact distinct_on hn j fun s => s.attends_after e
  | operation j op => exact distinct_on hn j fun s => attends_operation s op
  | choose settings => exact hn

/-- What is done in another document changes nothing in this one. -/
theorem session?_on_apart (hn : (h.documents.map (·.id)).Nodup) (hs : h.session? i = some s) {j : Nat} (hij : j ≠ i)
    {f : Session → Session} (hf : ∀ s : Session, s.Attends (f s)) :
    ∃ s', (h.on j f).session? i = some s' ∧ s'.document = s.document ∧ s'.tracker? = s.tracker? := by
  cases hj : h.session? j with
  | none =>
    rw [on_of_none hj]
    exact ⟨s, hs, rfl, rfl⟩
  | some o =>
    refine ⟨_, session?_on_other hij hs hj f, rfl, ?_⟩
    have ho := (hf o).others s.document.id (id_ne_of_ne hn hij hs hj)
    change (f o).service.trackers.get? _ = s.service.trackers.get? _
    rw [ho, (session?_eq_some.1 hs).2, (session?_eq_some.1 hj).2]

/-- **The document at `i` is an input field that nothing is tracked in**, and the only one with its number. -/
structure Untracked (h : Host) (i : Nat) (s : Session) : Prop where
  distinct : (h.documents.map (·.id)).Nodup
  session : h.session? i = some s
  widget : s.document.widget = true
  tracker : s.tracker? = none

/-- **One step in an input field**, or beside it. -/
theorem Untracked.happen (hu : h.Untracked i s) (x : Happening) :
    ∃ s', (h.happen x).session? i = some s' ∧ s'.document.widget = true ∧
      (s'.tracker? = none ∧ (x.isEvent = true → s.Spares s') ↔ h.passes i x = false) := by
  have apart {j : Nat} (hij : j ≠ i) {f : Session → Session} (hf : ∀ s : Session, s.Attends (f s)) :
      ∃ s', (h.on j f).session? i = some s' ∧ s'.document.widget = true ∧ s'.tracker? = none ∧ s.Spares s' := by
    obtain ⟨s', hs', hd, ht'⟩ := session?_on_apart hu.distinct hu.session hij hf
    exact ⟨s', hs', hd ▸ hu.widget, ht'.trans hu.tracker, .same hu.tracker hd ht'⟩
  cases x with
  | event j e =>
    by_cases hij : j = i
    · subst hij
      have hp : h.passes j (.event j e) = s.passes e := by simp [passes, hu.session]
      refine ⟨s.after e, session?_on_self hu.session (·.after e), (s.attends_after e).widget.trans hu.widget, ?_⟩
      rw [hp, ← Session.spares_after_iff hu.widget hu.tracker]
      exact ⟨fun hx => hx.2 rfl, fun hx => ⟨hx.tracker, fun _ => hx⟩⟩
    · obtain ⟨s', hs', hw', ht', hx⟩ := apart hij fun s => s.attends_after e
      exact ⟨s', hs', hw', iff_of_true ⟨ht', fun _ => hx⟩ (by simp [passes, hij])⟩
  | operation j op =>
    by_cases hij : j = i
    · subst hij
      obtain ⟨hid, hw', -⟩ := attends_operation s op
      exact ⟨_, session?_on_self hu.session fun s => s.withDocument (s.document.perform op), hw'.trans hu.widget,
        iff_of_true ⟨(Session.tracker?_withDocument hid).trans hu.tracker, nofun⟩ rfl⟩
    · obtain ⟨s', hs', hw', ht', -⟩ := apart hij fun s => attends_operation s op
      exact ⟨s', hs', hw', iff_of_true ⟨ht', nofun⟩ rfl⟩
  | choose settings =>
    obtain ⟨hd, hv⟩ := session?_eq_some.1 hu.session
    refine ⟨{ s with service.settings := settings }, session?_eq_some.2 ⟨hd, ?_⟩, hu.widget,
      iff_of_true ⟨hu.tracker, nofun⟩ rfl⟩
    rw [hv]
    rfl

theorem Untracked.spared_iff (hu : h.Untracked i s) (x : Happening) : h.Spared i x ↔ (!h.passes i x) = true := by
  obtain ⟨s', hs', -, hiff⟩ := hu.happen x
  rw [Bool.not_eq_true', ← hiff]
  constructor
  · rintro ⟨s₁, s₂, hs₁, hs₂, hx⟩
    cases hs₁.symm.trans hu.session
    cases hs₂.symm.trans hs'
    exact hx
  · intro hx
    exact ⟨s, s', hu.session, hs', hx⟩

theorem Untracked.next (hu : h.Untracked i s) {x : Happening} (hp : (!h.passes i x) = true) :
    ∃ s', (h.happen x).Untracked i s' := by
  obtain ⟨s', hs', hw, hiff⟩ := hu.happen x
  rw [Bool.not_eq_true', ← hiff] at hp
  exact ⟨s', distinct_happen hu.distinct x, hs', hw, hp.1⟩

/-- **An input field is left alone throughout just if none of the events told of it gets past**: it has no tracker after
any step, and no event changes its text, its selection or its markers, whatever goes on beside it. -/
theorem widget_spared_iff (hn : (h.documents.map (·.id)).Nodup) (hs : h.session? i = some s)
    (hw : s.document.widget = true) (ht : s.tracker? = none) (xs : List Happening) :
    (∀ pre x post, xs = pre ++ x :: post → (h.happenings pre).Spared i x) ↔ h.guarded i xs = true := by
  let I (h : Host) : Prop := ∃ s, h.Untracked i s
  have hu : I h := ⟨s, hn, hs, hw, ht⟩
  refine along_iff (Q := fun h x => h.Spared i x) ?_ ?_ xs hu
  · rintro h x ⟨s, hu⟩
    exact hu.spared_iff x
  · rintro h x ⟨s, hu⟩ hp
    exact hu.next hp

/-- Beside a document in which an abbreviation is extracted, an input field is typed in; a completion list is opened
where there is nothing to extract, and nothing is there to be cleared or undone either. -/
theorem widget_spared_iff_beside_a_tracker :
    let h : Host := ⟨{ dialect := ⟨"html", true⟩ },
      [{ id := 1, text := "ul".toList, selection := .point 2, widget := true },
        { id := 2, text := "p>a".toList, selection := .point 3 }]⟩
    let typed : Patch := ⟨2, [⟨2, 2, ['.']⟩], by decide, by decide⟩
    let xs : List Happening := [.event 0 .activated, .event 1 (.command .extract), .operation 0 (.type '.'),
      .event 0 (.modified typed), .event 0 .selectionModified, .event 0 (.command .expand),
      .event 0 (.textCommand .autoComplete), .event 0 (.queryCompletions 0), .operation 0 .undo,
      .event 0 (.postTextCommand .undo), .event 0 (.command .clear), .event 0 .closed]
    ∃ s s', (h.documents.map (·.id)).Nodup ∧ h.session? 0 = some s ∧ s.document.widget = true ∧ s.tracker? = none ∧
      h.guarded 0 xs = true ∧ (∀ pre x post, xs = pre ++ x :: post → (h.happenings pre).Spared 0 x) ∧
      (h.happenings xs).session? 1 = some s' ∧ s'.tracker?.map (·.region) = some ⟨0, 3⟩ := by
  intro h typed xs
  have hn : (h.documents.map (·.id)).Nodup := by decide
  have hg : h.guarded 0 xs = true := by decide +kernel
  have hc : ((h.happenings xs).session? 1).any (fun s' => s'.tracker?.map (·.region) = some ⟨0, 3⟩) = true := by
    decide +kernel
  obtain ⟨s', hs', hr⟩ := (Option.any_eq_true _ _).1 hc
  have hall := (widget_spared_iff (i := 0) hn rfl rfl rfl xs).2 hg
  exact ⟨_, s', hn, rfl, rfl, rfl, hg, hall, hs', of_decide_eq_true hr⟩

/-- **An abbreviation can be entered in an input field**, and is tracked there. -/
theorem widget_is_entered :
    ¬ ∀ (h : Host) (i : Nat) (s : Session) (xs : List Happening), (h.documents.map (·.id)).Nodup →
      h.session? i = some s → s.document.widget = true → s.tracker? = none →
      ∀ pre x post, xs = pre ++ x :: post → (h.happenings pre).Spared i x := by
  intro hall
  let d : Document := { id := 1, text := "ul".toList, selection := .point 2, widget := true }
  let h : Host := ⟨{ dialect := ⟨"html", true⟩ }, [d]⟩
  let x : Happening := .event 0 (.command .enter)
  have hc : ((h.happen x).session? 0).any (·.tracker?.isSome) = true := by decide +kernel
  obtain ⟨s', hs', ht⟩ := (Option.any_eq_true _ _).1 hc
  obtain ⟨-, s₂, -, hs₂, hn, -⟩ := hall h 0 _ [x] (by decide) rfl rfl rfl [] x [] rfl
  cases hs₂.symm.trans hs'
  rw [hn] at ht
  cases ht

end Host
end Shorthand
