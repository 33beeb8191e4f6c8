import Shorthand.Proofs.Session.Extraction
import Shorthand.Proofs.Session.Mode
/-!
# Forced tracking ends only on request

A forced tracker outlasts whatever a user does to its document, undoing past the moment it was started included, and
whatever the text becomes.  What ends it is being told to: by a command other than extracting, a completion that is
taken, the closing of the document, or a request to track something outside its region (`Session.respects`).

One thing more ends it, which is no request.  A document takes an empty patch for no edit, whatever text the patch is
for; told of it, the service finds that the text is not the one that the patch has led to, and ends the tracker
(`Session.mismatches`).  Forced tracking outlasts a run just if no step in the document does that
(`Opening.forced_until_requested_iff`).
-/
namespace Shorthand

namespace Session

variable {s : Session}

/-- **The action is no request to end tracking.** -/
def respects (s : Session) : Action → Bool
  | .type _ | .backspace _ | .edit _ | .select _ _ | .undo | .protect _ => true
  | .command c => c = .extract && s.tracksAt s.document.caret
  | .complete commit => !commit && s.tracksAt s.document.caret
  | .notify .closed _ | .notify (.textCommand .commitCompletion) _ => false
  | .notify (.queryCompletions pos) _ => s.tracksAt pos
  | .notify _ _ => true

/-- **The action reports an empty patch for a text of another length.**  A document that takes edits does not look at
the length of a patch that changes nothing. -/
def mismatches (s : Session) : Action → Bool
  | .edit p => !s.document.readonly && p.isEmpty && p.length ≠ s.document.length
  | _ => false

/-! ## Edits and undos -/

theorem isForced_type : ∀ (w : Text) (s : Session), (s.type w).1.isForced = s.isForced
  | [], _ => rfl
  | c :: w, s => by
    unfold type
    split
    · rfl
    · next d p hd =>
      obtain ⟨ht, hl⟩ := Document.takes_of_type? hd
      rw [isForced_type w, isForced_takes ht hl]

theorem isForced_backspace : ∀ (count : Nat) (s : Session), (s.backspace count).1.isForced = s.isForced
  | 0, _ => rfl
  | count + 1, s => by
    unfold backspace
    split
    · rfl
    · next d p hd =>
      obtain ⟨ht, hl⟩ := Document.takes_of_backspace? hd
      rw [isForced_backspace count, isForced_takes ht hl]

/-- **An edit of the text at hand neither ends a forced tracker nor starts one**, and neither does one that the document
refuses. -/
theorem isForced_edit {p : Patch} (hm : s.mismatches (.edit p) = false) : (s.edit p).1.isForced = s.isForced := by
  unfold edit
  split
  · rfl
  · next d hd =>
    have ht := Document.takes_of_edit? hd
    refine isForced_takes ht ?_
    by_cases he : p.isEmpty = true
    · by_cases hw : s.document.readonly = true
      · rw [Document.edit?_of_isEmpty he, if_pos hw] at hd
        cases hd
      · simpa [mismatches, he, hw] using hm
    · exact ht.length_eq (by simpa using he)

/-- **An empty patch for a text of another length ends forced tracking**, once it has been reported. -/
theorem isForced_edit_of_mismatches (hw : s.document.widget = false) {p : Patch}
    (hm : s.mismatches (.edit p) = true) : (s.edit p).1.isForced = false := by
  simp only [mismatches, Bool.and_eq_true, Bool.not_eq_true', decide_eq_true_eq] at hm
  obtain ⟨⟨hr, he⟩, hl⟩ := hm
  have hd : s.document.edit? p = .ok s.document := by
    rw [Document.edit?_of_isEmpty he, hr]
    rfl
  have ha : p.lengthAfter ≠ s.document.length := by rwa [Patch.lengthAfter_of_isEmpty he]
  have hs : (s.edit p).1 = s.report p := by
    unfold edit
    rw [hd]
    rfl
  rw [hs, isForced_report_of_mismatch hw ha]

/-- **No undo ends a forced tracker or starts one**, whether it brings a marker back or not. -/
theorem isForced_onUndone (s : Session) : s.onUndone.isForced = s.isForced := by
  rcases onUndone_cases s with ⟨-, -, hu⟩ | ⟨m, ht, -, hu⟩ | ⟨t, m, ht, -, hu⟩ | ⟨t, ht, -, -, hu⟩ |
    ⟨t, ht, -, hf, hu⟩ <;> rw [hu, isForced_quiet (.noteCaret _)]
  · rw [isForced_of_none ht, isForced_quiet (.showPreview _), start_eq_hold, isForced_of_some (tracker?_hold s _)]
    rfl
  · rw [isForced_of_some ht, isForced_of_some (tracker?_withTracker s _)]
    rfl
  · rw [isForced_of_some ht, isForced_of_some (tracker?_hold s _)]
    rfl
  · rw [isForced_of_some ht, hf, isForced_of_none (tracker?_stop s)]

theorem isForced_undo (s : Session) : s.undo.1.isForced = s.isForced := by
  rw [undo_eq]
  split
  · exact isForced_onUndone s
  · next d hd =>
    rw [isForced_onUndone]
    exact isForced_withDocument (Keeps.of_undo? (.inr hd)).id

/-! ## Extracting and completing inside the region -/

theorem quiet_extract_of_tracksAt (h : s.tracksAt s.document.caret = true) : s.Quiet s.extract := by
  have hq := quiet_extract s
  rwa [suggest_of_tracksAt h] at hq

theorem quiet_onQueryCompletions_of_tracksAt {pos : Nat} (h : s.tracksAt pos = true) :
    s.Quiet (s.onQueryCompletions pos).1 := by
  cases ha : s.service.completionAsked with
  | false =>
    rw [onQueryCompletions_of_unasked ha]
    exact .refl s
  | true =>
    have hq := quiet_onQueryCompletions ha pos
    rwa [suggest_of_tracksAt h] at hq

theorem quiet_complete_of_tracksAt {pos : Nat} (h : s.tracksAt pos = true) : s.Quiet (s.complete pos).1 := by
  have hq := quiet_onTextCommand s (c := .autoComplete) nofun
  have ht : (s.onTextCommand .autoComplete).tracksAt pos = true := by
    have hd : (s.onTextCommand .autoComplete).tracker? = s.tracker? := by
      change (if s.service.settings.autoMark then s.askCompletion true else s).tracker? = _
      split <;> rfl
    unfold tracksAt
    rw [hd]
    exact h
  rw [complete_fst]
  exact (hq.trans (quiet_onQueryCompletions_of_tracksAt ht)).trans (.askCompletion _ false)

theorem takeCompletion_of_uncommitted (s : Session) :
    (s.takeCompletion false).1 = (s.complete s.document.caret).1 := by
  unfold takeCompletion
  split
  · next s₁ he => rw [he]
  · next s₁ entry he => rw [he]; rfl

/-! ## Actions -/

theorem isForced_notify {e : Event} (notice : e.isNotice = true) (hr : s.respects (.notify e notice) = true) :
    (s.after e).isForced = s.isForced := by
  cases e with
  | activated => exact isForced_quiet (.onActivated s)
  | closed => cases hr
  | selectionModified => exact isForced_quiet (.onSelectionModified s)
  | modified p => cases notice
  | textCommand c =>
    have hc : c ≠ .commitCompletion := by rintro rfl; cases hr
    exact isForced_quiet (quiet_onTextCommand s hc)
  | postTextCommand c =>
    cases c with
    | autoComplete => exact isForced_quiet (.askCompletion s false)
    | undo => exact isForced_onUndone s
    | commitCompletion => rfl
    | other _ => rfl
  | queryContext key => rfl
  | queryCompletions pos => exact isForced_quiet (quiet_onQueryCompletions_of_tracksAt hr)
  | command c => cases notice

/-- **An action that is no request to end tracking** neither ends a forced tracker nor starts one, unless it reports an
empty patch for a text of another length. -/
theorem isForced_act (hu : s.document.unreported = []) {a : Action} (hr : s.respects a = true)
    (hm : s.mismatches a = false) : (s.act a).isForced = s.isForced := by
  cases a with
  | type w => exact isForced_type w s
  | backspace count => exact isForced_backspace count s
  | edit p => exact isForced_edit hm
  | select anchor head => exact isForced_quiet (quiet_select s anchor head)
  | undo => exact isForced_undo s
  | command c =>
    obtain ⟨hc, ht⟩ := Bool.and_eq_true_iff.1 hr
    cases of_decide_eq_true hc
    have hq := quiet_extract_of_tracksAt ht
    have hf : s.extract.flush = s.extract.onSelectionModified := flush_of_nil (hq.unreported.trans hu)
    change s.extract.flush.isForced = _
    rw [hf]
    exact isForced_quiet (hq.trans (.onSelectionModified _))
  | complete commit =>
    obtain ⟨hc, ht⟩ := Bool.and_eq_true_iff.1 hr
    cases commit with
    | true => cases hc
    | false =>
      change (s.takeCompletion false).1.isForced = _
      rw [takeCompletion_of_uncommitted]
      exact isForced_quiet (quiet_complete_of_tracksAt ht)
  | notify e notice => exact isForced_notify notice hr
  | protect readonly => exact isForced_withDocument rfl

theorem isForced_act_of_mismatches (hw : s.document.widget = false) {a : Action} (hm : s.mismatches a = true) :
    (s.act a).isForced = false := by
  cases a with
  | edit p => exact isForced_edit_of_mismatches hw hm
  | _ => cases hm

/-- **Whether tracking is forced after an action that is no request to end it.** -/
theorem isForced_act_eq (hw : s.document.widget = false) (hu : s.document.unreported = []) {a : Action}
    (hr : s.respects a = true) : (s.act a).isForced = (s.isForced && !s.mismatches a) := by
  by_cases hm : s.mismatches a = true
  · simp [hm, isForced_act_of_mismatches hw hm]
  · rw [Bool.not_eq_true] at hm
    simp [hm, isForced_act hu hr hm]

end Session

/-! ## Runs -/

namespace Host

variable {h : Host} {i : Nat} {s : Session}

/-- The step is no request to end tracking in the document at `i`; what is done in the others does not matter. -/
def respects (h : Host) (i : Nat) : Step → Bool
  | .on j a => j ≠ i || (h.session? i).all (·.respects a)
  | .choose _ => true

/-- The step reports an empty patch for a text of another length in the document at `i`. -/
def mismatches (h : Host) (i : Nat) : Step → Bool
  | .on j a => j = i && (h.session? i).any (·.mismatches a)
  | .choose _ => false

/-- No step is a request to end tracking in the document at `i`. -/
def undisturbed (h : Host) (i : Nat) (steps : List Step) : Bool := along step (fun h st => h.respects i st) h steps

/-- No step reports an empty patch for a text of another length in the document at `i`. -/
def matched (h : Host) (i : Nat) (steps : List Step) : Bool := along step (fun h st => !h.mismatches i st) h steps

/-- **What a step makes of forced tracking in a document**, if it is no request to end it there. -/
theorem isForced_step {P : Session → Prop} (hh : h.Holds P) (hs : h.session? i = some s) (st : Step)
    (hr : h.respects i st = true) :
    ∃ s', (h.step st).session? i = some s' ∧ s'.isForced = (s.isForced && !h.mismatches i st) := by
  obtain ⟨-, hw, hu⟩ := hh.of_session? hs
  cases st with
  | choose settings =>
    obtain ⟨hd, hv⟩ := session?_eq_some.1 hs
    refine ⟨{ s with service.settings := settings }, session?_eq_some.2 ⟨hd, by rw [hv]; rfl⟩, ?_⟩
    exact (Bool.and_true _).symm
  | on j a =>
    by_cases hij : j = i
    · subst hij
      have ha : s.respects a = true := by simpa [respects, hs] using hr
      have hm : h.mismatches j (.on j a) = s.mismatches a := by simp [mismatches, hs]
      rw [hm]
      exact ⟨s.act a, session?_on_self hs (·.act a), Session.isForced_act_eq hw hu ha⟩
    · have hm : h.mismatches i (.on j a) = false := by simp [mismatches, hij]
      rw [hm, Bool.not_false, Bool.and_true]
      cases hj : h.session? j with
      | none => exact ⟨s, (congrArg (·.session? i) (on_of_none hj (·.act a))).trans hs, rfl⟩
      | some s' =>
        refine ⟨_, session?_on_other hij hs hj (·.act a), ?_⟩
        obtain ⟨-, hw', hu'⟩ := hh.of_session? hj
        -- the tracker of this document is among those that the other session leaves alone
        have ho := (Session.tends_act hw' hu' a).keeps.others s.document.id (id_ne_of_ne hh.distinct hij hs hj)
        have ht : (Session.mk (s'.act a).service s.document).tracker? = s.tracker? := by
          change (s'.act a).service.trackers.get? _ = s.service.trackers.get? _
          rw [ho, (session?_eq_some.1 hs).2, (session?_eq_some.1 hj).2]
        exact Session.isForced_of_core (congrArg _ ht)

/-- **What a run makes of forced tracking in a document**, by recursion over the steps: once it has ended, no step that
is no request starts it again. -/
theorem isForced_run : ∀ (steps : List Step) {h : Host} {s : Session}, h.Holds Session.Sound →
    h.session? i = some s → h.undisturbed i steps = true →
    ∃ s', (h.run steps).session? i = some s' ∧ s'.isForced = (s.isForced && h.matched i steps)
  | [], _, s, _, hs, _ => ⟨s, hs, (Bool.and_true _).symm⟩
  | st :: steps, h, s, hh, hs, hr => by
    obtain ⟨hst, hsteps⟩ := Bool.and_eq_true_iff.1 hr
    obtain ⟨s₁, hs₁, hf₁⟩ := isForced_step hh hs st hst
    obtain ⟨s', hs', hf'⟩ := isForced_run steps (hh.step_sound st) hs₁ hsteps
    refine ⟨s', hs', ?_⟩
    rw [hf', hf₁, Bool.and_assoc]
    rfl

end Host

namespace Opening

/-- **Forced tracking outlasts every run in which nobody asks for its end**, whatever becomes of the text and of the
other documents, just if no step in the document reports an empty patch for a text of another length. -/
theorem forced_until_requested_iff (o : Opening) (steps : List Host.Step) {i : Nat} {s : Session}
    (hs : (o.host.run steps).session? i = some s) {t : Tracker} (ht : s.tracker? = some t) (hf : t.forced = true)
    {more : List Host.Step} (hr : (o.host.run steps).undisturbed i more = true) :
    ∃ s', ((o.host.run steps).run more).session? i = some s' ∧
      ((∃ t', s'.tracker? = some t' ∧ t'.forced = true) ↔ (o.host.run steps).matched i more = true) := by
  have hf' : s.isForced = true := (Session.isForced_of_some ht).trans hf
  obtain ⟨s', hs', hm⟩ := Host.isForced_run more (o.sound steps) hs hr
  rw [hf', Bool.true_and] at hm
  refine ⟨s', hs', ?_⟩
  rw [← hm]
  exact (Option.any_eq_true _ _).symm

/-- The region is emptied, filled with lines that are no abbreviation and undone past the start of the tracker, while a
completion is taken in another document.  Empty patches for 99 chars are reported in the other document, and refused in
this one. -/
theorem forced_until_requested_iff_past_its_start :
    let o := ofTexts ⟨"html", true⟩ {} ["x ".toList, "ul".toList]
    let steps : List Host.Step := [.on 0 (.type "p>a".toList), .on 0 (.select 2 5), .on 0 (.command .enter)]
    let more : List Host.Step := [.on 0 (.backspace 3), .on 0 (.type "+\n)".toList), .on 1 (.complete true),
      .on 0 (.edit (.empty 5)), .on 1 (.edit (.empty 99)), .on 0 (.protect true), .on 0 (.edit (.empty 99)),
      .on 0 (.protect false), .on 0 (.complete false), .on 0 (.command .extract), .on 0 .undo, .on 0 .undo, .on 0 .undo,
      .on 0 .undo, .on 0 .undo, .on 0 .undo, .on 0 .undo, .on 0 .undo, .on 0 .undo]
    ∃ s t s' t', (o.host.run steps).session? 0 = some s ∧ s.tracker? = some t ∧ t.forced = true ∧
      (o.host.run steps).undisturbed 0 more = true ∧ ((o.host.run steps).run more).session? 0 = some s' ∧
      s'.document.text = "x ".toList ∧ s'.tracker? = some t' ∧ t'.forced = true := by
  intro o steps more
  have hc : ((o.host.run steps).session? 0).any (fun s => s.tracker?.any (·.forced)) = true := by decide +kernel
  obtain ⟨s, hs, hc⟩ := (Option.any_eq_true _ _).1 hc
  obtain ⟨t, ht, hf⟩ := (Option.any_eq_true _ _).1 hc
  have hr : (o.host.run steps).undisturbed 0 more = true := by decide +kernel
  have hm : (o.host.run steps).matched 0 more = true := by decide +kernel
  have hx : (((o.host.run steps).run more).session? 0).map (·.document.text) = some "x ".toList := by decide +kernel
  obtain ⟨s', hs', hiff⟩ := forced_until_requested_iff o steps hs ht hf hr
  obtain ⟨t', ht', hf'⟩ := hiff.2 hm
  rw [hs', Option.map_some] at hx
  exact ⟨s, t, s', t', hs, ht, hf, hr, hs', Option.some.inj hx, ht', hf'⟩

/-- **Forced tracking may end with nobody asking for it**: an empty patch for 99 chars is taken in a text of two, and
reported. -/
theorem forced_ended_unasked :
    ¬ ∀ (o : Opening) (steps : List Host.Step) (i : Nat) (s : Session) (t : Tracker) (more : List Host.Step),
      (o.host.run steps).session? i = some s → s.tracker? = some t → t.forced = true →
      (o.host.run steps).undisturbed i more = true →
      ∃ s' t', ((o.host.run steps).run more).session? i = some s' ∧ s'.tracker? = some t' ∧ t'.forced = true := by
  intro hall
  let o := ofTexts ⟨"html", true⟩ {} ["ul".toList]
  let steps : List Host.Step := [.on 0 (.select 0 2), .on 0 (.command .enter)]
  let more : List Host.Step := [.on 0 (.edit (.empty 99))]
  have hc : ((o.host.run steps).session? 0).any (fun s => s.tracker?.any (·.forced)) = true := by decide +kernel
  obtain ⟨s, hs, hc⟩ := (Option.any_eq_true _ _).1 hc
  obtain ⟨t, ht, hf⟩ := (Option.any_eq_true _ _).1 hc
  have hr : (o.host.run steps).undisturbed 0 more = true := by decide +kernel
  have he : ((o.host.run steps).run more).session? 0 |>.all (·.tracker?.isNone) := by decide +kernel
  obtain ⟨s', t', hs', ht', -⟩ := hall o steps 0 s t more hs ht hf hr
  rw [hs', Option.all_some, ht'] at he
  cases he

end Opening
end Shorthand
