import Shorthand.Proofs.Abbreviation.Ending
import Shorthand.Proofs.Session.Extraction
import Shorthand.Proofs.Session.Rewind
/-!
# Something to read, in one line

A tracker that is not forced is to be on something to read in one line (`Tracker.InLine`).  The report of an edit sees
to that, whatever the edit was (`trim_stopIfInvalid`).  Where there is no report the text says what becomes of it: an
undo may bring a marker back to a stretch that is empty or has a line break (`trim_onUndone_iff`), and where no marker
leads abbreviations in one may be found that ends with the carriage return of a line end (`trim_suggest_iff`).  No other
action leaves anything else tracked (`trim_act_iff`).
-/
namespace Shorthand

open Text (isLineBreak)

/-- There is something of the text, and no line break in it. -/
def Text.inLine (t : Text) : Bool := !t.isEmpty && !t.any isLineBreak

theorem Document.snapshot_mem_history {d d' : Document} (h : d.undo? = some d') : d'.snapshot ∈ d.history := by
  unfold undo? at h
  split at h
  · cases h
  · next snapshot history hh =>
    cases h
    rw [hh]
    exact List.mem_cons_self

theorem Reading.isEmpty_of (read : Reader) : ∀ w : Text, (Reading.of read w).isEmpty = w.isEmpty
  | [] => rfl
  | c :: w => by
    rw [of_cons]
    cases read (c :: w) <;> rfl

namespace Tracker

variable {t t' : Tracker}

/-- **The tracker is on something to read in one line.** -/
structure InLine (t : Tracker) : Prop where
  nonempty : t.reading.isEmpty = false
  lineFeed : '\n' ∉ t.reading.text
  carriageReturn : '\r' ∉ t.reading.text

theorem inLine_of_not_any (hn : t.reading.isEmpty = false) (hb : t.reading.text.any isLineBreak = false) :
    t.InLine := by
  rw [← Bool.not_eq_true, Text.any_isLineBreak_iff, not_or] at hb
  exact ⟨hn, hb.1, hb.2⟩

theorem inLine_iff {read : Reader} {w : Text} (h : t.reading = .of read w) : t.InLine ↔ w.inLine = true := by
  have hw : t.reading.text = w := by rw [h, Reading.text_of]
  have he : t.reading.isEmpty = w.isEmpty := by rw [h, Reading.isEmpty_of]
  have hb : t.reading.text.any isLineBreak = false ↔ '\n' ∉ t.reading.text ∧ '\r' ∉ t.reading.text := by
    rw [← Bool.not_eq_true, Text.any_isLineBreak_iff, not_or]
  unfold Text.inLine
  rw [Bool.and_eq_true, Bool.not_eq_true', Bool.not_eq_true', ← he, ← hw, hb]
  exact ⟨fun ⟨hn, hf, hr⟩ => ⟨hn, hf, hr⟩, fun ⟨hn, hf, hr⟩ => ⟨hn, hf, hr⟩⟩

/-- What would be a reason to stop is not so where there is none. -/
theorem eq_false_of_ite {b : Bool} {reason : StopReason} {other : Option StopReason}
    (h : (if b then some reason else other) = none) : b = false := by
  cases b with
  | false => rfl
  | true => cases h

/-- A tracker that the caret does not end is on something to read in one line. -/
theorem inLine_of_stopReason? (hf : t.forced = false) {pos : Nat} (h : t.stopReason? pos = none) : t.InLine := by
  unfold stopReason? at h
  rw [hf] at h
  simp only [Bool.false_eq_true, if_false] at h
  cases hr : t.reading with
  | empty =>
    rw [hr] at h
    cases h
  | valid text nodes =>
    rw [hr] at h
    exact inLine_of_not_any (by rw [hr]; rfl) (by rw [hr]; exact eq_false_of_ite h)
  | invalid text error =>
    rw [hr] at h
    exact inLine_of_not_any (by rw [hr]; rfl) (by rw [hr]; exact eq_false_of_ite h)

theorem InLine.of_core (h : t.InLine) (hc : t'.core = t.core) : t'.InLine := by
  have hr := reading_eq_of_core hc
  exact ⟨hr ▸ h.nonempty, hr ▸ h.lineFeed, hr ▸ h.carriageReturn⟩

end Tracker

namespace Session

open Abbreviation (Located)

variable {s s' : Session} {t : Tracker} {p : Patch} {d : Document} {pos : Nat}

/-- **What is tracked in the document and not forced is in one line.** -/
def Trim (s : Session) : Prop := ∀ t, s.tracker? = some t → t.forced = false → t.InLine

theorem trim_of_none (h : s.tracker? = none) : s.Trim := fun t ht => by rw [h] at ht; cases ht

theorem trim_of_some (h : s.tracker? = some t) : s.Trim ↔ (t.forced = false → t.InLine) := by
  constructor
  · intro hs
    exact hs t h
  · intro ht t' ht'
    cases h.symm.trans ht'
    exact ht

theorem trim_of_isForced (h : s.isForced = true) : s.Trim := by
  intro t ht hf
  rw [isForced_of_some ht, hf] at h
  cases h

theorem Trim.of_core (h : s.Trim) (hc : s'.tracker?.map Tracker.core = s.tracker?.map Tracker.core) : s'.Trim := by
  intro t' ht' hf'
  rw [ht', Option.map_some] at hc
  obtain ⟨t, ht, hc⟩ := Option.map_eq_some_iff.1 hc.symm
  exact (h t ht ((Tracker.forced_eq_of_core hc).trans hf')).of_core hc.symm

theorem Quiet.trim_iff (h : s.Quiet s') : s'.Trim ↔ s.Trim :=
  ⟨fun hs => hs.of_core h.core.symm, fun hs => hs.of_core h.core⟩

theorem Trim.withDocument (h : s.Trim) (hid : d.id = s.document.id) : (s.withDocument d).Trim :=
  h.of_core (congrArg _ (tracker?_withDocument hid))

/-! ## Reports -/

/-- **What the caret does not end is in one line**, whatever has been tracked. -/
theorem trim_stopIfInvalid (s : Session) : s.stopIfInvalid.Trim := by
  unfold stopIfInvalid
  split
  · exact trim_of_none (tracker?_stop s)
  · next hn =>
    intro t ht hf
    rw [ht, Option.bind_some] at hn
    exact Tracker.inLine_of_stopReason? hf hn

namespace Trim

theorem onModified (h : s.Trim) (p : Patch) : (s.onModified p).Trim := by
  unfold Session.onModified
  split
  · exact h
  · exact (Quiet.noteCaret _).trim_iff.2 (trim_stopIfInvalid _)

theorem onSelectionModified (h : s.Trim) : s.onSelectionModified.Trim := (Quiet.onSelectionModified s).trim_iff.2 h

theorem report (h : s.Trim) (p : Patch) : (s.report p).Trim := (h.onModified p).onSelectionModified

theorem flush (h : s.Trim) : s.flush.Trim := by
  have hall (ps : List Patch) : ∀ s : Session, s.Trim → (ps.foldl (fun s p => s.after (.modified p)) s).Trim := by
    induction ps with
    | nil => exact fun _ h => h
    | cons p ps ih => exact fun s h => ih _ (h.onModified p)
  exact (hall _ _ (h.withDocument (d := s.document.reported) rfl)).onSelectionModified

/-! ## Edits -/

theorem type (h : s.Trim) (w : Text) : (s.type w).1.Trim := by
  induction w generalizing s with
  | nil => exact h
  | cons c w ih =>
    unfold Session.type
    split
    · exact h
    · next d p hd => exact ih ((h.withDocument (Document.takes_of_type? hd).1.id_eq).report p)

theorem backspace (h : s.Trim) (count : Nat) : (s.backspace count).1.Trim := by
  induction count generalizing s with
  | zero => exact h
  | succ count ih =>
    unfold Session.backspace
    split
    · exact h
    · next d p hd => exact ih ((h.withDocument (Document.takes_of_backspace? hd).1.id_eq).report p)

theorem edit (h : s.Trim) (p : Patch) : (s.edit p).1.Trim := by
  unfold Session.edit
  split
  · exact h
  · next d hd => exact (h.withDocument (Document.takes_of_edit? hd).id_eq).report p

theorem expand (h : s.Trim) : s.expand.Trim := by
  unfold Session.expand
  split
  · exact h
  · split
    · split
      · split <;> exact trim_of_none (tracker?_stop _)
      · exact trim_of_none (tracker?_stop s)
    · exact h

theorem commit (s : Session) (region : Span) (snippet : Text) : (s.commit region snippet).1.Trim := by
  have hs : s.after (.textCommand .commitCompletion) = s.stop := rfl
  have hstop : s.stop.Trim := trim_of_none (tracker?_stop s)
  unfold Session.commit
  dsimp only
  rw [hs]
  split
  · exact hstop
  · next d hd =>
    obtain ⟨p, d₁, ht, rfl⟩ := Document.takes_of_insertSnippet? hd
    exact (hstop.withDocument (d := { d₁ with unreported := d₁.unreported ++ [p] }) ht.id_eq).flush

end Trim

/-- What has been entered is forced. -/
theorem trim_enter (s : Session) : s.enter.Trim := by
  rcases enter_eq_stop_or_quiet s with ⟨-, h⟩ | ⟨options, h⟩
  · rw [h]
    exact trim_of_none (tracker?_stop s)
  · rw [h.trim_iff, start_eq_hold]
    exact (trim_of_some (tracker?_hold s.stop _)).2 nofun

/-! ## Undoing -/

/-- What a tracker that is not forced is on once the marker of the document is followed. -/
def back? (s : Session) : Option Text :=
  if s.isForced then none
  else
    s.marker?.map fun m =>
      let offset := (s.tracker?.map (·.offset)).getD s.service.leadLength
      s.document.text.slice (min (m.start + offset) m.stop) m.stop

/-- **Following the marker keeps to one line just if the stretch that it leads to does.** -/
theorem trim_onUndone_iff (hm : ∀ m, s.marker? = some m → m.Within s.document.length) :
    s.onUndone.Trim ↔ s.back?.all Text.inLine = true := by
  unfold back?
  rcases onUndone_cases s with ⟨ht, hm', hu⟩ | ⟨m, ht, hm', hu⟩ | ⟨t, m, ht, hm', hu⟩ | ⟨t, ht, hm', hf, hu⟩ |
    ⟨t, ht, hm', hf, hu⟩ <;> rw [hu, (Quiet.noteCaret _).trim_iff, hm', ht]
  · rw [isForced_of_none ht]
    exact iff_of_true (trim_of_none ht) rfl
  · have hr := reading_readAt s { region := m, offset := s.service.leadLength, options := s.optionsAt m.start true }
      (hm m hm')
    rw [isForced_of_none ht, (Quiet.showPreview _).trim_iff, start_eq_hold, trim_of_some (tracker?_hold s _)]
    rw [Tracker.inLine_iff hr]
    exact ⟨fun hx => hx rfl, fun hx _ => hx⟩
  · rw [isForced_of_some ht, trim_of_some (tracker?_withTracker s _)]
    cases hf : t.forced with
    | true => exact iff_of_true (fun hf' => by cases hf.symm.trans hf') rfl
    | false =>
      rw [Tracker.inLine_iff (reading_readAt s t (hm m hm'))]
      exact ⟨fun hx => hx hf, fun hx _ => hx⟩
  · rw [isForced_of_some ht, hf]
    exact iff_of_true (trim_of_isForced ((isForced_of_some (tracker?_hold s _)).trans hf)) rfl
  · rw [isForced_of_some ht, hf]
    exact iff_of_true (trim_of_none (tracker?_stop s)) rfl

/-- Where the marker is on the region already it leads nowhere else. -/
theorem Trim.onUndone (h : s.Trim) (hs : s.Sound) : s.onUndone.Trim := by
  rw [trim_onUndone_iff fun m hm => hs.marker_within hm]
  unfold back?
  rw [hs.marked]
  cases ht : s.tracker? with
  | none => simp
  | some t =>
    rw [isForced_of_some ht]
    cases hf : t.forced with
    | true => rfl
    | false =>
      have hr := (hs.reads t ht).fresh
      rw [Tracker.textIn_abbreviationSpan] at hr
      exact (Tracker.inLine_iff hr).1 (h t ht hf)

/-- The session with the document that an undo brings back. -/
def undone (s : Session) : Session := s.withDocument (s.document.undo?.getD s.document)

theorem trim_undo_iff (h : s.Sound) : s.undo.1.Trim ↔ s.undone.back?.all Text.inLine = true := by
  have hu : s.undo.1 = s.undone.onUndone := by
    rw [undo_eq]
    unfold undone
    cases s.document.undo? <;> rfl
  rw [hu]
  refine trim_onUndone_iff fun m hm => ?_
  unfold undone at hm ⊢
  cases hd : s.document.undo? with
  | none =>
    rw [hd] at hm
    exact h.marker_within hm
  | some d =>
    rw [hd] at hm
    exact h.history d.snapshot (Document.snapshot_mem_history hd) m hm

/-! ## Extracting -/

/-- `pos` is within a line end, and what is extracted there ends with the carriage return of that. -/
def cutsAt (s : Session) (pos : Nat) : Bool :=
  s.service.allowsTracking && !s.tracksAt pos && s.service.lead?.isNone && Text.cutsLineEnd s.document.text pos

/-- **What is found is in one line unless it ends within a line end**, which it does only without a marker. -/
theorem inLine_of_found? {x : Located} (h : s.found? pos = some x) :
    x.text.inLine = !(s.service.lead?.isNone && Text.cutsLineEnd s.document.text pos) := by
  have hne : x.text.isEmpty = false := List.isEmpty_eq_false_iff.2 (span_found? h).2.1
  obtain ⟨hpos, h⟩ := found?_eq_some h
  have hlast := Abbreviation.getLast?_of_locate? h
  have hsub := Abbreviation.subset_of_locate? h
  rw [Text.take_line hpos] at hlast hsub
  unfold Text.inLine
  rw [hne, Bool.not_false, Bool.true_and]
  cases hlead : s.service.lead? with
  | some lead =>
    -- behind a marker nothing is blank, and so there is no line break
    rw [hlead] at h
    have hb : x.text.any isLineBreak = false := by
      rw [List.any_eq_false]
      intro c hc hb
      have hblank := Text.isBlank_of_isLineBreak hb
      rw [Abbreviation.not_isBlank_of_locate? h c hc] at hblank
      cases hblank
    rw [hb]
    rfl
  | none =>
    have hb : x.text.any isLineBreak = Text.cutsLineEnd s.document.text pos := by
      have hline := Text.any_isLineBreak_line s.document.text pos
      cases hc : Text.cutsLineEnd s.document.text pos with
      | true =>
        rw [Text.getLast?_line hc] at hlast
        exact List.any_eq_true.2 ⟨'\r', List.mem_of_getLast? hlast, rfl⟩
      | false =>
        rw [hc, List.any_eq_false] at hline
        exact List.any_eq_false.2 fun c hm => hline c (hsub hm)
    rw [hb]
    rfl

/-- Within a line end there is always something to be found without a marker. -/
theorem isSome_found? (hl : s.service.lead? = none) (hc : Text.cutsLineEnd s.document.text pos = true) :
    ∃ x, s.found? pos = some x := by
  have hpos : pos < s.document.length := by
    unfold Text.cutsLineEnd at hc
    simp only [Bool.and_eq_true, decide_eq_true_eq] at hc
    exact (List.getElem?_eq_some_iff.1 hc.2).1
  unfold found?
  dsimp only
  rw [if_neg (Nat.not_lt.2 (Nat.le_of_lt hpos)), hl, ← Option.isSome_iff_exists]
  refine Abbreviation.isSome_locate?_of_getLast? (c := '\r') ?_ (by decide) (by decide)
  rw [Text.take_line (Nat.le_of_lt hpos)]
  exact Text.getLast?_line hc

/-- **A tracker suggested is in one line unless it is found within a line end.** -/
theorem trim_suggest_iff (h : s.Trim) (pos : Nat) : (s.suggest pos).1.Trim ↔ s.cutsAt pos = false := by
  unfold cutsAt
  cases ha : s.service.allowsTracking with
  | false =>
    have hs : (s.suggest pos).1 = s := by simp [suggest, ha]
    rw [hs]
    exact iff_of_true h rfl
  | true =>
    cases ht : s.tracksAt pos with
    | true =>
      rw [suggest_of_tracksAt ht]
      exact iff_of_true h rfl
    | false =>
      obtain ⟨s₀, hs₀, hn, hfound, hs⟩ := suggest_of_not_tracksAt ha ht
      rw [hs, startExtracted_eq]
      cases hx : s₀.found? pos with
      | none =>
        refine iff_of_true (trim_of_none hn) ?_
        by_contra hc
        simp only [Bool.not_false, Bool.true_and, Bool.not_eq_false, Bool.and_eq_true, Option.isNone_iff_eq_none] at hc
        obtain ⟨x, hx'⟩ := isSome_found? hc.1 hc.2
        rw [← hfound, hx] at hx'
        cases hx'
      | some x =>
        have hline := inLine_of_found? (hfound.symm.trans hx)
        dsimp only
        rw [trim_of_some (tracker?_hold s₀ _), Tracker.inLine_iff (reading_extracted hx), hline]
        simp only [Bool.not_false, Bool.true_and, Bool.not_eq_true']
        exact ⟨fun hx => hx rfl, fun hx _ => hx⟩

theorem trim_extract_iff (h : s.Trim) (hu : s.document.unreported = []) :
    (s.command .extract).Trim ↔ s.cutsAt s.document.caret = false := by
  have he : s.command .extract = s.extract.onSelectionModified :=
    flush_of_nil ((tends_extract s).keeps.unreported.trans hu)
  rw [he, (Quiet.onSelectionModified _).trim_iff, (quiet_extract s).trim_iff]
  exact trim_suggest_iff h _

theorem trim_onQueryCompletions_iff (h : s.Trim) (pos : Nat) :
    (s.onQueryCompletions pos).1.Trim ↔ (s.service.completionAsked && s.cutsAt pos) = false := by
  cases ha : s.service.completionAsked with
  | false =>
    rw [onQueryCompletions_of_unasked ha]
    exact iff_of_true h rfl
  | true =>
    rw [(quiet_onQueryCompletions ha pos).trim_iff]
    exact trim_suggest_iff h pos

/-! ## Completing -/

theorem autoMark_of_cutsAt (h : s.cutsAt pos = true) : s.service.settings.autoMark = true := by
  unfold cutsAt Service.allowsTracking at h
  simp only [Bool.and_eq_true] at h
  exact h.1.1.1.1

theorem trim_complete_iff (h : s.Trim) (pos : Nat) : (s.complete pos).1.Trim ↔ s.cutsAt pos = false := by
  have hq := quiet_onTextCommand s (c := .autoComplete) nofun
  have hc : (s.onTextCommand .autoComplete).cutsAt pos = s.cutsAt pos := by
    change (if s.service.settings.autoMark then s.askCompletion true else s).cutsAt pos = _
    split <;> rfl
  have hpost (s : Session) : (s.onPostTextCommand .autoComplete).Trim ↔ s.Trim := (Quiet.askCompletion s false).trim_iff
  rw [complete_fst, hpost, trim_onQueryCompletions_iff (hq.trim_iff.2 h), hc]
  cases hcut : s.cutsAt pos with
  | false => simp
  | true =>
    have ha : s.onTextCommand .autoComplete = s.askCompletion true := if_pos (autoMark_of_cutsAt hcut)
    rw [ha]
    rfl

/-- What ends within a line end is read as nothing. -/
theorem nodes?_extracted {x : Located} (h : s.found? pos = some x)
    (hc : Text.cutsLineEnd s.document.text pos = true) : (s.extracted pos x).reading.nodes? = none := by
  obtain ⟨hpos, hx⟩ := found?_eq_some h
  have hlast := Abbreviation.getLast?_of_locate? hx
  rw [Text.take_line hpos, Text.getLast?_line hc] at hlast
  rw [reading_extracted h]
  cases hr : Abbreviation.read x.text with
  | ok nodes => exact absurd (Abbreviation.isEnding_of_read hr hlast) (by decide)
  | error error =>
    have hn : x.text ≠ [] := by
      intro he
      rw [he] at hlast
      cases hlast
    rw [Reading.of_error hn hr]
    rfl

/-- So no completion is offered for it. -/
theorem complete_of_cutsAt (h : s.cutsAt pos = true) : (s.complete pos).2 = none := by
  have hauto := autoMark_of_cutsAt h
  unfold cutsAt at h
  simp only [Bool.and_eq_true, Bool.not_eq_true', Option.isNone_iff_eq_none] at h
  obtain ⟨⟨⟨ha, ht⟩, hl⟩, hc⟩ := h
  obtain ⟨s₀, hs₀, -, hfound, hs⟩ := suggest_of_not_tracksAt ha ht
  obtain ⟨x, hx⟩ := isSome_found? hl hc
  rw [complete_eq hauto, hs, startExtracted_eq, hfound, hx]
  have hc₀ : Text.cutsLineEnd s₀.document.text pos = true := by
    rcases hs₀ with ⟨rfl, -⟩ | rfl
    · exact hc
    · exact hc
  have hn := nodes?_extracted (hfound.trans hx) hc₀
  dsimp only
  rw [expansion_of_some (tracker?_hold s₀ _)]
  have he : ((s₀.extracted pos x).locateContext (s₀.hold (s₀.extracted pos x)).document.text).expansion? = none := by
    unfold Tracker.expansion?
    rw [Tracker.locateContext_eq]
    dsimp only
    rw [hn]
    rfl
  rw [he]
  rfl

theorem trim_takeCompletion_iff (h : s.Trim) (commit : Bool) :
    (s.takeCompletion commit).1.Trim ↔ s.cutsAt s.document.caret = false := by
  have hiff := trim_complete_iff h s.document.caret
  have hn (hc : s.cutsAt s.document.caret = true) := complete_of_cutsAt hc
  unfold takeCompletion
  rcases hs : s.complete s.document.caret with ⟨s₁, _ | entry⟩ <;> rw [hs] at hiff hn
  · exact hiff
  · -- an entry is offered, so that nothing within a line end has been found
    have hc : s.cutsAt s.document.caret = false := by
      by_contra hc
      have := hn (by simpa using hc)
      cases this
    refine iff_of_true ?_ hc
    have h₁ : s₁.Trim := hiff.2 hc
    dsimp only
    split
    · exact h₁
    · split
      · exact h₁
      · next t ht =>
        have hcommit := Trim.commit s₁ t.region entry.snippet
        split
        · next s₂ _ hs₂ => rw [hs₂] at hcommit; exact hcommit
        · next s₂ hs₂ => rw [hs₂] at hcommit; exact hcommit

/-! ## All actions -/

/-- **The action leaves what is no abbreviation in one line tracked**: an undo by a marker that it brings back, an
extraction by what is found within a line end. -/
def strays (s : Session) : Action → Bool
  | .undo => !s.undone.back?.all Text.inLine
  | .command .extract | .complete _ => s.cutsAt s.document.caret
  | .notify (.queryCompletions pos) _ => s.service.completionAsked && s.cutsAt pos
  | _ => false

theorem trim_notify_iff (h : s.Trim) (hs : s.Sound) {e : Event} (notice : e.isNotice = true) :
    (s.after e).Trim ↔ s.strays (.notify e notice) = false := by
  cases e with
  | activated => exact iff_of_true ((Quiet.onActivated s).trim_iff.2 h) rfl
  | closed =>
    refine iff_of_true ?_ rfl
    change s.onClosed.Trim
    unfold onClosed
    split
    · exact h
    · exact trim_of_none (tracker?_stop s)
  | selectionModified => exact iff_of_true h.onSelectionModified rfl
  | modified p => cases notice
  | textCommand c =>
    refine iff_of_true ?_ rfl
    by_cases hc : c = .commitCompletion
    · subst hc
      exact trim_of_none (tracker?_stop s)
    · exact (quiet_onTextCommand s hc).trim_iff.2 h
  | postTextCommand c =>
    refine iff_of_true ?_ rfl
    cases c with
    | autoComplete => exact (Quiet.askCompletion s false).trim_iff.2 h
    | commitCompletion => exact h
    | undo => exact h.onUndone hs
    | other _ => exact h
  | queryContext key => exact iff_of_true h rfl
  | queryCompletions pos => exact trim_onQueryCompletions_iff h pos
  | command c => cases notice

/-- **An action keeps to one line just if it does not stray.** -/
theorem trim_act_iff (h : s.Trim) (hs : s.Sound) (hu : s.document.unreported = []) (a : Action) :
    (s.act a).Trim ↔ s.strays a = false := by
  cases a with
  | type w => exact iff_of_true (h.type w) rfl
  | backspace count => exact iff_of_true (h.backspace count) rfl
  | edit p => exact iff_of_true (h.edit p) rfl
  | select anchor head => exact iff_of_true ((quiet_select s anchor head).trim_iff.2 h) rfl
  | undo =>
    unfold strays
    rw [Bool.not_eq_false']
    exact trim_undo_iff hs
  | command c =>
    cases c with
    | expand => exact iff_of_true h.expand.flush rfl
    | extract => exact trim_extract_iff h hu
    | enter => exact iff_of_true (trim_enter s).flush rfl
    | clear => exact iff_of_true (trim_of_none (tracker?_stop s)).flush rfl
  | complete commit => exact trim_takeCompletion_iff h commit
  | notify e notice => exact trim_notify_iff h hs notice
  | protect readonly => exact iff_of_true (h.withDocument (d := { s.document with readonly }) rfl) rfl

end Session
end Shorthand
