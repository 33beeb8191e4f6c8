import Shorthand.Proofs.Document.Typing
import Shorthand.Proofs.Session.Expansion
import Shorthand.Proofs.Session.Rewind
/-!
# What one undo makes of a tracker

An undo brings back the marker that the document had before the edit undone, and nothing else of the tracker that went
with it.  So whatever tracker there is afterwards stands on that marker.

- Undoing an expansion brings the tracked region back, and the abbreviation as it was read, unless the tracker was
  forced and abbreviations are led in by a marker, which is then taken to stand there (`undo_expansion_iff`).
- Undoing an edit made before a tracker was forced leaves that tracker where it is, unless something else was tracked
  when the edit was made: then it moves there (`undo_keeps_forced_region_iff`).
-/
namespace Shorthand

/-- A snippet put in place of something is an edit. -/
theorem Document.edits_of_insertSnippet? {d d' : Document} {span : Span} (hs : span.start < span.stop) {snippet : Text}
    (h : d.insertSnippet? span snippet = .ok d') :
    ∃ p d₁, d.Takes p d₁ ∧ p.isEmpty = false ∧ p.length = d.length ∧
      d' = { d₁ with unreported := d₁.unreported ++ [p] } := by
  unfold insertSnippet? at h
  dsimp only at h
  split at h
  · cases h
  next d₁ p hd =>
  cases h
  obtain ⟨ht, hl⟩ := takes_of_replace? hd
  have he : Replacement.Effective ⟨span.start, span.stop, (Snippet.flatten snippet).text⟩ := .inl (Nat.ne_of_lt hs)
  have hp : p.isEmpty = false := by
    unfold Patch.isEmpty
    rw [replacements_of_replace? he hd]
    rfl
  exact ⟨p, d₁, ht, hp, hl, rfl⟩

/-- Where something has been read the region is not empty. -/
theorem Tracker.ReadsIn.start_lt_stop {t : Tracker} {text : Text} (h : t.ReadsIn text) (hn : t.reading ≠ .empty) :
    t.region.start < t.region.stop := by
  rw [h.fresh, t.textIn_abbreviationSpan] at hn
  by_contra hlt
  have hl := Text.length_slice text (min (t.region.start + t.offset) t.region.stop) t.region.stop
  have hz : min t.region.stop text.length - min (t.region.start + t.offset) t.region.stop = 0 := by omega
  rw [hz] at hl
  exact hn (Reading.of_eq_empty_iff.2 (List.length_eq_zero_iff.1 hl))

namespace Session

variable {s s' : Session} {t : Tracker}

/-! ## One undo -/

/-- **An undo brings a tracker back to its marker**, automatic unless a forced one is there. -/
theorem undo_brings_back (h : s.Settled)
    (hh : s'.document.history = s.document.snapshot :: s.document.history) (ht : s.tracker? = some t) :
    let u := s'.undo.1
    u.document.text = s.document.text ∧ u.document.selection = s.document.selection ∧
      ∃ t', u.tracker? = some t' ∧ t'.region = t.region ∧ t'.forced = s'.isForced := by
  obtain ⟨d, hd, hs, -⟩ := Document.undo?_of_history hh
  rw [undo_eq, hd]
  dsimp only
  have hmarks := Marks.onUndone (s'.withDocument d)
  have hx : d.text = s.document.text := congrArg Snapshot.text hs
  have hm : (s'.withDocument d).marker? = some t.region := by
    have hm : (s'.withDocument d).marker? = s.marker? := congrArg (·.markers.get? abbreviationMarker) hs
    rw [hm, h.sound.marked, ht]
    rfl
  obtain ⟨t', ht', hr, hf⟩ := tracker?_onUndone_of_marker hm
  have hw : t.region.Within d.length := by
    unfold Document.length
    rw [hx]
    exact (h.sound.reads t ht).within
  refine ⟨hmarks.text.trans hx, hmarks.selection.trans (congrArg Snapshot.selection hs), t', ht', ?_, ?_⟩
  · exact hr.trans (Span.clamp_eq_self hw)
  · exact hf.trans (isForced_withDocument (Keeps.of_undo? (.inr hd)).id)

/-! ## Undoing an expansion -/

/-- What is reported of an expansion starts no forced tracker, and leaves the state before it on the history. -/
theorem history_command_expand (h : s.Settled) (ht : s.tracker? = some t)
    (hc : t.region.contains s.document.caret = true) {snippet : Text} (hd : t.due? s.document = some snippet)
    (hlt : t.region.start < t.region.stop) :
    (s.command .expand).document.history = s.document.snapshot :: s.document.history ∧
      (s.command .expand).isForced = false := by
  have hr := h.sound.reads t ht
  obtain ⟨d, -, hi, -⟩ := Document.insertSnippet?_ok (Tracker.writable_of_due? hd) hr.within snippet
  obtain ⟨p, d₁, htakes, hp, hl, rfl⟩ := Document.edits_of_insertSnippet? hlt hi
  have hu : d₁.unreported = [] := htakes.unreported_eq.trans h.unreported
  let s₁ := (s.withTracker (t.locateContext s.document.text)).withDocument d₁
  have he : s.command .expand = s₁.stop.report p := by
    change s.expand.flush = _
    rw [expand_of_due_some ht hc hr hd hi]
    exact flush_of_singleton (s := s₁.stop) (d := s₁.stop.document) hu
  rw [he]
  constructor
  · rw [(Marks.report _ p).history]
    exact htakes.history_of_nonempty hp
  · have hlen : p.lengthAfter = s₁.stop.document.length := htakes.lengthAfter_eq hl
    rw [isForced_report hlen]
    exact isForced_of_none (tracker?_stop s₁)

/-- What is put in by expanding is what is due. -/
theorem due?_of_expansion (h : s.Sound) (hw : s.document.readonly = false) {snippet : Text} (ht : s.tracker? = some t)
    (hx : s.expansion.2 = some snippet) : t.due? s.document = some snippet ∧ t.reading ≠ .empty := by
  rw [expansion_of_some ht] at hx
  dsimp only at hx
  have hv : t.reading.isValid = true := by
    have hr : (t.locateContext s.document.text).reading = t.reading := by rw [Tracker.locateContext_eq]
    unfold Tracker.expansion? at hx
    rw [hr] at hx
    cases hg : t.reading with
    | valid _ _ => rfl
    | empty => rw [hg] at hx; cases hx
    | invalid _ _ => rw [hg] at hx; cases hx
  constructor
  · rw [← Tracker.expansionIn?_eq_due? (h.reads t ht) hw]
    unfold Tracker.expansionIn?
    rw [if_pos hv, hx]
  · intro he
    rw [he] at hv
    cases hv

/-- Trackers on the same region of the same text read the same just if they leave out the same number of chars. -/
theorem reading_eq_iff {t' : Tracker} {text : Text} (h : t.ReadsIn text) (h' : t'.ReadsIn text)
    (hr : t'.region = t.region) (hn : t.reading ≠ .empty) (ho : t.offset = 0 ∨ t'.offset = t.offset) :
    t'.reading = t.reading ↔ t'.offset = t.offset := by
  have hlt := h.start_lt_stop hn
  obtain ⟨-, hstop⟩ := h.within
  rw [h.fresh, h'.fresh, t.textIn_abbreviationSpan, t'.textIn_abbreviationSpan, hr]
  constructor
  · intro he
    rcases ho with hz | ho
    · -- a tracker that leaves out something reads less than one that leaves out nothing
      have hl := congrArg (fun r => (Reading.text r).length) he
      simp only [Reading.text_of, Text.length_slice, hz] at hl
      omega
    · exact ho
  · intro ho
    rw [ho]

/-- **Undoing an expansion brings the abbreviation back as it was read**, just if the tracker was not forced or no
marker leads abbreviations in. -/
theorem undo_expansion (h : s.Settled) (ht : s.tracker? = some t) (hc : t.region.contains s.document.caret = true)
    (hw : s.document.readonly = false) {snippet : Text} (hx : s.expansion.2 = some snippet) :
    let u := (s.command .expand).undo.1
    u.document.text = s.document.text ∧ u.document.selection = s.document.selection ∧
      ∃ t', u.tracker? = some t' ∧ t'.region = t.region ∧
        (t'.reading = t.reading ↔ t.forced = false ∨ s.service.leadLength = 0) := by
  obtain ⟨hd, hn⟩ := due?_of_expansion h.sound hw ht hx
  have hr := h.sound.reads t ht
  obtain ⟨hh, hf⟩ := history_command_expand h ht hc hd (hr.start_lt_stop hn)
  have htends := tends_expand (s := s) h.unreported
  have hu := tends_undo (s.command .expand)
  obtain ⟨htext, hsel, t', ht', hreg, hf'⟩ := undo_brings_back h hh ht
  have h' := (h.tends htends).tends hu
  have hr' : t'.ReadsIn s.document.text := htext ▸ h'.sound.reads t' ht'
  -- the tracker that is back is automatic, and so takes the marker in front to be there
  have ho : t.offset = if t.forced then 0 else s.service.leadLength := h.led t ht
  have ho' : t'.offset = s.service.leadLength := by
    rw [h'.led t' ht', hf', hf, (htends.trans hu).keeps.leadLength]
    rfl
  refine ⟨htext, hsel, t', ht', hreg, ?_⟩
  rw [reading_eq_iff hr hr' hreg hn, ho, ho']
  · cases t.forced <;> simp
  · rw [ho, ho']
    cases t.forced <;> simp

/-! ## Undoing past the start of a forced tracker -/

/-- A tracker that has been entered is forced, and entering has edited nothing. -/
theorem command_enter_of_some (hu : s.document.unreported = []) (ht : (s.command .enter).tracker? = some t) :
    (s.command .enter).isForced = true ∧ (s.command .enter).document.history = s.document.history := by
  have he : s.command .enter = s.enter.onSelectionModified :=
    flush_of_nil ((tends_enter s).keeps.unreported.trans hu)
  have hq := Quiet.onSelectionModified s.enter
  rw [he] at ht ⊢
  rcases enter_eq_stop_or_quiet s with ⟨-, hs⟩ | ⟨options, hs⟩
  · rw [hs] at ht
    rw [(Quiet.onSelectionModified s.stop).untracked (tracker?_stop s)] at ht
    cases ht
  · have hq := hs.trans hq
    constructor
    · rw [isForced_quiet hq, start_eq_hold]
      exact isForced_of_some (tracker?_hold s.stop _)
    · exact hq.history

/-- **An undo takes a forced tracker to the marker that it brings back**, or leaves it where it is if it brings back
none. -/
theorem undo_of_forced (h : s.Sound) (ht : s.tracker? = some t) (hf : s.isForced = true) {snapshot : Snapshot}
    {history : List Snapshot} (hh : s.document.history = snapshot :: history) :
    s.undo.1.document.text = snapshot.text ∧ ∃ t', s.undo.1.tracker? = some t' ∧ t'.forced = true ∧
      t'.region = (snapshot.markers.get? abbreviationMarker).getD (t.region.clamp snapshot.text.length) := by
  have hfits : snapshot.Fits := h.history snapshot (hh ▸ List.mem_cons_self)
  obtain ⟨d, hd, rfl, -⟩ := Document.undo?_of_history hh
  have hid := (Keeps.of_undo? (.inr hd)).id
  have ht' : (s.withDocument d).tracker? = some t := (tracker?_withDocument hid).trans ht
  have hf' : (s.withDocument d).isForced = true := (isForced_withDocument hid).trans hf
  rw [undo_eq, hd]
  dsimp only
  refine ⟨(Marks.onUndone _).text, ?_⟩
  cases hm : (s.withDocument d).marker? with
  | none =>
    have hg : d.snapshot.markers.get? abbreviationMarker = none := hm
    rw [onUndone_of_forced ht' hm ((isForced_of_some ht').symm.trans hf'), hg]
    exact ⟨_, tracker?_hold (s.withDocument d) _, (isForced_of_some ht').symm.trans hf', rfl⟩
  | some m =>
    have hg : d.snapshot.markers.get? abbreviationMarker = some m := hm
    obtain ⟨t₁, ht₁, hr, hf₁⟩ := tracker?_onUndone_of_marker hm
    have hw : m.Within d.length := hfits m hg
    rw [hg]
    exact ⟨t₁, ht₁, hf₁.trans hf', hr.trans (Span.clamp_eq_self hw)⟩

end Session

namespace Opening

/-- **Undoing an expansion brings the abbreviation back.**  One undo after an expansion brings back the text, the
selection and a tracker on the region that was expanded; it reads what it read before just if the tracker expanded was
not forced or no marker leads abbreviations in. -/
theorem undo_expansion_iff (o : Opening) {steps : List Host.Step} (hs : ∀ st ∈ steps, st.keepsSettings = true) {i : Nat}
    {s : Session} (h : (o.host.run steps).session? i = some s) {t : Tracker} (ht : s.tracker? = some t)
    (hc : t.region.contains s.document.caret = true) (hw : s.document.readonly = false) {snippet : Text}
    (hx : s.expansion.2 = some snippet) :
    ∃ s', ((o.host.run steps).run [.on i (.command .expand), .on i .undo]).session? i = some s' ∧
      s'.document.text = s.document.text ∧ s'.document.selection = s.document.selection ∧
      ∃ t', s'.tracker? = some t' ∧ t'.region = t.region ∧
        (t'.reading = t.reading ↔ t.forced = false ∨ s.service.leadLength = 0) := by
  obtain ⟨sound, widget, unreported⟩ := (o.sound steps).of_session? h
  obtain ⟨led, -, -⟩ := (o.led hs).of_session? h
  exact ⟨_, Host.session?_run_on h [.command .expand, .undo],
    Session.undo_expansion ⟨sound, led, widget, unreported⟩ ht hc hw hx⟩

/-- A forced tracker on a text with a tab stop of its own: when the expansion is reported another tracker starts at that
stop, and the undo takes it to the region expanded. -/
theorem undo_expansion_iff_past_a_new_tracker :
    let o := ofTexts ⟨"html", true⟩ {} [[]]
    let steps : List Host.Step := [.on 0 (.type "b\x7b .$1\x7d".toList), .on 0 (.select 0 7), .on 0 (.command .enter),
      .on 0 (.select 4 4)]
    ∃ s t s' t', (o.host.run steps).session? 0 = some s ∧ s.tracker? = some t ∧ t.forced = true ∧
      (s.act (.command .expand)).tracker?.map (·.region) = some ⟨4, 5⟩ ∧
      (s.act (.command .expand)).document.text = "<b> .</b>".toList ∧
      ((o.host.run steps).run [.on 0 (.command .expand), .on 0 .undo]).session? 0 = some s' ∧
      s'.document.text = "b\x7b .$1\x7d".toList ∧ s'.document.selection = .point 4 ∧
      s'.tracker? = some t' ∧ t'.region = ⟨0, 7⟩ ∧ t'.reading = t.reading := by
  intro o steps
  let snippet := "<b> .$1</b>".toList
  have hc : ((o.host.run steps).session? 0).any (fun s => s.document.text = "b\x7b .$1\x7d".toList &&
      s.document.selection = .point 4 && !s.document.readonly && s.service.leadLength = 0 &&
      s.expansion.2 = some snippet && (s.act (.command .expand)).tracker?.map (·.region) = some ⟨4, 5⟩ &&
      (s.act (.command .expand)).document.text = "<b> .</b>".toList &&
      s.tracker?.any fun t => t.forced && t.region = ⟨0, 7⟩ && t.region.contains s.document.caret) = true := by
    decide +kernel
  obtain ⟨s, hs, hc⟩ := (Option.any_eq_true _ _).1 hc
  simp only [Bool.and_eq_true, decide_eq_true_eq, Bool.not_eq_true', Option.any_eq_true] at hc
  obtain ⟨⟨⟨⟨⟨⟨⟨hx, hl⟩, hw⟩, hlead⟩, he⟩, hnew⟩, hx'⟩, t, ht, ⟨hf, hr⟩, hcaret⟩ := hc
  obtain ⟨s', hs', htext, hsel, t', ht', hr', hiff⟩ := undo_expansion_iff o (by decide) hs ht hcaret hw he
  exact ⟨s, t, s', t', hs, ht, hf, hnew, hx', hs', htext.trans hx, hsel.trans hl, ht', hr'.trans hr,
    hiff.2 (.inr hlead)⟩

/-- **An abbreviation may come back as another one**: where a marker leads abbreviations in, one that was tracked on
request has none in front, and loses its first char to it when its expansion is undone. -/
theorem undo_expansion_reads_otherwise :
    ¬ ∀ (o : Opening) (steps : List Host.Step) (i : Nat) (s s' : Session) (t : Tracker) (snippet : Text),
      (∀ st ∈ steps, st.keepsSettings = true) → (o.host.run steps).session? i = some s → s.tracker? = some t →
      t.region.contains s.document.caret = true → s.document.readonly = false → s.expansion.2 = some snippet →
      ((o.host.run steps).run [.on i (.command .expand), .on i .undo]).session? i = some s' →
        s'.document.text = s.document.text ∧ s'.document.selection = s.document.selection ∧
        ∃ t', s'.tracker? = some t' ∧ t'.region = t.region ∧ t'.reading = t.reading := by
  intro h
  let o := ofTexts ⟨"jsx", true⟩ {} ["ul".toList]
  let steps : List Host.Step := [.on 0 (.select 0 2), .on 0 (.command .enter)]
  have hc : ((o.host.run steps).session? 0).any (fun s => !s.document.readonly &&
      s.expansion.2 = some "<ul>$\x7b1\x7d</ul>".toList &&
      s.tracker?.any fun t => t.region.contains s.document.caret && t.reading.text = "ul".toList) = true := by
    decide +kernel
  have hc' : (((o.host.run steps).run [.on 0 (.command .expand), .on 0 .undo]).session? 0).any (fun s' =>
      s'.tracker?.any (·.reading.text = "l".toList)) = true := by decide +kernel
  obtain ⟨s, hs, hc⟩ := (Option.any_eq_true _ _).1 hc
  obtain ⟨s', hs', hc'⟩ := (Option.any_eq_true _ _).1 hc'
  simp only [Bool.and_eq_true, decide_eq_true_eq, Bool.not_eq_true', Option.any_eq_true] at hc hc'
  obtain ⟨⟨hw, he⟩, t, ht, hcaret, hr⟩ := hc
  obtain ⟨t₁, ht₁, hr₁⟩ := hc'
  obtain ⟨-, -, t', ht', -, hread⟩ := h o steps 0 s s' t _ (by decide) hs ht hcaret hw he hs'
  cases ht₁.symm.trans ht'
  rw [hread, hr] at hr₁
  exact absurd hr₁ (by decide)

/-- **Undoing an edit made before a tracker was forced leaves the tracker on its region**, as far as that lies in the
text, just if no other region was marked when the edit was made. -/
theorem undo_keeps_forced_region_iff (o : Opening) (steps : List Host.Step) {i : Nat} {s : Session}
    (h : (o.host.run steps).session? i = some s) {t : Tracker} (ht : (s.act (.command .enter)).tracker? = some t)
    {snapshot : Snapshot} {history : List Snapshot} (hh : s.document.history = snapshot :: history) :
    ∃ s' t', ((o.host.run steps).run [.on i (.command .enter), .on i .undo]).session? i = some s' ∧
      s'.document.text = snapshot.text ∧ s'.tracker? = some t' ∧ t'.forced = true ∧
      (t'.region = t.region.clamp s'.document.length ↔
        ∀ m, snapshot.markers.get? abbreviationMarker = some m → m = t.region.clamp s'.document.length) := by
  obtain ⟨-, -, hu⟩ := (o.sound steps).of_session? h
  obtain ⟨hf, hh'⟩ := Session.command_enter_of_some hu ht
  have hs := (o.sound (steps ++ [.on i (.command .enter)])).of_session? (s := s.act (.command .enter)) (by
    unfold Host.run
    rw [List.foldl_append]
    exact Host.session?_run_on h [.command .enter])
  obtain ⟨htext, t', ht', hf', hr⟩ := Session.undo_of_forced hs.1 ht hf (hh'.trans hh)
  refine ⟨_, t', Host.session?_run_on h [.command .enter, .undo], htext, ht', hf', ?_⟩
  have hlen : ((s.act (.command .enter)).act .undo).document.length = snapshot.text.length := congrArg List.length htext
  dsimp only [List.foldl]
  rw [hlen, hr]
  cases snapshot.markers.get? abbreviationMarker with
  | none => simp
  | some m => simp

/-- An abbreviation was tracked before, but no more when the char was typed that the undo takes back; the region was
entered over all of the text, and ends where that does. -/
theorem undo_keeps_forced_region_iff_behind_another :
    let o := ofTexts ⟨"html", true⟩ {} ["hello".toList]
    let steps : List Host.Step := [.on 0 (.type " ul".toList), .on 0 (.command .clear), .on 0 (.type ['x']),
      .on 0 (.select 0 9)]
    ∃ s t s' t', (o.host.run steps).session? 0 = some s ∧ s.document.text = "hello ulx".toList ∧
      (s.act (.command .enter)).tracker? = some t ∧ t.region = ⟨0, 9⟩ ∧
      ((o.host.run steps).run [.on 0 (.command .enter), .on 0 .undo]).session? 0 = some s' ∧
      s'.document.text = "hello ul".toList ∧ s'.tracker? = some t' ∧ t'.forced = true ∧ t'.region = ⟨0, 8⟩ := by
  intro o steps
  have hc : ((o.host.run steps).session? 0).any (fun s => s.document.text = "hello ulx".toList &&
      s.document.history.head?.any (fun snapshot => snapshot.text = "hello ul".toList &&
        (snapshot.markers.get? abbreviationMarker).isNone) &&
      (s.act (.command .enter)).tracker?.any (·.region = ⟨0, 9⟩)) = true := by decide +kernel
  obtain ⟨s, hs, hc⟩ := (Option.any_eq_true _ _).1 hc
  simp only [Bool.and_eq_true, decide_eq_true_eq, Option.any_eq_true, Option.isNone_iff_eq_none] at hc
  obtain ⟨⟨hx, snapshot, hh, hxs, hm⟩, t, ht, hr⟩ := hc
  obtain ⟨history, hh⟩ := List.head?_eq_some_iff.1 hh
  obtain ⟨s', t', hs', htext, ht', hf, hiff⟩ := undo_keeps_forced_region_iff o steps hs ht hh
  have hreg := hiff.2 fun m hg => by rw [hm] at hg; cases hg
  unfold Document.length at hreg
  rw [htext.trans hxs, hr] at hreg
  exact ⟨s, t, s', t', hs, hx, ht, hr, hs', htext.trans hxs, ht', hf, hreg⟩

/-- **A forced tracker may be moved to where another one was**: when a char of an abbreviation that was being typed is
taken back after something else has been entered. -/
theorem undo_moves_forced_region :
    ¬ ∀ (o : Opening) (steps : List Host.Step) (i : Nat) (s s' : Session) (t : Tracker) (snapshot : Snapshot)
        (history : List Snapshot), (o.host.run steps).session? i = some s →
      (s.act (.command .enter)).tracker? = some t → s.document.history = snapshot :: history →
      ((o.host.run steps).run [.on i (.command .enter), .on i .undo]).session? i = some s' →
        ∃ t', s'.tracker? = some t' ∧ t'.forced = true ∧ t'.region = t.region.clamp s'.document.length := by
  intro h
  let o := ofTexts ⟨"html", true⟩ {} ["x ".toList]
  let steps : List Host.Step := [.on 0 (.type "ab".toList), .on 0 (.select 0 1)]
  have hc : ((o.host.run steps).session? 0).any (fun s => s.document.history.head?.isSome &&
      (s.act (.command .enter)).tracker?.any (·.region = ⟨0, 1⟩)) = true := by decide +kernel
  have hc' : (((o.host.run steps).run [.on 0 (.command .enter), .on 0 .undo]).session? 0).any (fun s' =>
      s'.document.length = 3 && s'.tracker?.any (·.region = ⟨2, 3⟩)) = true := by decide +kernel
  obtain ⟨s, hs, hc⟩ := (Option.any_eq_true _ _).1 hc
  obtain ⟨s', hs', hc'⟩ := (Option.any_eq_true _ _).1 hc'
  simp only [Bool.and_eq_true, decide_eq_true_eq, Option.any_eq_true, Option.isSome_iff_exists] at hc hc'
  obtain ⟨⟨snapshot, hh⟩, t, ht, hr⟩ := hc
  obtain ⟨hlen, t₁, ht₁, hr₁⟩ := hc'
  obtain ⟨history, hh⟩ := List.head?_eq_some_iff.1 hh
  obtain ⟨t', ht', -, hreg⟩ := h o steps 0 s s' t snapshot history hs ht hh hs'
  cases ht₁.symm.trans ht'
  rw [hr₁, hr, hlen] at hreg
  exact absurd hreg (by decide)

end Opening
end Shorthand
