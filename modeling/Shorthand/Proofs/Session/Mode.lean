import Shorthand.Proofs.Session.Sound
/-!
# The mode of a tracker and its offset

Reporting an edit neither ends a forced tracker nor starts one (`isForced_report`), unless the patch has not led to the
text at hand: then every tracker ends (`isForced_report_of_mismatch`).  As long as the settings stay, the offset of a
tracker follows from its mode: none for a forced one, the length of the marker that leads abbreviations in for any other
(`invariant_led`).
-/
namespace Shorthand

namespace Session

variable {s s' : Session} {t : Tracker} {p : Patch} {d : Document}

/-! ## Forced trackers -/

def isForced (s : Session) : Bool := s.tracker?.any (·.forced)

theorem isForced_of_none (h : s.tracker? = none) : s.isForced = false := by
  unfold isForced
  rw [h]
  rfl

theorem isForced_of_some (h : s.tracker? = some t) : s.isForced = t.forced := by
  unfold isForced
  rw [h]
  rfl

theorem isForced_of_core (h : s'.tracker?.map Tracker.core = s.tracker?.map Tracker.core) :
    s'.isForced = s.isForced := by
  have hc : ∀ s : Session, s.isForced = (s.tracker?.map Tracker.core).any (·.2.1) := fun s => by
    unfold isForced
    rw [Option.any_map]
    rfl
  rw [hc, hc, h]

theorem isForced_quiet (h : s.Quiet s') : s'.isForced = s.isForced := isForced_of_core h.core

theorem isForced_withDocument (h : d.id = s.document.id) : (s.withDocument d).isForced = s.isForced :=
  isForced_of_core (congrArg _ (tracker?_withDocument h))

theorem isForced_followEdit (hl : p.lengthAfter = s.document.length) : (s.followEdit p).isForced = s.isForced := by
  rcases followEdit_cases s p with ⟨-, h⟩ | ⟨t, ht, hf, h⟩ | ⟨t, ht, -, h⟩ <;> rw [h]
  · rw [isForced_of_none (tracker?_stop s), isForced_of_some ht, hf hl]
  · rw [isForced_of_some (tracker?_hold s _), isForced_of_some ht]
    rfl

theorem isForced_followEdit_of_mismatch (hl : p.lengthAfter ≠ s.document.length) :
    (s.followEdit p).isForced = false := by
  cases ht : s.tracker? with
  | none => rw [followEdit_of_none ht, isForced_of_none ht]
  | some t => rw [followEdit_of_mismatch ht hl, isForced_of_none (tracker?_stop s)]

theorem isForced_startIfTyped (s : Session) : s.startIfTyped.isForced = s.isForced := by
  rcases startIfTyped_cases s with h | ⟨span, offset, options, ht, -, -, h⟩ <;> rw [h]
  rw [isForced_of_none ht, start_eq_hold, isForced_of_some (tracker?_hold s _)]
  rfl

theorem isForced_stopIfInvalid (s : Session) : s.stopIfInvalid.isForced = s.isForced := by
  rcases stopIfInvalid_cases s with h | ⟨t, ht, hf, h⟩ <;> rw [h]
  rw [isForced_of_none (tracker?_stop s), isForced_of_some ht, hf]

/-- What follows on the edit in the same report starts and ends no forced tracker. -/
theorem isForced_report_eq (s : Session) (p : Patch) :
    (s.report p).isForced = if s.document.widget then s.isForced else (s.followEdit p).isForced := by
  have hq : (s.report p).isForced = (s.onModified p).isForced := isForced_quiet (.onSelectionModified (s.onModified p))
  have hn : ∀ s : Session, s.noteCaret.isForced = s.isForced := fun _ => rfl
  rw [hq]
  unfold onModified
  split
  · rfl
  · rw [hn, isForced_stopIfInvalid, isForced_startIfTyped]

/-- **The report of an edit neither ends a forced tracker nor starts one.** -/
theorem isForced_report (hl : p.lengthAfter = s.document.length) : (s.report p).isForced = s.isForced := by
  rw [isForced_report_eq, isForced_followEdit hl, ite_self]

/-- **The report of a patch that has not led to the text at hand leaves no forced tracker.** -/
theorem isForced_report_of_mismatch (hw : s.document.widget = false) (hl : p.lengthAfter ≠ s.document.length) :
    (s.report p).isForced = false := by
  rw [isForced_report_eq, hw, if_neg Bool.false_ne_true, isForced_followEdit_of_mismatch hl]

theorem isForced_takes (h : s.document.Takes p d) (hl : p.length = s.document.length) :
    ((s.withDocument d).report p).isForced = s.isForced := by
  rw [isForced_report (h.lengthAfter_eq hl), isForced_withDocument h.id_eq]

/-! ## Offsets -/

/-- The tracker starts with the marker that leads abbreviations in, unless it is forced. -/
def Led (s : Session) : Prop :=
  ∀ t, s.tracker? = some t → t.offset = if t.forced then 0 else s.service.leadLength

theorem Keeps.leadLength (h : s.Keeps s') : s'.service.leadLength = s.service.leadLength := by
  unfold Service.leadLength Service.lead?
  rw [h.dialect, h.settings]

namespace Led

theorem of_none (h : s.tracker? = none) : s.Led := fun t ht => by rw [h] at ht; cases ht

theorem of_some (h : s.Led) (ht : s.tracker? = some t) (hk : s.Keeps s') {t' : Tracker} (ht' : s'.tracker? = some t')
    (hf : t'.forced = t.forced) (ho : t'.offset = t.offset) : s'.Led := by
  intro t₁ ht₁
  rw [ht'] at ht₁
  cases ht₁
  rw [ho, hf, hk.leadLength]
  exact h t ht

theorem quiet (h : s.Led) (hq : s.Quiet s') : s'.Led := by
  intro t' ht'
  have hc := hq.core
  rw [ht', Option.map_some] at hc
  obtain ⟨t, ht, hc⟩ := Option.map_eq_some_iff.1 hc.symm
  rw [Tracker.offset_eq_of_core hc.symm, Tracker.forced_eq_of_core hc.symm, hq.toKeeps.leadLength]
  exact h t ht

theorem start {span : Span} {forced : Bool} {offset : Nat} (options : Abbreviation.Options)
    (ho : offset = if forced then 0 else s.service.leadLength) : (s.start span forced offset options).Led := by
  intro t ht
  rw [(Keeps.start s span forced offset options).leadLength]
  rw [start_eq_hold, tracker?_hold] at ht
  cases ht
  exact ho

theorem followEdit (h : s.Led) (p : Patch) : (s.followEdit p).Led := by
  rcases followEdit_cases s p with ⟨-, he⟩ | ⟨t, -, -, he⟩ | ⟨t, ht, -, he⟩ <;> rw [he]
  · exact h
  · exact of_none (tracker?_stop s)
  · exact h.of_some ht (.hold s _) (tracker?_hold s _) rfl rfl

theorem onUndone (h : s.Led) : s.onUndone.Led := by
  rcases onUndone_cases s with ⟨-, -, hu⟩ | ⟨m, -, -, hu⟩ | ⟨t, m, ht, -, hu⟩ | ⟨t, ht, -, -, hu⟩ | ⟨t, -, -, -, hu⟩ <;>
    rw [hu]
  · exact h.quiet (.noteCaret s)
  · exact (start _ rfl).quiet ((Quiet.showPreview _).trans (.noteCaret _))
  · have hk := Keeps.withTracker s (s.readAt t m)
    exact (h.of_some ht hk (tracker?_withTracker s (s.readAt t m)) rfl rfl).quiet (.noteCaret _)
  · have hk := Keeps.hold s (s.readAt t t.region)
    exact (h.of_some ht hk (tracker?_hold s (s.readAt t t.region)) rfl rfl).quiet (.noteCaret _)
  · exact (of_none (tracker?_stop s)).quiet (.noteCaret _)

theorem withDocument (h : s.Led) (hid : d.id = s.document.id) : (s.withDocument d).Led := fun t ht =>
  h t ((tracker?_withDocument hid).symm.trans ht)

end Led

theorem Moves.led (h : s.Moves s') (hs : s.Led) : s'.Led := by
  cases h with
  | quiet same => exact hs.quiet same
  | stop => exact .of_none (tracker?_stop s)
  | start _ offset_eq => exact .start _ offset_eq
  | edit takes => exact (hs.withDocument takes.id_eq).followEdit _
  | replace takes => exact .of_none (tracker?_stop _)
  | undone back => exact (hs.withDocument (Keeps.of_undo? back).id).onUndone

theorem invariant_led : Invariant Led where
  opened _ ht := .of_none ht
  moves := Moves.led
  own _ ht hd hs h t ht' := by
    unfold Service.leadLength Service.lead?
    rw [hd, hs]
    exact h t (ht ▸ ht')

end Session

/-- **The offset of every tracker follows from its mode**, in a run with the same settings throughout. -/
theorem Opening.led (o : Opening) {steps : List Host.Step} (hs : ∀ st ∈ steps, st.keepsSettings = true) :
    (o.host.run steps).Holds Session.Led :=
  o.holds_run Session.invariant_led steps fun st hst h => by rw [hs st hst] at h; cases h

end Shorthand
