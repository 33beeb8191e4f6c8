import Shorthand.Proofs.Host.Run
/-!
# Sound sessions

A session is sound when the marker stands on the region of the tracker, the region lies in the text and has been read as
it stands there, and the same will be so after an undo: the markers of the history lie in the texts that they come back
with (`Sound`).  Every move of the service keeps a session sound (`invariant_sound`).
-/
namespace Shorthand

/-- **The tracker's region lies in `text`, and what stands there is what was read last.** -/
structure Tracker.ReadsIn (t : Tracker) (text : Text) : Prop where
  within : t.region.Within text.length
  fresh : t.reading = .of Abbreviation.read (t.abbreviationSpan.textIn text)

/-- The abbreviation marker lies in the text that it comes back with. -/
def Snapshot.Fits (s : Snapshot) : Prop :=
  ∀ m, s.markers.get? abbreviationMarker = some m → m.Within s.text.length

namespace Reading

variable {read : Reader} {text : Text}

theorem of_ok {nodes : List Abbreviation.Node} (hn : text ≠ []) (h : read text = .ok nodes) :
    of read text = .valid text nodes := by
  obtain ⟨c, t, rfl⟩ := List.exists_cons_of_ne_nil hn
  rw [of_cons, h]

theorem of_error {error : Abbreviation.ReadError} (hn : text ≠ []) (h : read text = .error error) :
    of read text = .invalid text error := by
  obtain ⟨c, t, rfl⟩ := List.exists_cons_of_ne_nil hn
  rw [of_cons, h]

theorem of_eq_empty_iff : of read text = .empty ↔ text = [] := by
  constructor
  · intro h
    by_contra hn
    cases hr : read text with
    | ok nodes => rw [of_ok hn hr] at h; cases h
    | error error => rw [of_error hn hr] at h; cases h
  · rintro rfl
    rfl

end Reading

/-- The stretch of the abbreviation proper runs from behind the marker, or from the end of the region where the region
is shorter. -/
theorem Tracker.textIn_abbreviationSpan (t : Tracker) (text : Text) :
    t.abbreviationSpan.textIn text = text.slice (min (t.region.start + t.offset) t.region.stop) t.region.stop := by
  unfold abbreviationSpan Span.between Span.textIn
  rw [Nat.min_eq_left (Nat.min_le_right _ _), Nat.max_eq_right (Nat.min_le_right _ _)]

namespace Tracker

variable {t t' : Tracker} {text : Text}

theorem abbreviationSpan_within {length : Nat} (h : t.region.Within length) : t.abbreviationSpan.Within length := by
  obtain ⟨h₁, h₂⟩ := h
  simp only [abbreviationSpan, Span.between, Span.Within]
  omega

/-- A tracker on a stretch of the text reads what stands there. -/
theorem reading_reread (read : Reader) (h : t.region.Within text.length) :
    (t.reread read text).reading = .of read (t.abbreviationSpan.textIn text) := by
  have hw : t.abbreviationSpan.Within text.length := abbreviationSpan_within h
  unfold reread
  dsimp only
  rw [Span.clamp_eq_self hw]

theorem readsIn_reread (h : t.region.Within text.length) : (t.reread Abbreviation.read text).ReadsIn text :=
  ⟨h, reading_reread Abbreviation.read h⟩

theorem region_eq_of_core (h : t'.core = t.core) : t'.region = t.region := congrArg (·.1) h

theorem forced_eq_of_core (h : t'.core = t.core) : t'.forced = t.forced := congrArg (·.2.1) h

theorem offset_eq_of_core (h : t'.core = t.core) : t'.offset = t.offset := congrArg (·.2.2.1) h

theorem reading_eq_of_core (h : t'.core = t.core) : t'.reading = t.reading := congrArg (·.2.2.2) h

theorem ReadsIn.of_core (h : t.ReadsIn text) (hc : t'.core = t.core) : t'.ReadsIn text := by
  refine ⟨region_eq_of_core hc ▸ h.within, ?_⟩
  have hs : t'.abbreviationSpan = t.abbreviationSpan := by
    unfold abbreviationSpan
    rw [region_eq_of_core hc, offset_eq_of_core hc]
  rw [reading_eq_of_core hc, hs]
  exact h.fresh

end Tracker

namespace Session

variable {s s' : Session} {t : Tracker} {p : Patch} {d : Document}

/-- **Tracker, marker and text agree**, and will do so after an undo. -/
structure Sound (s : Session) : Prop where
  marked : s.marker? = s.tracker?.map (·.region)
  reads : ∀ t, s.tracker? = some t → t.ReadsIn s.document.text
  history : ∀ snapshot ∈ s.document.history, snapshot.Fits

theorem readsIn_readAt (s : Session) (t : Tracker) {region : Span} (h : region.start ≤ region.stop) :
    (s.readAt t region).ReadsIn s.document.text :=
  Tracker.readsIn_reread (Span.clamp_within h s.document.length)

/-- **What a tracker moved to a region of the text reads there.** -/
theorem reading_readAt (s : Session) (t : Tracker) {region : Span} (hw : region.Within s.document.length) :
    (s.readAt t region).reading =
      .of Abbreviation.read (s.document.text.slice (min (region.start + t.offset) region.stop) region.stop) := by
  have hr : (s.readAt t region).region = region := Span.clamp_eq_self hw
  have hf := (readsIn_readAt s t hw.1).fresh
  rw [Tracker.textIn_abbreviationSpan, hr] at hf
  exact hf

namespace Sound

theorem marker?_eq (h : s.Sound) : s.marker? = (s.tracker?.map Tracker.core).map (·.1) := by
  rw [h.marked, Option.map_map]
  rfl

theorem marker_within (h : s.Sound) {m : Span} (hm : s.marker? = some m) : m.Within s.document.length := by
  rw [h.marked] at hm
  obtain ⟨t, ht, rfl⟩ := Option.map_eq_some_iff.1 hm
  exact (h.reads t ht).within

theorem snapshot_fits (h : s.Sound) : s.document.snapshot.Fits := fun _ hm => h.marker_within hm

theorem hold (hh : ∀ snapshot ∈ s.document.history, snapshot.Fits) (ht : t.ReadsIn s.document.text) :
    (s.hold t).Sound where
  marked := by rw [marker?_hold, tracker?_hold]; rfl
  reads t' ht' := by
    rw [tracker?_hold] at ht'
    cases ht'
    exact ht
  history := hh

theorem stop (hh : ∀ snapshot ∈ s.document.history, snapshot.Fits) : s.stop.Sound where
  marked := by rw [marker?_stop, tracker?_stop]; rfl
  reads t ht := by rw [tracker?_stop] at ht; cases ht
  history := hh

theorem of_none (ht : s.tracker? = none) (hm : s.marker? = none)
    (hh : ∀ snapshot ∈ s.document.history, snapshot.Fits) : s.Sound where
  marked := by rw [hm, ht]; rfl
  reads t ht' := by rw [ht] at ht'; cases ht'
  history := hh

theorem quiet (h : s.Sound) (hq : s.Quiet s') : s'.Sound where
  marked := by
    have hm : s'.marker? = s.marker? := congrArg (·.get? abbreviationMarker) hq.markers
    rw [hm, h.marker?_eq, ← hq.core, Option.map_map]
    rfl
  reads t' ht' := by
    have hc := hq.core
    rw [ht', Option.map_some] at hc
    obtain ⟨t, ht, hc⟩ := Option.map_eq_some_iff.1 hc.symm
    exact hq.text ▸ (h.reads t ht).of_core hc.symm
  history := hq.history ▸ h.history

theorem start (hh : ∀ snapshot ∈ s.document.history, snapshot.Fits) {span : Span} (ho : span.start ≤ span.stop)
    (forced : Bool) (offset : Nat) (options : Abbreviation.Options) : (s.start span forced offset options).Sound := by
  rw [start_eq_hold]
  exact hold hh (readsIn_readAt s _ ho)

theorem history_of_takes (h : s.Sound) (ht : s.document.Takes p d) : ∀ snapshot ∈ d.history, snapshot.Fits := by
  intro snapshot hs
  rcases ht.mem_history hs with rfl | hs
  · exact h.snapshot_fits
  · exact h.history snapshot hs

theorem followEdit (h : s.Sound) (hd : s.document.Takes p d) : ((s.withDocument d).followEdit p).Sound := by
  have hh := h.history_of_takes hd
  have hid : (s.withDocument d).tracker? = s.tracker? := tracker?_withDocument hd.id_eq
  rcases followEdit_cases (s.withDocument d) p with ⟨ht, he⟩ | ⟨t, -, -, he⟩ | ⟨t, ht, -, he⟩ <;> rw [he]
  · refine of_none ht ?_ hh
    have hm : s.document.marker? abbreviationMarker = none := h.marked.trans (by rw [← hid, ht]; rfl)
    exact (hd.marker?_eq abbreviationMarker).trans (by rw [hm]; rfl)
  · exact stop hh
  · exact hold hh (Tracker.readsIn_reread (hd.within (h.reads t (hid ▸ ht)).within))

theorem onUndone (hm : ∀ m, s.marker? = some m → m.Within s.document.length)
    (ht : ∀ t, s.tracker? = some t → t.region.start ≤ t.region.stop)
    (hh : ∀ snapshot ∈ s.document.history, snapshot.Fits) : s.onUndone.Sound := by
  rcases onUndone_cases s with ⟨ht', hm', hu⟩ | ⟨m, -, hm', hu⟩ | ⟨t, m, -, hm', hu⟩ | ⟨t, ht', -, -, hu⟩ |
    ⟨t, -, -, -, hu⟩ <;> rw [hu]
  · exact of_none ht' hm' hh
  · exact (start hh (hm m hm').1 _ _ _).quiet ((Quiet.showPreview _).trans (.noteCaret _))
  · have hw := hm m hm'
    refine quiet (s := s.withTracker (s.readAt t m)) ⟨?_, fun t' ht' => ?_, hh⟩ (.noteCaret _)
    · rw [marker?_withTracker, tracker?_withTracker, hm']
      exact congrArg some (Span.clamp_eq_self hw).symm
    · rw [tracker?_withTracker] at ht'
      cases ht'
      exact readsIn_readAt s t hw.1
  · exact (hold hh (readsIn_readAt s t (ht t ht'))).quiet (.noteCaret _)
  · exact (stop hh).quiet (.noteCaret _)

theorem undone (h : s.Sound) (hd : d = s.document ∨ s.document.undo? = some d) :
    (s.withDocument d).onUndone.Sound := by
  have ho : ∀ t, (s.withDocument d).tracker? = some t → t.region.start ≤ t.region.stop := fun t ht =>
    (h.reads t ((tracker?_withDocument (Keeps.of_undo? hd).id).symm.trans ht)).within.1
  rcases hd with rfl | hd
  · exact onUndone (fun m hm => h.marker_within hm) ho h.history
  · unfold Document.undo? at hd
    split at hd
    · cases hd
    · next snapshot history hs =>
      cases hd
      have hf := h.history
      rw [hs] at hf
      exact onUndone (hf snapshot List.mem_cons_self) ho fun s' hs' => hf s' (List.mem_cons_of_mem _ hs')

end Sound

theorem Moves.sound (h : s.Moves s') (hs : s.Sound) : s'.Sound := by
  cases h with
  | quiet same => exact hs.quiet same
  | stop => exact .stop hs.history
  | start ordered _ => exact .start hs.history ordered _ _ _
  | edit takes => exact hs.followEdit takes
  | replace takes => exact .stop (hs.history_of_takes takes)
  | undone back => exact hs.undone back

theorem invariant_sound : Invariant Sound where
  opened hd ht := .of_none ht hd.marker fun snapshot hs m hm => by
    rw [hd.history snapshot hs] at hm
    cases hm
  moves := Moves.sound
  own hd ht _ _ hs := ⟨by unfold marker?; rw [hd, ht]; exact hs.marked, by rw [hd, ht]; exact hs.reads,
    by rw [hd]; exact hs.history⟩

end Session

theorem Host.Holds.step_sound {h : Host} (hh : h.Holds Session.Sound) (st : Host.Step) :
    (h.step st).Holds Session.Sound := by
  cases st with
  | on i a => exact hh.step_on Session.invariant_sound.toKept i a
  | choose settings => exact hh.choose (fun _ hs => ⟨hs.marked, hs.reads, hs.history⟩) settings

/-- **Every session of a run is sound**, whatever the settings are changed to. -/
theorem Opening.sound (o : Opening) (steps : List Host.Step) : (o.host.run steps).Holds Session.Sound :=
  o.holds_run Session.invariant_sound steps fun _ _ _ _ _ hs => ⟨hs.marked, hs.reads, hs.history⟩

end Shorthand
