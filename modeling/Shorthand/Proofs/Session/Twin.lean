import Shorthand.Proofs.Session.Tending
/-!
# Sessions in step

Two sessions are twins (`Twin`) when they show the same of the document in hand: the document, where its caret was last,
and its tracker, up to the element that has been looked up for it.  What the service keeps for other documents may be
anything in the second, and is in the first what it is in a third session.  Whatever the service is told, twins stay
twins and answer alike, as long as they would expand in the same element (`Agree`).

With trackers that are quite the same (`Twin Eq`) this tells that other documents neither matter to what is done nor are
touched by it.  With trackers that may know different elements it tells what looking elements up has to do with the
documents: nothing until something is expanded.
-/
namespace Shorthand

open Abbreviation (Context Options enclosing? locate?)

namespace Tracker

variable {C : Option Context → Option Context → Prop} {t t' : Tracker}

/-- **`t'` is `t` up to the element around it**; what the two know of that is related by `C`. -/
structure Like (C : Option Context → Option Context → Prop) (t t' : Tracker) : Prop where
  rest : t' = { t with options.context := t'.options.context }
  context : C t.options.context t'.options.context

namespace Like

theorem of_context {c : Option Context} (h : C t.options.context c) : Like C t { t with options.context := c } :=
  ⟨rfl, h⟩

theorem refl [Std.Refl C] (t : Tracker) : Like C t t := ⟨rfl, Std.Refl.refl _⟩

theorem eq (h : Like Eq t t') : t' = t := by
  rw [h.rest, ← h.context]

theorem region (h : Like C t t') : t'.region = t.region := by rw [h.rest]

theorem forced (h : Like C t t') : t'.forced = t.forced := by rw [h.rest]

theorem reading (h : Like C t t') : t'.reading = t.reading := by rw [h.rest]

/-- What is done to the one without regard to the element around it is done to the other. -/
theorem map {f : Tracker → Tracker} (h : Like C t t')
    (hf : ∀ c, f { t with options.context := c } = { f t with options.context := c })
    (hc : (f t).options.context = t.options.context) : Like C (f t) (f t') := by
  have ht : f t' = { f t with options.context := t'.options.context } := (congrArg f h.rest).trans (hf _)
  rw [ht]
  exact of_context (by rw [hc]; exact h.context)

theorem preview (h : Like C t t') (visible : Bool) : Like C (t.preview visible) (t'.preview visible) :=
  h.map (f := (·.preview visible)) (fun _ => rfl) rfl

end Like
end Tracker

namespace Session

variable {α : Type} {C : Option Context → Option Context → Prop} {b s a : Session} {t t' : Tracker} {d : Document}
  {p : Patch}

/-- **`s` and `a` show the same of the document in hand**, its trackers being the same up to what `C` allows them to
know, and for the other documents `s` keeps what `b` keeps.  Of the settings only the length from which on a document is
too long may differ. -/
structure Twin (C : Option Context → Option Context → Prop) (b s a : Session) : Prop where
  id : s.document.id = b.document.id
  document : a.document = s.document
  dialect : s.service.dialect = b.service.dialect
  dialect' : a.service.dialect = b.service.dialect
  settings : s.service.settings = b.service.settings
  settings' : a.service.settings = { b.service.settings with contextSizeLimit := a.service.settings.contextSizeLimit }
  captures : ∀ (length : Nat) (found : Option Context),
    C (if s.service.settings.capturesContext length then found else none)
      (if a.service.settings.capturesContext length then found else none)
  asked : s.service.completionAsked = b.service.completionAsked
  asked' : a.service.completionAsked = b.service.completionAsked
  tracked : Option.Rel (Tracker.Like C) s.tracker? a.tracker?
  caret : a.service.carets.get? s.document.id = s.service.carets.get? s.document.id
  trackers : ∀ other, other ≠ s.document.id → s.service.trackers.get? other = b.service.trackers.get? other
  carets : ∀ other, other ≠ s.document.id → s.service.carets.get? other = b.service.carets.get? other

/-- Twins that come with the same answer. -/
def Twins (C : Option Context → Option Context → Prop) (b : Session) (r r' : Session × α) : Prop :=
  Twin C b r.1 r'.1 ∧ r'.2 = r.2

/-- **The trackers of both would expand in the same element**, whether that is known or has to be looked up. -/
def Agree (s a : Session) : Prop :=
  ∀ t t', s.tracker? = some t → a.tracker? = some t' →
    t'.locateContext a.document.text = t.locateContext s.document.text

theorem Agree.of_none (h : s.tracker? = none) : s.Agree a := by
  intro t t' ht
  rw [h] at ht
  cases ht

theorem askCompletion_of_unasked (h : b.service.completionAsked = false) : b.askCompletion false = b := by
  unfold askCompletion
  rw [← h]

theorem Twins.of_eq {r r' : Session × α} (h : Twins C b r r') {s : Session} {x : α} (hr : r = (s, x)) :
    ∃ a, r' = (a, x) ∧ Twin C b s a := by
  subst hr
  exact ⟨r'.1, Prod.ext rfl h.2, h.1⟩

namespace Twin

/-! ## What twins agree on -/

theorem autoMark (h : Twin C b s a) : a.service.settings.autoMark = s.service.settings.autoMark := by
  rw [h.settings', h.settings]

theorem tabExpand (h : Twin C b s a) : a.service.settings.tabExpand = s.service.settings.tabExpand := by
  rw [h.settings', h.settings]

theorem allowsTracking (h : Twin C b s a) : a.service.allowsTracking = s.service.allowsTracking := by
  unfold Service.allowsTracking
  rw [h.dialect, h.dialect', h.autoMark]

theorem lead? (h : Twin C b s a) : a.service.lead? = s.service.lead? := by
  unfold Service.lead?
  rw [h.dialect, h.dialect', h.settings, h.settings']

theorem optionsAt (h : Twin C b s a) (pos : Nat) (withContext : Bool) :
    a.optionsAt pos withContext = s.optionsAt pos withContext := by
  unfold Session.optionsAt
  rw [h.document, h.lead?, h.dialect, h.dialect']

theorem marker? (h : Twin C b s a) : a.marker? = s.marker? := congrArg (·.marker? abbreviationMarker) h.document

theorem readAt (h : Twin C b s a) (t : Tracker) (region : Span) : a.readAt t region = s.readAt t region := by
  unfold Session.readAt
  rw [h.document]

theorem tracker_cases (h : Twin C b s a) : s.tracker? = none ∧ a.tracker? = none ∨
    ∃ t t', s.tracker? = some t ∧ a.tracker? = some t' ∧ Tracker.Like C t t' := by
  have ht := h.tracked
  generalize s.tracker? = x, a.tracker? = y at ht ⊢
  cases ht with
  | none => exact .inl ⟨rfl, rfl⟩
  | some hl => exact .inr ⟨_, _, rfl, rfl, hl⟩

theorem tracker_none (h : Twin C b s a) (ht : s.tracker? = none) : a.tracker? = none := by
  rcases h.tracker_cases with ⟨-, ht'⟩ | ⟨t, t', he, -, -⟩
  · exact ht'
  · rw [ht] at he
    cases he

theorem tracker_some (h : Twin C b s a) (ht : s.tracker? = some t) :
    ∃ t', a.tracker? = some t' ∧ Tracker.Like C t t' := by
  rcases h.tracker_cases with ⟨he, -⟩ | ⟨t₀, t', he, ht', hl⟩
  · rw [ht] at he
    cases he
  · cases ht.symm.trans he
    exact ⟨t', ht', hl⟩

theorem tracker (h : Twin Eq b s a) : a.tracker? = s.tracker? := by
  rcases h.tracker_cases with ⟨ht, ht'⟩ | ⟨t, t', ht, ht', hl⟩
  · rw [ht, ht']
  · rw [ht, ht', hl.eq]

/-- Trackers that know the same agree. -/
theorem agree (h : Twin Eq b s a) : s.Agree a := by
  intro t t' ht ht'
  rw [h.tracker, ht] at ht'
  cases ht'
  rw [h.document]

/-! ## Changes to what is kept for one document -/

theorem withTracker (h : Twin C b s a) (hl : Tracker.Like C t t') :
    Twin C b (s.withTracker t) (a.withTracker t') :=
  { h with
    tracked := by
      rw [tracker?_withTracker, tracker?_withTracker]
      exact .some hl
    trackers other ho := by
      change (s.service.trackers.insert s.document.id t).get? other = _
      rw [Keyed.get?_insert]
      exact (if_neg ho).trans (h.trackers other ho) }

theorem withDocument (h : Twin C b s a) (hd : d.id = s.document.id) : Twin C b (s.withDocument d) (a.withDocument d) :=
  { h with
    id := hd.trans h.id
    document := rfl
    tracked := by
      have hd' : d.id = a.document.id := by rw [h.document, hd]
      rw [tracker?_withDocument hd, tracker?_withDocument hd']
      exact h.tracked
    caret := by
      change a.service.carets.get? d.id = s.service.carets.get? d.id
      rw [hd]
      exact h.caret
    trackers other ho := h.trackers other (hd ▸ ho)
    carets other ho := h.carets other (hd ▸ ho) }

theorem stop (h : Twin C b s a) : Twin C b s.stop a.stop :=
  { h with
    document := congrArg (·.clearMarker abbreviationMarker) h.document
    tracked := by
      rw [tracker?_stop, tracker?_stop]
      exact .none
    trackers other ho := by
      change (s.service.trackers.erase s.document.id).get? other = _
      rw [Keyed.get?_erase]
      exact (if_neg ho).trans (h.trackers other ho) }

theorem noteCaret (h : Twin C b s a) : Twin C b s.noteCaret a.noteCaret :=
  { h with
    caret := by
      change (a.service.carets.insert a.document.id a.document.caret).get? s.document.id =
        (s.service.carets.insert s.document.id s.document.caret).get? s.document.id
      rw [h.document, Keyed.get?_insert, Keyed.get?_insert, if_pos rfl, if_pos rfl]
    carets other ho := by
      change (s.service.carets.insert s.document.id s.document.caret).get? other = _
      rw [Keyed.get?_insert]
      exact (if_neg ho).trans (h.carets other ho) }

theorem forgetCaret (h : Twin C b s a) :
    Twin C b { s with service.carets := s.service.carets.erase s.document.id }
      { a with service.carets := a.service.carets.erase a.document.id } :=
  { h with
    caret := by
      change (a.service.carets.erase a.document.id).get? s.document.id =
        (s.service.carets.erase s.document.id).get? s.document.id
      rw [h.document, Keyed.get?_erase, Keyed.get?_erase, if_pos rfl, if_pos rfl]
    carets other ho := by
      change (s.service.carets.erase s.document.id).get? other = _
      rw [Keyed.get?_erase]
      exact (if_neg ho).trans (h.carets other ho) }

theorem askCompletion (h : Twin C b s a) (asked : Bool) :
    Twin C (b.askCompletion asked) (s.askCompletion asked) (a.askCompletion asked) :=
  { h with asked := rfl, asked' := rfl }

/-- Telling the document apart from the service: what is done to the document goes by the document. -/
theorem mapDocument (h : Twin C b s a) {f : Document → Document} (hf : (f s.document).id = s.document.id) :
    Twin C b (s.withDocument (f s.document)) (a.withDocument (f a.document)) := by
  rw [h.document]
  exact h.withDocument hf

theorem setMarker (h : Twin C b s a) (span : Span) : Twin C b (s.setMarker span) (a.setMarker span) :=
  h.mapDocument (f := (·.setMarker abbreviationMarker span)) rfl

theorem hold (h : Twin C b s a) (hl : Tracker.Like C t t') : Twin C b (s.hold t) (a.hold t') := by
  unfold Session.hold
  rw [hl.region]
  exact (h.withTracker hl).setMarker t.region

theorem showPreview (h : Twin C b s a) : Twin C b s.showPreview a.showPreview := by
  unfold Session.showPreview
  rcases h.tracker_cases with ⟨ht, ht'⟩ | ⟨t, t', ht, ht', hl⟩ <;> rw [ht, ht']
  · exact h
  · exact h.withTracker (hl.preview true)

/-! ## Starting -/

theorem start (h : Twin C b s a) (span : Span) (forced : Bool) (offset : Nat) {o : Options} {c : Option Context}
    (hc : C o.context c) :
    Twin C b (s.start span forced offset o) (a.start span forced offset { o with context := c }) := by
  rw [start_eq_hold, start_eq_hold, h.readAt]
  exact h.hold (.of_context hc)

/-- A tracker that knows the element around it as far as the settings want it to. -/
theorem startCapturing (h : Twin C b s a) (span : Span) (forced : Bool) (offset pos length : Nat) :
    Twin C b (s.start span forced offset (s.optionsAt pos (s.service.settings.capturesContext length)))
      (a.start span forced offset (a.optionsAt pos (a.service.settings.capturesContext length))) := by
  rw [h.optionsAt]
  exact h.start span forced offset (h.captures length (enclosing? s.document.text pos s.service.dialect.name))

theorem startTyped? (h : Twin C b s a) (pos : Nat) : Option.Rel (Twin C b) (s.startTyped? pos) (a.startTyped? pos) := by
  unfold Session.startTyped?
  rw [h.document, h.lead?]
  cases trackingStart? s.document.text pos s.service.lead? with
  | none => exact .none
  | some found => exact .some (h.startCapturing _ _ _ _ _)

theorem startIfTyped (h : Twin C b s a) : Twin C b s.startIfTyped a.startIfTyped := by
  unfold Session.startIfTyped
  rw [h.document, h.caret]
  rcases h.tracker_cases with ⟨ht, ht'⟩ | ⟨t, t', ht, ht', -⟩ <;> rw [ht, ht']
  · split
    · rw [h.allowsTracking]
      split
      · have hs := h.startTyped? s.document.caret
        generalize s.startTyped? s.document.caret = x, a.startTyped? s.document.caret = y at hs ⊢
        cases hs with
        | none => exact h
        | some hs => exact hs
      · exact h
    · exact h
  · exact h

/-- A tracker that is started for a suggestion knows the element around it. -/
theorem agree_startExtracted (h : Twin C b s a) (ht : s.tracker? = none) (pos : Nat) :
    (s.startExtracted pos).1.Agree (a.startExtracted pos).1 := by
  unfold Session.startExtracted
  dsimp only
  rw [h.document, h.optionsAt]
  split
  · exact .of_none ht
  · split
    · exact .of_none ht
    · intro t t' ht ht'
      rw [start_eq_hold, tracker?_hold] at ht ht'
      rw [h.readAt] at ht'
      cases ht
      cases ht'
      change Tracker.locateContext _ a.document.text = Tracker.locateContext _ s.document.text
      rw [h.document]

theorem agree_suggest (h : Twin C b s a) (ha : s.Agree a) (pos : Nat) : (s.suggest pos).1.Agree (a.suggest pos).1 := by
  unfold Session.suggest
  rw [h.allowsTracking]
  split
  · exact ha
  · rcases h.tracker_cases with ⟨ht, ht'⟩ | ⟨t, t', ht, ht', hl⟩ <;> rw [ht, ht']
    · exact h.agree_startExtracted ht pos
    · dsimp only
      rw [hl.region]
      split
      · exact ha
      · exact h.stop.agree_startExtracted (tracker?_stop s) pos

section

variable [Std.Refl C]

theorem startExtracted (h : Twin C b s a) (pos : Nat) : Twins C b (s.startExtracted pos) (a.startExtracted pos) := by
  unfold Session.startExtracted
  dsimp only
  rw [h.document, h.optionsAt]
  split
  · exact ⟨h, rfl⟩
  · split
    · exact ⟨h, rfl⟩
    · next x _ =>
      refine ⟨h.start _ _ _ (Std.Refl.refl _), ?_⟩
      rw [start_eq_hold, start_eq_hold, tracker?_hold, tracker?_hold, h.readAt]

theorem suggest (h : Twin C b s a) (pos : Nat) : Twin C b (s.suggest pos).1 (a.suggest pos).1 ∧
    Option.Rel (Tracker.Like C) (s.suggest pos).2 (a.suggest pos).2 := by
  have hx : ∀ {s a : Session}, Twin C b s a → Twin C b (s.startExtracted pos).1 (a.startExtracted pos).1 ∧
      Option.Rel (Tracker.Like C) (s.startExtracted pos).2 (a.startExtracted pos).2 := fun h => by
    obtain ⟨hs, hr⟩ := h.startExtracted pos
    refine ⟨hs, hr ▸ ?_⟩
    generalize (Session.startExtracted _ pos).2 = found
    cases found with
    | none => exact .none
    | some t => exact .some (.refl t)
  unfold Session.suggest
  rw [h.allowsTracking]
  split
  · exact ⟨h, .none⟩
  · rcases h.tracker_cases with ⟨ht, ht'⟩ | ⟨t, t', ht, ht', hl⟩ <;> rw [ht, ht']
    · exact hx h
    · dsimp only
      rw [hl.region]
      split
      · exact ⟨h, .some hl⟩
      · exact hx h.stop

/-! ## Expanding -/

theorem expansion (h : Twin C b s a) (ha : s.Agree a) : Twins C b s.expansion a.expansion := by
  unfold Session.expansion
  rcases h.tracker_cases with ⟨ht, ht'⟩ | ⟨t, t', ht, ht', -⟩ <;> rw [ht, ht']
  · exact ⟨h, rfl⟩
  · dsimp only
    rw [ha t t' ht ht']
    exact ⟨h.withTracker (.refl _), rfl⟩

end

/-! ## Events -/

theorem followEdit (h : Twin C b s a) (p : Patch) : Twin C b (s.followEdit p) (a.followEdit p) := by
  rcases h.tracker_cases with ⟨ht, ht'⟩ | ⟨t, t', ht, ht', hl⟩
  · rw [followEdit_of_none ht, followEdit_of_none ht']
    exact h
  · have hd : a.document.length = s.document.length := congrArg Document.length h.document
    by_cases hlen : p.lengthAfter = s.document.length
    · have hlen' := hlen.trans hd.symm
      cases hc : (p.mapSpan t.region).isEmpty && !t.forced with
      | true =>
        have hc' : ((p.mapSpan t'.region).isEmpty && !t'.forced) = true := by rw [hl.region, hl.forced, hc]
        rw [followEdit_of_collapsed ht hlen hc, followEdit_of_collapsed ht' hlen' hc']
        exact h.stop
      | false =>
        have hc' : ((p.mapSpan t'.region).isEmpty && !t'.forced) = false := by rw [hl.region, hl.forced, hc]
        rw [followEdit_of_some ht hlen hc, followEdit_of_some ht' hlen' hc']
        unfold followed
        rw [h.document]
        exact h.hold (hl.map (f := fun t => (t.follow p).reread Abbreviation.read s.document.text) (fun _ => rfl) rfl)
    · rw [followEdit_of_mismatch ht hlen, followEdit_of_mismatch ht' (hd ▸ hlen)]
      exact h.stop

theorem stopIfInvalid (h : Twin C b s a) : Twin C b s.stopIfInvalid a.stopIfInvalid := by
  unfold Session.stopIfInvalid
  rw [h.document]
  rcases h.tracker_cases with ⟨ht, ht'⟩ | ⟨t, t', ht, ht', hl⟩ <;> rw [ht, ht']
  · exact h
  · have hr : t'.stopReason? s.document.caret = t.stopReason? s.document.caret := by
      unfold Tracker.stopReason?
      rw [hl.forced, hl.reading, hl.region]
    rw [Option.bind_some, Option.bind_some, hr]
    split
    · exact h.stop
    · exact h

theorem onModified (h : Twin C b s a) (p : Patch) : Twin C b (s.onModified p) (a.onModified p) := by
  unfold Session.onModified
  rw [h.document]
  split
  · exact h
  · exact (h.followEdit p).startIfTyped.stopIfInvalid.noteCaret

theorem followCaret (h : Twin C b s a) : Twin C b s.followCaret a.followCaret := by
  have hm : Twin C b (s.withTrackers (s.service.trackers.caretMoved s.document.id s.document.caret))
      (a.withTrackers (a.service.trackers.caretMoved a.document.id a.document.caret)) := by
    have hc : a.document.caret = s.document.caret := congrArg Document.caret h.document
    unfold Registry.caretMoved
    rcases h.tracker_cases with ⟨ht, ht'⟩ | ⟨t, t', ht, ht', hl⟩ <;> unfold tracker? at ht ht' <;> rw [ht, ht']
    · exact h
    · dsimp only
      rw [hl.region, hl.reading, hc]
      exact h.withTracker (hl.preview _)
  exact hm.noteCaret

theorem onActivated (h : Twin C b s a) : Twin C b s.onActivated a.onActivated := by
  unfold Session.onActivated
  rw [h.document]
  split
  · exact h
  · exact h.followCaret

theorem onSelectionModified (h : Twin C b s a) : Twin C b s.onSelectionModified a.onSelectionModified := by
  unfold Session.onSelectionModified
  rw [h.document, h.autoMark]
  split
  · exact h
  · exact h.followCaret

theorem onClosed (h : Twin C b s a) : Twin C b s.onClosed a.onClosed := by
  unfold Session.onClosed
  rw [h.document]
  split
  · exact h
  · exact h.stop.forgetCaret

theorem onUndone [Std.Refl C] (h : Twin C b s a) : Twin C b s.onUndone a.onUndone := by
  rcases onUndone_cases s with ⟨ht, hm, hu⟩ | ⟨m, ht, hm, hu⟩ | ⟨t, m, ht, hm, hu⟩ | ⟨t, ht, hm, hf, hu⟩ |
    ⟨t, ht, hm, hf, hu⟩ <;> have hm' := h.marker?.trans hm <;> rw [hu]
  · rw [onUndone_of_none (h.tracker_none ht) hm']
    exact h.noteCaret
  · have hk : a.service.leadLength = s.service.leadLength := congrArg (fun l => (l.map List.length).getD 0) h.lead?
    rw [onUndone_of_left (h.tracker_none ht) hm', h.optionsAt, hk]
    exact (h.start _ _ _ (Std.Refl.refl _)).showPreview.noteCaret
  · obtain ⟨t', ht', hl⟩ := h.tracker_some ht
    rw [onUndone_of_marked ht' hm', h.readAt]
    exact (h.withTracker (hl.map (f := (s.readAt · m)) (fun _ => rfl) rfl)).noteCaret
  · obtain ⟨t', ht', hl⟩ := h.tracker_some ht
    rw [onUndone_of_forced ht' hm' (hl.forced.trans hf), h.readAt, hl.region]
    exact (h.hold (hl.map (f := (s.readAt · t.region)) (fun _ => rfl) rfl)).noteCaret
  · obtain ⟨t', ht', hl⟩ := h.tracker_some ht
    rw [onUndone_of_unmarked ht' hm' (hl.forced.trans hf)]
    exact h.stop.noteCaret

theorem onQueryCompletions [Std.Refl C] (h : Twin C b s a) (ha : s.Agree a) (pos : Nat) :
    Twins C (b.askCompletion false) (s.onQueryCompletions pos) (a.onQueryCompletions pos) := by
  unfold Session.onQueryCompletions
  rw [h.asked', h.asked]
  cases hb : b.service.completionAsked with
  | false =>
    rw [askCompletion_of_unasked hb]
    exact ⟨h, rfl⟩
  | true =>
    obtain ⟨h₁, hr⟩ := (h.askCompletion false).suggest pos
    have ha₁ := (h.askCompletion false).agree_suggest ha pos
    generalize (s.askCompletion false).suggest pos = r, (a.askCompletion false).suggest pos = r' at h₁ hr ha₁ ⊢
    obtain ⟨s₁, found⟩ := r
    obtain ⟨a₁, found'⟩ := r'
    simp only [Bool.not_true, Bool.false_eq_true, if_false]
    cases hr with
    | none => exact ⟨h₁, rfl⟩
    | some hl =>
      rcases hx : s₁.expansion with ⟨s₂, snippet⟩
      obtain ⟨a₂, hx', h₂⟩ := (h₁.expansion ha₁).of_eq hx
      dsimp only
      rw [hx, hx']
      cases snippet with
      | none => exact ⟨h₂, rfl⟩
      | some snippet => exact ⟨h₂, by dsimp only; rw [h₂.document, hl.region]⟩

theorem onTextCommand (h : Twin C b s a) (c : TextCommand) :
    ∃ asked, (b.service.completionAsked = false → c ≠ .autoComplete → asked = false) ∧
      Twin C (b.askCompletion asked) (s.onTextCommand c) (a.onTextCommand c) := by
  cases c with
  | autoComplete =>
    unfold Session.onTextCommand
    dsimp only
    rw [h.autoMark]
    split
    · exact ⟨true, fun _ hc => absurd rfl hc, h.askCompletion true⟩
    · exact ⟨b.service.completionAsked, fun hb _ => hb, h⟩
  | commitCompletion => exact ⟨b.service.completionAsked, fun hb _ => hb, h.stop⟩
  | undo => exact ⟨b.service.completionAsked, fun hb _ => hb, h⟩
  | other _ => exact ⟨b.service.completionAsked, fun hb _ => hb, h⟩

/-- After the editor's own command a completion list may be left that has not been asked for before, or the other way
round. -/
theorem onPostTextCommand [Std.Refl C] (h : Twin C b s a) (c : TextCommand) :
    ∃ asked, (b.service.completionAsked = false → asked = false) ∧
      Twin C (b.askCompletion asked) (s.onPostTextCommand c) (a.onPostTextCommand c) := by
  cases c with
  | autoComplete => exact ⟨false, fun _ => rfl, h.askCompletion false⟩
  | commitCompletion => exact ⟨b.service.completionAsked, fun hb => hb, h⟩
  | undo => exact ⟨b.service.completionAsked, fun hb => hb, h.onUndone⟩
  | other _ => exact ⟨b.service.completionAsked, fun hb => hb, h⟩

theorem holds (h : Twin C b s a) (key : ContextKey) : a.holds key = s.holds key := by
  cases key <;> dsimp only [Session.holds]
  · rw [h.document]
    rcases h.tracker_cases with ⟨ht, ht'⟩ | ⟨t, t', ht, ht', hl⟩ <;> rw [ht, ht']
    rw [Option.any_some, Option.any_some, hl.region, hl.forced, hl.reading]
  · exact h.tabExpand
  · rcases h.tracker_cases with ⟨ht, ht'⟩ | ⟨t, t', ht, ht', -⟩ <;> rw [ht, ht']
    rfl
  · rcases h.tracker_cases with ⟨ht, ht'⟩ | ⟨t, t', ht, ht', hl⟩ <;> rw [ht, ht']
    rw [Option.any_some, Option.any_some, hl.forced]

/-! ## Commands -/

theorem insertSnippet (h : Twin C b s a) (region : Span) (snippet : Text) :
    Twin C b (s.insertSnippet region snippet) (a.insertSnippet region snippet) := by
  unfold Session.insertSnippet
  rw [h.document]
  split
  · exact h
  · next d hd =>
    obtain ⟨p, d', ht, rfl⟩ := Document.takes_of_insertSnippet? hd
    exact h.withDocument ht.id_eq

theorem enter (h : Twin C b s a) : Twin C b s.enter a.enter := by
  have hf : a.tracker?.any (·.forced) = s.tracker?.any (·.forced) := h.holds .hasForcedTracker
  have hs := h.stop.startCapturing s.stop.document.selection.span true 0 s.stop.document.selection.span.start
    s.stop.document.length
  unfold Session.enter
  rw [hf]
  split
  · exact h.stop
  · dsimp only
    rw [h.stop.document]
    refine Twin.noteCaret ?_
    split
    · exact hs
    · rw [hs.document]
      exact hs.showPreview.withDocument (Quiet.showPreview _).id.symm

section

variable [Std.Refl C]

theorem expand (h : Twin C b s a) (ha : s.Agree a) : Twin C b s.expand a.expand := by
  unfold Session.expand
  rw [h.document]
  rcases h.tracker_cases with ⟨ht, ht'⟩ | ⟨t, t', ht, ht', hl⟩ <;> rw [ht, ht']
  · exact h
  · dsimp only
    rw [hl.region, hl.reading]
    split
    · split
      · rcases hx : s.expansion with ⟨s₁, snippet⟩
        obtain ⟨a₁, hx', h₁⟩ := (h.expansion ha).of_eq hx
        rw [hx']
        cases snippet with
        | none => exact h₁.stop
        | some snippet => exact (h₁.insertSnippet _ snippet).stop
      · exact h.stop
    · exact h

theorem extract (h : Twin C b s a) : Twin C b s.extract a.extract := by
  unfold Session.extract
  rw [h.document]
  obtain ⟨h₁, hr⟩ := h.suggest s.document.caret
  generalize s.suggest s.document.caret = r, a.suggest s.document.caret = r' at h₁ hr ⊢
  obtain ⟨s₁, found⟩ := r
  obtain ⟨a₁, found'⟩ := r'
  cases hr with
  | none => exact h₁
  | some _ => exact h₁.showPreview

theorem run (h : Twin C b s a) {c : Command} (ha : c = .expand → s.Agree a) : Twin C b (s.run c) (a.run c) := by
  cases c with
  | expand => exact h.expand (ha rfl)
  | extract => exact h.extract
  | enter => exact h.enter
  | clear => exact h.stop

theorem dispatch (h : Twin C b s a) {e : Event} (notice : e.isNotice = true)
    (ha : ∀ pos, e = .queryCompletions pos → s.Agree a) :
    ∃ asked, (b.service.completionAsked = false → e ≠ .textCommand .autoComplete → asked = false) ∧
      Twins C (b.askCompletion asked) (s.dispatch e) (a.dispatch e) := by
  cases e with
  | activated => exact ⟨b.service.completionAsked, fun hb _ => hb, h.onActivated, rfl⟩
  | closed => exact ⟨b.service.completionAsked, fun hb _ => hb, h.onClosed, rfl⟩
  | selectionModified => exact ⟨b.service.completionAsked, fun hb _ => hb, h.onSelectionModified, rfl⟩
  | modified p => cases notice
  | textCommand c =>
    obtain ⟨asked, hc, ht⟩ := h.onTextCommand c
    exact ⟨asked, fun hb he => hc hb fun hc => he (congrArg _ hc), ht, rfl⟩
  | postTextCommand c =>
    obtain ⟨asked, hc, ht⟩ := h.onPostTextCommand c
    exact ⟨asked, fun hb _ => hc hb, ht, rfl⟩
  | queryContext key =>
    exact ⟨b.service.completionAsked, fun hb _ => hb, h, congrArg Reply.context (h.holds key)⟩
  | queryCompletions pos =>
    obtain ⟨hq, hr⟩ := h.onQueryCompletions (ha pos rfl) pos
    exact ⟨false, fun _ _ => rfl, hq, congrArg Reply.completions hr⟩
  | command c => cases notice

end

/-! ## Editing -/

theorem report (h : Twin C b s a) (p : Patch) : Twin C b (s.report p) (a.report p) := (h.onModified p).onSelectionModified

theorem type (h : Twin C b s a) (w : Text) : Twins C b (s.type w) (a.type w) := by
  induction w generalizing s a with
  | nil => exact ⟨h, rfl⟩
  | cons c w ih =>
    unfold Session.type
    rw [h.document]
    cases hd : s.document.type? c with
    | error error => exact ⟨h, rfl⟩
    | ok made => exact ih ((h.withDocument (Document.takes_of_type? hd).1.id_eq).report made.2)

theorem backspace (h : Twin C b s a) (count : Nat) : Twins C b (s.backspace count) (a.backspace count) := by
  induction count generalizing s a with
  | zero => exact ⟨h, rfl⟩
  | succ count ih =>
    unfold Session.backspace
    rw [h.document]
    cases hd : s.document.backspace? with
    | error error => exact ⟨h, rfl⟩
    | ok made => exact ih ((h.withDocument (Document.takes_of_backspace? hd).1.id_eq).report made.2)

theorem edit (h : Twin C b s a) (p : Patch) : Twins C b (s.edit p) (a.edit p) := by
  unfold Session.edit
  rw [h.document]
  cases hd : s.document.edit? p with
  | error error => exact ⟨h, rfl⟩
  | ok d => exact ⟨(h.withDocument (Document.takes_of_edit? hd).id_eq).report p, rfl⟩

theorem select (h : Twin C b s a) (anchor head : Nat) : Twins C b (s.select anchor head) (a.select anchor head) := by
  unfold Session.select
  rw [h.document]
  cases hd : s.document.select? anchor head with
  | error error => exact ⟨h, rfl⟩
  | ok d =>
    have hid : d.id = s.document.id := by
      unfold Document.select? at hd
      split at hd
      · cases hd
      · split at hd
        · cases hd
        · cases hd
          rfl
    exact ⟨(h.withDocument hid).onSelectionModified, rfl⟩

theorem undo [Std.Refl C] (h : Twin C b s a) : Twin C b s.undo.1 a.undo.1 := by
  rw [undo_eq, undo_eq, h.document]
  split
  · exact h.onUndone
  · next d hd => exact (h.withDocument (Keeps.of_undo? (.inr hd)).id).onUndone

theorem flush (h : Twin C b s a) : Twin C b s.flush a.flush := by
  have hf : ∀ (ps : List Patch) {s a : Session}, Twin C b s a →
      Twin C b (ps.foldl (fun s p => s.after (.modified p)) s) (ps.foldl (fun s p => s.after (.modified p)) a) := by
    intro ps
    induction ps with
    | nil => exact fun h => h
    | cons p ps ih => exact fun h => ih (h.onModified p)
  unfold Session.flush
  rw [h.document]
  exact (hf _ (h.withDocument (d := s.document.reported) rfl)).onSelectionModified

theorem command [Std.Refl C] (h : Twin C b s a) {c : Command} (ha : c = .expand → s.Agree a) :
    Twin C b (s.command c) (a.command c) :=
  (h.run ha).flush

/-! ## Completions -/

/-- **A whole completion step leaves nothing asked for**, whatever comes of it. -/
theorem complete [Std.Refl C] (h : Twin C b s a) (ha : s.Agree a) (pos : Nat) :
    Twins C (b.askCompletion false) (s.complete pos) (a.complete pos) := by
  obtain ⟨asked, -, h₁⟩ := h.onTextCommand .autoComplete
  have ha₁ : (s.onTextCommand .autoComplete).Agree (a.onTextCommand .autoComplete) := by
    unfold Session.onTextCommand
    dsimp only
    rw [h.autoMark]
    split
    · exact ha
    · exact ha
  obtain ⟨h₂, hr⟩ := h₁.onQueryCompletions ha₁ pos
  exact ⟨h₂.askCompletion false, hr⟩

theorem commit (h : Twin C b s a) (region : Span) (snippet : Text) :
    Twins C b (s.commit region snippet) (a.commit region snippet) := by
  have hs : Twin C b (s.after (.textCommand .commitCompletion)) (a.after (.textCommand .commitCompletion)) := h.stop
  unfold Session.commit
  dsimp only
  rw [hs.document]
  cases hd : (s.after (.textCommand .commitCompletion)).document.insertSnippet? region snippet with
  | error error => exact ⟨hs, rfl⟩
  | ok d =>
    obtain ⟨p, d', ht, rfl⟩ := Document.takes_of_insertSnippet? hd
    exact ⟨Twin.flush (hs.withDocument (d := { d' with unreported := d'.unreported ++ [p] }) ht.id_eq), rfl⟩

theorem takeCompletion [Std.Refl C] (h : Twin C b s a) (ha : s.Agree a) (commit : Bool) :
    Twins C (b.askCompletion false) (s.takeCompletion commit) (a.takeCompletion commit) := by
  unfold Session.takeCompletion
  rw [h.document]
  rcases hr : s.complete s.document.caret with ⟨s₁, entry⟩
  obtain ⟨a₁, hr', h₁⟩ := (h.complete ha s.document.caret).of_eq hr
  rw [hr']
  cases entry with
  | none => exact ⟨h₁, rfl⟩
  | some entry =>
    cases commit with
    | false => exact ⟨h₁, rfl⟩
    | true =>
      simp only [Bool.not_true, Bool.false_eq_true, if_false]
      rcases h₁.tracker_cases with ⟨ht, ht'⟩ | ⟨t, t', ht, ht', hl⟩ <;> rw [ht, ht']
      · exact ⟨h₁, rfl⟩
      · dsimp only
        rw [hl.region]
        rcases hr : s₁.commit t.region entry.snippet with ⟨s₂, refused⟩
        obtain ⟨a₂, hr', h₂⟩ := (h₁.commit t.region entry.snippet).of_eq hr
        rw [hr']
        cases refused with
        | none => exact ⟨h₂, rfl⟩
        | some error => exact ⟨h₂, rfl⟩

end Twin
end Session
end Shorthand
