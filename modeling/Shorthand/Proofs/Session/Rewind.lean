import Shorthand.Proofs.Session.Marks
import Shorthand.Proofs.Session.Mode
/-!
# Undoing takes tracking back

A user edits a document and moves the caret about in it; then every edit is undone, one after the other.  The trackers
that came and went meanwhile may be many, but each undo brings tracking back to where it was before the edit undone
(`agrees_undo`), and so all of them to where it was before the first edit (`agrees_undoTimes`).
-/
namespace Shorthand

/-- Something that a user does to a text: an edit, or a move of the caret.  An empty patch is neither. -/
inductive Stroke where
  | type (c : Char)
  | backspace
  | edit (p : Patch) (nonempty : p.isEmpty = false)
  | select (anchor head : Nat)

namespace Stroke

def action : Stroke → Action
  | .type c => .type [c]
  | .backspace => .backspace 1
  | .edit p _ => .edit p
  | .select anchor head => .select anchor head

/-- The document after a stroke and the patch that made it, unless the document refuses or only the caret moves. -/
def made? (k : Stroke) (d : Document) : Option (Document × Patch) :=
  match k with
  | .type c => (d.type? c).toOption
  | .backspace => d.backspace?.toOption
  | .edit p _ => (d.edit? p).toOption.map (·, p)
  | .select _ _ => none

theorem eq_ok_of_toOption {α : Type} {answer : Except DocumentError α} {a : α} (h : answer.toOption = some a) :
    answer = .ok a := by
  cases answer with
  | error error => cases h
  | ok made =>
    cases h
    rfl

theorem takes_of_made? {k : Stroke} {d d' : Document} {p : Patch} (h : k.made? d = some (d', p)) :
    d.Takes p d' ∧ p.length = d.length := by
  cases k with
  | type c => exact Document.takes_of_type? (eq_ok_of_toOption h)
  | backspace => exact Document.takes_of_backspace? (eq_ok_of_toOption h)
  | edit p' nonempty =>
    obtain ⟨d₁, hd, he⟩ := Option.map_eq_some_iff.1 h
    cases he
    have ht := Document.takes_of_edit? (eq_ok_of_toOption hd)
    exact ⟨ht, ht.length_eq nonempty⟩
  | select anchor head => cases h

end Stroke

namespace Session

variable {s s' : Session} {k : Stroke} {p : Patch} {d : Document}

/-! ## Strokes -/

def stroke (s : Session) (k : Stroke) : Session := s.act k.action

/-- The stroke edits the text, so that there is something to undo. -/
def edits (s : Session) (k : Stroke) : Bool := (k.made? s.document).any fun made => !made.2.isEmpty

/-- The session once the document has made something of an edit, or refused it. -/
def answered (s : Session) : Option (Document × Patch) → Session
  | none => s
  | some (d, p) => (s.withDocument d).report p

theorem stroke_type (s : Session) (c : Char) : s.stroke (.type c) = s.answered ((Stroke.type c).made? s.document) := by
  change (s.type [c]).1 = s.answered (s.document.type? c).toOption
  unfold type
  cases s.document.type? c <;> rfl

theorem stroke_backspace (s : Session) : s.stroke .backspace = s.answered (Stroke.backspace.made? s.document) := by
  change (s.backspace 1).1 = s.answered s.document.backspace?.toOption
  unfold backspace
  cases s.document.backspace? <;> rfl

theorem stroke_edit (s : Session) (p : Patch) (nonempty : p.isEmpty = false) :
    s.stroke (.edit p nonempty) = s.answered ((Stroke.edit p nonempty).made? s.document) := by
  change (s.edit p).1 = s.answered ((s.document.edit? p).toOption.map (·, p))
  unfold edit
  cases s.document.edit? p <;> rfl

/-- **An edit that is refused does nothing**, and one that is made comes to the report of its patch. -/
theorem answered_cases (hk : s.stroke k = s.answered (k.made? s.document)) :
    (k.made? s.document = none ∧ s.Quiet (s.stroke k)) ∨
      ∃ d p, k.made? s.document = some (d, p) ∧ s.stroke k = (s.withDocument d).report p ∧
        s.document.Takes p d ∧ p.length = s.document.length := by
  rw [hk]
  cases hm : k.made? s.document with
  | none => exact .inl ⟨rfl, .refl s⟩
  | some made => exact .inr ⟨made.1, made.2, rfl, rfl, Stroke.takes_of_made? hm⟩

/-- **A stroke does nothing but move the caret**, or comes to the report of the patch that it makes. -/
theorem stroke_cases (s : Session) (k : Stroke) :
    (k.made? s.document = none ∧ s.Quiet (s.stroke k)) ∨
      ∃ d p, k.made? s.document = some (d, p) ∧ s.stroke k = (s.withDocument d).report p ∧
        s.document.Takes p d ∧ p.length = s.document.length := by
  cases k with
  | type c => exact answered_cases (stroke_type s c)
  | backspace => exact answered_cases (stroke_backspace s)
  | edit p nonempty => exact answered_cases (stroke_edit s p nonempty)
  | select anchor head => exact .inl ⟨rfl, quiet_select s anchor head⟩

/-- **An edit puts the state before it on the history**, and nothing else does. -/
theorem history_stroke (s : Session) (k : Stroke) :
    (s.stroke k).document.history =
      if s.edits k then s.document.snapshot :: s.document.history else s.document.history := by
  unfold edits
  rcases stroke_cases s k with ⟨hm, hq⟩ | ⟨d, p, hm, hs, ht, -⟩
  · rw [hm]
    exact hq.history
  · rw [hm, hs, (Marks.report _ p).history, Option.any_some]
    cases hp : p.isEmpty with
    | true => exact ht.history_of_isEmpty hp
    | false => exact ht.history_of_nonempty hp

theorem isForced_stroke (s : Session) (k : Stroke) : (s.stroke k).isForced = s.isForced := by
  rcases stroke_cases s k with ⟨-, hq⟩ | ⟨d, p, -, hs, ht, hl⟩
  · exact isForced_quiet hq
  · rw [hs, isForced_takes ht hl]

/-! ## Undoing one edit -/

/-- A session between two steps of a run. -/
structure Settled (s : Session) : Prop where
  sound : s.Sound
  led : s.Led
  widget : s.document.widget = false
  unreported : s.document.unreported = []

namespace Settled

theorem tends (h : s.Settled) (ht : s.Tends s') : s'.Settled where
  sound := ht.preserves Moves.sound h.sound
  led := ht.preserves Moves.led h.led
  widget := ht.keeps.widget.trans h.widget
  unreported := ht.keeps.unreported.trans h.unreported

theorem tends_stroke (h : s.Settled) (k : Stroke) : s.Tends (s.stroke k) := tends_act h.widget h.unreported k.action

end Settled

/-- **`s'` has the text, the selection, the abbreviation marker, the tracker and the history of `s`.** -/
structure Agrees (s s' : Session) : Prop where
  text : s'.document.text = s.document.text
  selection : s'.document.selection = s.document.selection
  marker : s'.marker? = s.marker?
  tracker : s'.tracker?.map Tracker.core = s.tracker?.map Tracker.core
  history : s'.document.history = s.document.history

theorem Agrees.refl (s : Session) : s.Agrees s := ⟨rfl, rfl, rfl, rfl, rfl⟩

theorem tracker?_onUndone_of_marker {m : Span} (hm : s.marker? = some m) :
    ∃ t, s.onUndone.tracker? = some t ∧ t.region = m.clamp s.document.length ∧ t.forced = s.isForced := by
  cases ht : s.tracker? with
  | none =>
    rw [onUndone_of_left ht hm, isForced_of_none ht]
    have hc := (Quiet.showPreview (s.start m false s.service.leadLength (s.optionsAt m.start true))).core
    rw [start_eq_hold, tracker?_hold, Option.map_some] at hc
    obtain ⟨t, ht, hc⟩ := Option.map_eq_some_iff.1 hc
    exact ⟨t, ht, Tracker.region_eq_of_core hc, Tracker.forced_eq_of_core hc⟩
  | some t =>
    rw [onUndone_of_marked ht hm, isForced_of_some ht]
    exact ⟨s.readAt t m, tracker?_withTracker s _, rfl, rfl⟩

theorem tracker?_onUndone_of_no_marker (hm : s.marker? = none) (hf : s.isForced = false) :
    s.onUndone.tracker? = none := by
  cases ht : s.tracker? with
  | none => rw [onUndone_of_none ht hm]; exact ht
  | some t =>
    rw [isForced_of_some ht] at hf
    rw [onUndone_of_unmarked ht hm hf]
    exact tracker?_stop s

/-- Trackers on the same stretch of the same text stand for the same if both are forced or both are not. -/
theorem core_eq (h : s.Sound) (h' : s'.Sound) (hd : s.Led) (hd' : s'.Led)
    (hk : s'.service.leadLength = s.service.leadLength) (hx : s'.document.text = s.document.text) {t t' : Tracker}
    (ht : s.tracker? = some t) (ht' : s'.tracker? = some t') (hr : t'.region = t.region) (hf : t'.forced = t.forced) :
    t'.core = t.core := by
  have ho : t'.offset = t.offset := by rw [hd' t' ht', hd t ht, hf, hk]
  have hs : t'.abbreviationSpan = t.abbreviationSpan := by
    unfold Tracker.abbreviationSpan
    rw [hr, ho]
  have hg : t'.reading = t.reading := by rw [(h'.reads t' ht').fresh, (h.reads t ht).fresh, hs, hx]
  unfold Tracker.core
  rw [hr, hf, ho, hg]

/-- **An undo that has brought the document back brings tracking back.** -/
theorem tracker?_onUndone (h : s.Settled) (h' : s'.onUndone.Settled)
    (hk : s'.onUndone.service.leadLength = s.service.leadLength) (hx : s'.document.text = s.document.text)
    (hm : s'.marker? = s.marker?) (hf : s'.isForced = s.isForced) :
    s'.onUndone.tracker?.map Tracker.core = s.tracker?.map Tracker.core := by
  cases ht : s.tracker? with
  | none =>
    have hn : s'.marker? = none := by rw [hm, h.sound.marked, ht]; rfl
    rw [tracker?_onUndone_of_no_marker hn (hf.trans (isForced_of_none ht))]
  | some t =>
    have hn : s'.marker? = some t.region := by rw [hm, h.sound.marked, ht]; rfl
    obtain ⟨t', ht', hr, hf'⟩ := tracker?_onUndone_of_marker hn
    have hw : t.region.Within s'.document.length := by
      have hw := (h.sound.reads t ht).within
      rwa [← hx] at hw
    rw [Span.clamp_eq_self hw] at hr
    have hx' : s'.onUndone.document.text = s.document.text := (Marks.onUndone s').text.trans hx
    rw [ht', Option.map_some, Option.map_some, core_eq h.sound h'.sound h.led h'.led hk hx' ht ht' hr
      (hf'.trans (hf.trans (isForced_of_some ht)))]

/-- **Undoing an edit takes the session back to where it was before**, if a tracker there is now and a tracker there
was are both forced or both not. -/
theorem agrees_undo (h : s.Settled) (h' : s'.Settled) (hk : s'.service.leadLength = s.service.leadLength)
    (hh : s'.document.history = s.document.snapshot :: s.document.history) (hf : s'.isForced = s.isForced) :
    s.Agrees s'.undo.1 := by
  have hu := h'.tends (tends_undo s')
  have hl : s'.undo.1.service.leadLength = s.service.leadLength := (tends_undo s').keeps.leadLength.trans hk
  obtain ⟨d, hd, hs, hh⟩ := Document.undo?_of_history hh
  rw [undo_eq, hd] at hu hl ⊢
  dsimp only at hu hl ⊢
  have hid : (s'.withDocument d).isForced = s.isForced :=
    (isForced_withDocument (Keeps.of_undo? (.inr hd)).id).trans hf
  have hx : d.text = s.document.text := congrArg Snapshot.text hs
  have hm : (s'.withDocument d).marker? = s.marker? := congrArg (·.markers.get? abbreviationMarker) hs
  have hc := tracker?_onUndone h hu hl hx hm hid
  have hmarks := Marks.onUndone (s'.withDocument d)
  exact ⟨hmarks.text.trans hx, hmarks.selection.trans (congrArg Snapshot.selection hs),
    by rw [hu.sound.marker?_eq, hc, h.sound.marker?_eq], hc, hmarks.history.trans hh⟩

/-! ## Undoing all edits -/

def strokes (s : Session) (ks : List Stroke) : Session := ks.foldl stroke s

/-- How many of the strokes edit the text. -/
def editCount (s : Session) : List Stroke → Nat
  | [] => 0
  | k :: ks => (s.stroke k).editCount ks + if s.edits k then 1 else 0

/-- The session just before the first stroke that edits the text, or after them all if there is none. -/
def beforeEdits (s : Session) : List Stroke → Session
  | [] => s
  | k :: ks => if s.edits k then s else (s.stroke k).beforeEdits ks

def undoTimes (s : Session) : Nat → Session
  | 0 => s
  | n + 1 => (s.undoTimes n).undo.1

/-- Nothing that comes before the edits changes the history or the mode of tracking. -/
theorem beforeEdits_keeps (s : Session) (ks : List Stroke) :
    (s.beforeEdits ks).document.history = s.document.history ∧ (s.beforeEdits ks).isForced = s.isForced := by
  induction ks generalizing s with
  | nil => exact ⟨rfl, rfl⟩
  | cons k ks ih =>
    unfold beforeEdits
    split
    · exact ⟨rfl, rfl⟩
    · next he =>
      obtain ⟨hh, hf⟩ := ih (s.stroke k)
      rw [history_stroke, if_neg he] at hh
      exact ⟨hh, hf.trans (isForced_stroke s k)⟩

theorem tends_strokes (h : s.Settled) (ks : List Stroke) : s.Tends (s.strokes ks) := by
  induction ks generalizing s with
  | nil => exact .refl s
  | cons k ks ih =>
    have ht := h.tends_stroke k
    exact ht.trans (ih (h.tends ht))

theorem tends_undoTimes (s : Session) (n : Nat) : s.Tends (s.undoTimes n) := by
  induction n with
  | zero => exact .refl s
  | succ n ih => exact ih.trans (tends_undo _)

/-- **Undoing as often as there have been edits** takes the session back to where it was before the first of them. -/
theorem agrees_undoTimes (h : s.Settled) (ks : List Stroke) :
    (s.beforeEdits ks).Agrees ((s.strokes ks).undoTimes (s.editCount ks)) := by
  induction ks generalizing s with
  | nil => exact .refl s
  | cons k ks ih =>
    have ht := h.tends_stroke k
    have h₁ := h.tends ht
    have ih := ih h₁
    unfold beforeEdits editCount
    split
    · next he =>
      -- the undos of the later edits come first, and leave the edit of `k` to be undone
      obtain ⟨hh, hf⟩ := beforeEdits_keeps (s.stroke k) ks
      have ht' := (tends_strokes h₁ ks).trans (tends_undoTimes _ ((s.stroke k).editCount ks))
      refine agrees_undo h (h₁.tends ht') (ht.trans ht').keeps.leadLength ?_ ?_
      · exact ih.history.trans (hh.trans (by rw [history_stroke, if_pos he]))
      · exact (isForced_of_core ih.tracker).trans (hf.trans (isForced_stroke s k))
    · exact ih

theorem strokes_eq_foldl_act (s : Session) (ks : List Stroke) :
    s.strokes ks = (ks.map Stroke.action).foldl act s := by
  unfold strokes stroke
  rw [List.foldl_map]

theorem undoTimes_eq_foldl_act (s : Session) (n : Nat) :
    s.undoTimes n = (List.replicate n Action.undo).foldl act s := by
  induction n with
  | zero => rfl
  | succ n ih =>
    rw [List.replicate_succ', List.foldl_append, ← ih]
    rfl

end Session

namespace Opening

/-- **Undoing edits takes tracking back in step with the text.**  Edit a document of a run in any way, moving the caret
about meanwhile, and undo as often as there have been edits: text, selection, marker and tracker are back to what they
were just before the first edit. -/
theorem undo_rewinds (o : Opening) {steps : List Host.Step} (hs : ∀ st ∈ steps, st.keepsSettings = true) {i : Nat}
    {s : Session} (h : (o.host.run steps).session? i = some s) (ks : List Stroke) :
    ∃ s', ((o.host.run steps).run (((ks.map Stroke.action) ++ List.replicate (s.editCount ks) Action.undo).map
        (.on i))).session? i = some s' ∧ (s.beforeEdits ks).Agrees s' := by
  obtain ⟨sound, widget, unreported⟩ := (o.sound steps).of_session? h
  obtain ⟨led, -, -⟩ := (o.led hs).of_session? h
  refine ⟨_, Host.session?_run_on h _, ?_⟩
  rw [List.foldl_append, ← Session.strokes_eq_foldl_act, ← Session.undoTimes_eq_foldl_act]
  exact Session.agrees_undoTimes ⟨sound, led, widget, unreported⟩ ks

/-- A tracker is ended by an invalid char, another one started behind a blank and ended too, and the first brought back
by four undos; stepping over the closer was no edit. -/
theorem undo_rewinds_past_a_tracker :
    let o := ofTexts ⟨"html", true⟩ {} ["p ".toList]
    let steps : List Host.Step := [.on 0 (.type "ul>(li".toList)]
    let ks : List Stroke := [.select 5 5, .select 8 8, .type ')', .type '!', .type ' ', .type 'b', .backspace]
    ∃ s s', (o.host.run steps).session? 0 = some s ∧
      ((o.host.run steps).run (((ks.map Stroke.action) ++ List.replicate 4 Action.undo).map
        (.on 0))).session? 0 = some s' ∧
      (s.strokes ks).tracker? = none ∧ (s.strokes ks).document.text = "p ul>(li)! ".toList ∧
      s'.document.text = "p ul>(li)".toList ∧ s'.document.selection = .point 9 ∧
      s'.marker? = some ⟨5, 9⟩ ∧ s'.tracker?.map (·.region) = some ⟨5, 9⟩ := by
  intro o steps ks
  have hc : ((o.host.run steps).session? 0).any (fun s => s.editCount ks = 4 && (s.strokes ks).tracker?.isNone &&
      (s.strokes ks).document.text = "p ul>(li)! ".toList && (s.beforeEdits ks).document.text = "p ul>(li)".toList &&
      (s.beforeEdits ks).document.selection = .point 9 && (s.beforeEdits ks).marker? = some ⟨5, 9⟩ &&
      (s.beforeEdits ks).tracker?.map (·.region) = some ⟨5, 9⟩) = true := by decide +kernel
  obtain ⟨s, hs, hc⟩ := (Option.any_eq_true _ _).1 hc
  simp only [Bool.and_eq_true, decide_eq_true_eq, Option.isNone_iff_eq_none] at hc
  obtain ⟨⟨⟨⟨⟨⟨hn, ht⟩, hx⟩, hx'⟩, hl⟩, hm⟩, hr⟩ := hc
  obtain ⟨s', hs', ha⟩ := undo_rewinds o (by decide) hs ks
  rw [hn] at hs'
  have hr' : s'.tracker?.map (·.region) = some ⟨5, 9⟩ := by
    have hc := congrArg (Option.map (·.1)) ha.tracker
    rw [Option.map_map, Option.map_map] at hc
    exact hc.trans hr
  exact ⟨s, s', hs, hs', ht, hx, ha.text.trans hx', ha.selection.trans hl, ha.marker.trans hm, hr'⟩

end Opening
end Shorthand
