import Shorthand.Proofs.Document.Editable
import Shorthand.Proofs.Host.Run
import Shorthand.Proofs.Session.Expansion
import Shorthand.Proofs.Session.Marks
/-!
# Only mistakes fail

A step of a script fails only if it is the user's mistake (`Step.Mistaken`): a caret that is to go where no text is, or
a command or a condition that there is not.  Such a step changes nothing.  Every other step is taken, whatever steps
came before, since the document takes every edit throughout (`Ready.runStep`).
-/
namespace Shorthand

/-! ## Mistakes -/

/-- **The step cannot be meant** where the text has `length` chars. -/
def Step.Mistaken (length : Nat) : Step → Prop
  | .move pos => length < pos
  | .select anchor head => length < anchor ∨ length < head
  | .command name => ∀ c : Command, c.name ≠ name
  | .query key => ∀ k : ContextKey, k.name ≠ key
  | _ => False

/-- Looked up by name, a thing is found if there is one of that name. -/
theorem find?_name_cases {α : Type} {all : List α} (hall : ∀ a, a ∈ all) (nameOf : α → String) (name : String) :
    (all.find? (fun a => nameOf a = name) = none ∧ ∀ a, nameOf a ≠ name) ∨
      ∃ a, all.find? (fun a => nameOf a = name) = some a ∧ nameOf a = name := by
  cases ha : all.find? fun a => nameOf a = name with
  | none => exact .inl ⟨rfl, fun a he => List.find?_eq_none.1 ha a (hall a) (decide_eq_true he)⟩
  | some a =>
    have hd := List.find?_some (p := fun a => decide (nameOf a = name)) ha
    exact .inr ⟨a, rfl, of_decide_eq_true hd⟩

theorem Command.ofName?_cases (name : String) :
    (ofName? name = .error ⟨name⟩ ∧ ∀ c : Command, c.name ≠ name) ∨
      ∃ c : Command, ofName? name = .ok c ∧ c.name = name := by
  have hall : ∀ c : Command, c ∈ all := by intro c; cases c <;> decide
  unfold ofName?
  rcases find?_name_cases hall Command.name name with ⟨hf, hn⟩ | ⟨c, hf, hn⟩ <;> rw [hf]
  · exact .inl ⟨rfl, hn⟩
  · exact .inr ⟨c, rfl, hn⟩

theorem ContextKey.ofName?_cases (name : String) :
    (ofName? name = .error ⟨name⟩ ∧ ∀ k : ContextKey, k.name ≠ name) ∨
      ∃ k : ContextKey, ofName? name = .ok k ∧ k.name = name := by
  have hall : ∀ k : ContextKey, k ∈ all := by intro k; cases k <;> decide
  unfold ofName?
  rcases find?_name_cases hall ContextKey.name name with ⟨hf, hn⟩ | ⟨k, hf, hn⟩ <;> rw [hf]
  · exact .inl ⟨rfl, hn⟩
  · exact .inr ⟨k, rfl, hn⟩

namespace Session

variable {s s' : Session} {t : Tracker} {d : Document}

/-! ## The document takes every edit -/

theorem Marks.editable (h : s.Marks s') (he : s.document.Editable) : s'.document.Editable := by
  obtain ⟨markers, -, hm⟩ := h
  rw [hm]
  exact ⟨he.writable, he.selection, he.history⟩

theorem editable_flush (he : s.document.Editable) : s.flush.document.Editable :=
  (Marks.flush s).editable ⟨he.writable, he.selection, he.history⟩

theorem editable_type (he : s.document.Editable) (t : Text) :
    (s.type t).2 = none ∧ (s.type t).1.document.Editable := by
  induction t generalizing s with
  | nil => exact ⟨rfl, he⟩
  | cons c t ih =>
    obtain ⟨d, p, hd, he⟩ := he.type? c
    unfold type
    rw [hd]
    exact ih ((Marks.report (s.withDocument d) p).editable he)

theorem editable_backspace (he : s.document.Editable) (count : Nat) :
    (s.backspace count).2 = none ∧ (s.backspace count).1.document.Editable := by
  induction count generalizing s with
  | zero => exact ⟨rfl, he⟩
  | succ count ih =>
    obtain ⟨d, p, hd, he⟩ := he.backspace?
    unfold backspace
    rw [hd]
    exact ih ((Marks.report (s.withDocument d) p).editable he)

theorem editable_undo (he : s.document.Editable) : s.undo.1.document.Editable := by
  rw [undo_eq]
  split
  · exact (Marks.onUndone s).editable he
  · next d hd => exact (Marks.onUndone (s.withDocument d)).editable (he.undo? hd)

theorem editable_expand (h : s.Sound) (he : s.document.Editable) : s.expand.document.Editable := by
  cases ht : s.tracker? with
  | none =>
    rw [expand_of_outside (by rw [ht]; rfl)]
    exact he
  | some t =>
    cases hc : t.region.contains s.document.caret with
    | false =>
      rw [expand_of_outside (by rw [ht]; exact hc)]
      exact he
    | true =>
      rw [expand_of_inside ht hc]
      cases t.expansionIn? s.document.text with
      | none => exact (Marks.stop s).editable he
      | some snippet =>
        obtain ⟨d, hd, he⟩ := he.insertSnippet? (h.reads t ht).within snippet
        dsimp only
        rw [insertSnippet_withTracker, hd]
        exact (Marks.stop _).editable he

theorem editable_enter (he : s.document.Editable) : s.enter.document.Editable := by
  have hs : (s.stop.start s.document.selection.span true 0 (s.stop.optionsAt s.stop.document.selection.span.start
      (s.stop.service.settings.capturesContext s.stop.document.length))).document.Editable :=
    ((Marks.stop s).trans (.hold _ _)).editable he
  unfold enter
  split
  · exact (Marks.stop s).editable he
  · dsimp only
    split
    · exact hs
    · exact hs.select _ (Selection.within_clamp _ _)

theorem editable_command (h : s.Sound) (he : s.document.Editable) (c : Command) :
    (s.command c).document.Editable := by
  refine editable_flush ?_
  cases c with
  | expand => exact editable_expand h he
  | extract => exact (Marks.extract s).editable he
  | enter => exact editable_enter he
  | clear => exact (Marks.stop s).editable he

/-- An entry is offered for what is tracked. -/
theorem tracker?_onQueryCompletions {pos : Nat} {entry : Completion}
    (h : s.onQueryCompletions pos = (s', some entry)) : ∃ t, s'.tracker? = some t := by
  unfold onQueryCompletions at h
  split at h
  · cases h
  · split at h
    · cases h
    · next s₁ t hs =>
      rw [expansion_of_some (tracker?_suggest hs)] at h
      split at h
      · cases h
      · next s₂ snippet hx =>
        cases h
        obtain ⟨rfl, -⟩ := Prod.mk.inj hx
        exact ⟨_, tracker?_withTracker s₁ _⟩

theorem tracker?_complete {pos : Nat} {entry : Completion} (h : s.complete pos = (s', some entry)) :
    ∃ t, s'.tracker? = some t := by
  have hfst : (((s.onTextCommand .autoComplete).onQueryCompletions pos).1).onPostTextCommand .autoComplete = s' :=
    congrArg Prod.fst h
  have hsnd : ((s.onTextCommand .autoComplete).onQueryCompletions pos).2 = some entry := congrArg Prod.snd h
  obtain ⟨t, ht⟩ := tracker?_onQueryCompletions (Prod.ext rfl hsnd)
  rw [← hfst]
  exact ⟨t, ht⟩

theorem editable_commit (he : s.document.Editable) {region : Span} (hr : region.Within s.document.length)
    (snippet : Text) : ∃ s', s.commit region snippet = (s', none) ∧ s'.document.Editable := by
  have hs : s.after (.textCommand .commitCompletion) = s.stop := rfl
  obtain ⟨d, hd, he⟩ := ((Marks.stop s).editable he).insertSnippet? hr snippet
  unfold commit
  dsimp only
  rw [hs, hd]
  exact ⟨_, rfl, editable_flush he⟩

/-- **Opening the completion list does not fail, nor does taking its entry.** -/
theorem editable_takeCompletion (h : s.Sound) (he : s.document.Editable) (commit : Bool) :
    ∃ s' answer, s.takeCompletion commit = (s', .ok answer) ∧ s'.document.Editable := by
  have hsound := (tends_complete s s.document.caret).preserves Moves.sound h
  have he := (Marks.complete s s.document.caret).editable he
  unfold takeCompletion
  rcases hc : s.complete s.document.caret with ⟨s₁, _ | entry⟩ <;> rw [hc] at hsound he
  · exact ⟨s₁, _, rfl, he⟩
  · obtain ⟨t, ht⟩ := tracker?_complete hc
    cases commit with
    | false => exact ⟨s₁, _, rfl, he⟩
    | true =>
      obtain ⟨s₂, hs, he⟩ := editable_commit he (hsound.reads t ht).within entry.snippet
      dsimp only
      rw [ht]
      dsimp only
      rw [hs]
      exact ⟨s₂, _, rfl, he⟩

/-! ## Steps -/

/-- **A session in which only mistakes fail.** -/
structure Ready (s : Session) : Prop where
  sound : s.Sound
  widget : s.document.widget = false
  unreported : s.document.unreported = []
  editable : s.document.Editable

theorem Ready.tends (h : s.Ready) (ht : s.Tends s') (he : s'.document.Editable) : s'.Ready where
  sound := ht.preserves Moves.sound h.sound
  widget := ht.keeps.widget.trans h.widget
  unreported := ht.keeps.unreported.trans h.unreported
  editable := he

theorem Ready.select_cases (h : s.Ready) (anchor head : Nat) :
    ((s.document.length < anchor ∨ s.document.length < head) ∧ ∃ error, s.select anchor head = (s, some error)) ∨
      (¬(s.document.length < anchor ∨ s.document.length < head) ∧
        ∃ s', s.select anchor head = (s', none) ∧ s'.Ready) := by
  have hq := quiet_select s anchor head
  unfold select at hq ⊢
  rcases Document.select?_cases s.document anchor head with ⟨hm, error, hd⟩ | ⟨hm, hd⟩ <;> rw [hd] at hq ⊢
  · exact .inl ⟨hm, error, rfl⟩
  · rw [not_or, Nat.not_lt, Nat.not_lt] at hm
    have he := (Marks.onSelectionModified (s.withDocument _)).editable (h.editable.select ⟨anchor, head⟩ hm)
    exact .inr ⟨by omega, _, rfl, h.tends (.quiet hq) he⟩

/-- The step comes to an error or to an answer as the change of the document does. -/
theorem silently_cases {r : Session × Option DocumentError} {mistaken : Prop}
    (h : (mistaken ∧ ∃ error, r = (s, some error)) ∨ (¬mistaken ∧ ∃ s', r = (s', none) ∧ s'.Ready)) :
    (mistaken ∧ ∃ error, silently r = (s, .error error)) ∨
      (¬mistaken ∧ ∃ s' answer, silently r = (s', .ok answer) ∧ s'.Ready) := by
  rcases h with ⟨hm, error, rfl⟩ | ⟨hm, s', rfl, hs⟩
  · exact .inl ⟨hm, _, rfl⟩
  · exact .inr ⟨hm, s', _, rfl, hs⟩

/-- **A step is a mistake, fails and changes nothing, or it is none and is taken.** -/
theorem Ready.runStep (h : s.Ready) (step : Step) :
    (step.Mistaken s.document.length ∧ ∃ error, s.runStep step = (s, .error error)) ∨
      (¬step.Mistaken s.document.length ∧ ∃ s' answer, s.runStep step = (s', .ok answer) ∧ s'.Ready) := by
  cases step with
  | type text =>
    obtain ⟨hn, he⟩ := editable_type h.editable text
    exact silently_cases (.inr ⟨id, _, Prod.ext rfl hn, h.tends (tends_type h.widget text) he⟩)
  | backspace count =>
    obtain ⟨hn, he⟩ := editable_backspace h.editable count
    exact silently_cases (.inr ⟨id, _, Prod.ext rfl hn, h.tends (tends_backspace h.widget count) he⟩)
  | move pos =>
    have hs := h.select_cases pos pos
    rw [or_self] at hs
    exact silently_cases hs
  | select anchor head => exact silently_cases (h.select_cases anchor head)
  | command name =>
    rcases Command.ofName?_cases name with ⟨hc, hn⟩ | ⟨c, hc, hn⟩ <;> simp only [Session.runStep, hc]
    · exact .inl ⟨hn, _, rfl⟩
    · exact .inr ⟨fun hm => hm c hn, _, none, rfl,
        h.tends (tends_command h.unreported c) (editable_command h.sound h.editable c)⟩
  | undo => exact .inr ⟨id, _, none, rfl, h.tends (tends_undo s) (editable_undo h.editable)⟩
  | complete commit =>
    have ht := tends_takeCompletion h.widget h.unreported commit
    obtain ⟨s', answer, hs, he⟩ := editable_takeCompletion h.sound h.editable commit
    rw [hs] at ht
    exact .inr ⟨id, s', answer, hs, h.tends ht he⟩
  | query key =>
    rcases ContextKey.ofName?_cases key with ⟨hk, hn⟩ | ⟨k, hk, hn⟩ <;> simp only [Session.runStep, hk]
    · exact .inl ⟨hn, _, rfl⟩
    · exact .inr ⟨fun hm => hm k hn, s, _, rfl, h⟩
  | close => exact .inr ⟨id, _, none, rfl, h.tends (tends_onClosed s) ((Marks.onClosed s).editable h.editable)⟩

/-- The session after some steps, those that fail leaving it as they find it. -/
def replay (s : Session) (steps : List Step) : Session := steps.foldl (fun s step => (s.runStep step).1) s

theorem Ready.step (h : s.Ready) (step : Step) : (s.runStep step).1.Ready := by
  rcases h.runStep step with ⟨-, error, hs⟩ | ⟨-, s', answer, hs, h'⟩ <;> rw [hs]
  · exact h
  · exact h'

theorem Ready.replay (h : s.Ready) (steps : List Step) : (s.replay steps).Ready := by
  induction steps generalizing s with
  | nil => exact h
  | cons step steps ih => exact ih (h.step step)

end Session

namespace Script

/-- A session that has been opened is ready. -/
theorem ready {script : Script} {settings : Settings} {s : Session} (h : script.session? settings = .ok s) :
    s.Ready := by
  unfold Script.session? Document.moveTo? at h
  dsimp only at h
  generalize hd : ({ id := 1, text := script.text } : Document) = d at h
  generalize script.caret.getD d.length = pos at h
  rcases d.select?_cases pos pos with ⟨-, error, hs⟩ | ⟨hpos, hs⟩ <;> rw [hs] at h
  · cases h
  · cases h
    subst hd
    rw [or_self, Nat.not_lt] at hpos
    have hu : Document.Unmarked { id := 1, text := script.text, selection := ⟨pos, pos⟩ } := ⟨rfl, rfl, rfl, nofun⟩
    have h₀ : Session.Ready ⟨{ dialect := ⟨script.dialect, true⟩, settings },
        { id := 1, text := script.text, selection := ⟨pos, pos⟩ }⟩ :=
      ⟨Session.invariant_sound.opened hu rfl, rfl, rfl, rfl, ⟨hpos, hpos⟩, nofun⟩
    exact h₀.tends (.quiet (.onActivated _)) ((Session.Marks.onActivated _).editable h₀.editable)

/-- **Only mistakes fail, and they change nothing.**  After any steps of a script, failed ones among them, a step comes
to an error just if it is a mistake, and leaves the session as it was if it does. -/
theorem fails_iff_mistaken {script : Script} {settings : Settings} {s : Session}
    (h : script.session? settings = .ok s) (steps : List Step) (step : Step) :
    let s' := s.replay steps
    ((∃ error, (s'.runStep step).2 = .error error) ↔ step.Mistaken s'.document.length) ∧
      ∀ error, (s'.runStep step).2 = .error error → (s'.runStep step).1 = s' := by
  intro s'
  have hs' : s'.Ready := (ready h).replay steps
  rcases hs'.runStep step with ⟨hm, error, hs⟩ | ⟨hm, s'', answer, hs, -⟩ <;> rw [hs]
  · exact ⟨iff_of_true ⟨error, rfl⟩ hm, fun _ _ => rfl⟩
  · exact ⟨iff_of_false nofun hm, nofun⟩

/-- Behind a step that failed for a caret out of the text and one that failed for its name, a selection out of the text
fails too, and the entry of the completion list can be taken. -/
theorem fails_iff_mistaken_past_failures :
    let script : Script := { text := "p ".toList }
    let steps : List Step := [.type "ul>li".toList, .move 100, .command "expand", .backspace 1]
    ∃ s, script.session? {} = .ok s ∧ (s.replay steps).document.text = "p ul>l".toList ∧
      (∃ error, ((s.replay steps).runStep (.select 3 7)).2 = .error error) ∧
      ((s.replay steps).runStep (.select 3 7)).1 = s.replay steps ∧
      ¬∃ error, ((s.replay steps).runStep (.complete true)).2 = .error error := by
  intro script steps
  have hc : (script.session? {}).toOption.any (fun s => (s.replay steps).document.text = "p ul>l".toList) = true := by
    decide +kernel
  cases hs : script.session? {} with
  | error => rw [hs] at hc; cases hc
  | ok s =>
    rw [hs] at hc
    have hx : (s.replay steps).document.text = "p ul>l".toList := of_decide_eq_true hc
    have hm : Step.Mistaken (s.replay steps).document.length (.select 3 7) := by
      unfold Document.length
      rw [hx]
      exact .inr (by decide)
    obtain ⟨herror, hsame⟩ := fails_iff_mistaken hs steps (.select 3 7)
    obtain ⟨error, he⟩ := herror.2 hm
    have hcomplete := (fails_iff_mistaken hs steps (.complete true)).1
    exact ⟨s, rfl, hx, ⟨error, he⟩, hsame error he, fun h => hcomplete.1 h⟩

end Script
end Shorthand
