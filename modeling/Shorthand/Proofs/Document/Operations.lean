import Shorthand.Proofs.Document.Editable
/-!
# Operations on a document

All that is ever done to a document is one of a dozen operations.  What the document refuses leaves it as it is
(`Document.perform`), so that operations can be made one after the other whatever comes of them (`Document.run`).  An
operation is an edit if it makes a patch that is not empty (`Document.edits`); nothing but edits and undos touches the
text, the history and the version (`perform_of_edits`, `leaves_of_not_edits`).
-/
namespace Shorthand

/-- Something done to a document. -/
inductive Operation where
  | select (anchor head : Nat)
  | moveTo (pos : Nat)
  | setSelection (selection : Selection)
  | setMarker (name : String) (span : Span)
  | clearMarker (name : String)
  /-- The document takes no edits any more, or takes them again. -/
  | protect (readonly : Bool)
  /-- The patches that wait to be reported are taken away. -/
  | report
  | edit (p : Patch)
  | type (c : Char)
  | backspace
  | insertSnippet (span : Span) (snippet : Text)
  | undo
  deriving DecidableEq, Repr

namespace Document

variable {d d' : Document} {p : Patch} {op : Operation}

/-- The document after an operation, unless it refuses, and the patch made if the operation makes one. -/
def attempt (d : Document) : Operation → Except DocumentError (Document × Option Patch)
  | .select anchor head => (d.select? anchor head).map (·, none)
  | .moveTo pos => (d.moveTo? pos).map (·, none)
  | .setSelection selection => .ok (d.setSelection selection, none)
  | .setMarker name span => .ok (d.setMarker name span, none)
  | .clearMarker name => .ok (d.clearMarker name, none)
  | .protect readonly => .ok ({ d with readonly }, none)
  | .report => .ok (d.reported, none)
  | .edit p => (d.edit? p).map (·, some p)
  | .type c => (d.type? c).map fun made => (made.1, some made.2)
  | .backspace => d.backspace?.map fun made => (made.1, some made.2)
  | .insertSnippet span snippet => (d.insertSnippet? span snippet).map fun d' => (d', d'.unreported.getLast?)
  | .undo => .ok (d.undo?.getD d, none)

/-- The document after an operation, which comes to nothing if it is refused. -/
def perform (d : Document) (op : Operation) : Document :=
  match d.attempt op with
  | .ok (d', _) => d'
  | .error _ => d

/-- **The document after some operations.** -/
def run (d : Document) (ops : List Operation) : Document := ops.foldl perform d

/-- **The operation is an edit**: the document takes it, and the patch that it makes is not empty. -/
def edits (d : Document) (op : Operation) : Bool :=
  match d.attempt op with
  | .ok (_, some p) => !p.isEmpty
  | _ => false

/-! ## What an operation does -/

theorem ok_of_map {ε α β : Type} {x : Except ε α} {f : α → β} {b : β} (h : x.map f = .ok b) :
    ∃ a, x = .ok a ∧ f a = b := by
  cases x with
  | error _ => cases h
  | ok a => exact ⟨a, rfl, Except.ok.inj h⟩

/-- `d'` has the text, the history and the version of `d`. -/
structure Leaves (d d' : Document) : Prop where
  text : d'.text = d.text
  history : d'.history = d.history
  version : d'.version = d.version

theorem leaves_of_select? {anchor head : Nat} (h : d.select? anchor head = .ok d') : d.Leaves d' := by
  rcases select?_cases d anchor head with ⟨-, error, he⟩ | ⟨-, he⟩
  · rw [he] at h; cases h
  · rw [he] at h
    cases h
    exact ⟨rfl, rfl, rfl⟩

theorem Takes.leaves (h : d.Takes p d') (he : p.isEmpty = true) : d.Leaves d' := by
  cases h with
  | nothing _ _ => exact ⟨rfl, rfl, rfl⟩
  | edit _ _ hn _ => rw [he] at hn; cases hn

/-- **Any operation but an undo takes the patch that it makes**, or makes none and leaves the text alone. -/
theorem attempt_cases (hu : op ≠ .undo) {made : Option Patch} (h : d.attempt op = .ok (d', made)) :
    (made = none ∧ d.Leaves d') ∨ ∃ p d₁ unreported, made = some p ∧ d.Takes p d₁ ∧ d' = { d₁ with unreported } := by
  cases op with
  | select anchor head =>
    obtain ⟨d₁, hd, he⟩ := ok_of_map h
    cases he
    exact .inl ⟨rfl, leaves_of_select? hd⟩
  | moveTo pos =>
    obtain ⟨d₁, hd, he⟩ := ok_of_map h
    cases he
    exact .inl ⟨rfl, leaves_of_select? hd⟩
  | setSelection selection => cases h; exact .inl ⟨rfl, rfl, rfl, rfl⟩
  | setMarker name span => cases h; exact .inl ⟨rfl, rfl, rfl, rfl⟩
  | clearMarker name => cases h; exact .inl ⟨rfl, rfl, rfl, rfl⟩
  | protect readonly => cases h; exact .inl ⟨rfl, rfl, rfl, rfl⟩
  | report => cases h; exact .inl ⟨rfl, rfl, rfl, rfl⟩
  | undo => exact absurd rfl hu
  | edit p =>
    obtain ⟨d₁, hd, he⟩ := ok_of_map h
    cases he
    exact .inr ⟨p, d', d'.unreported, rfl, takes_of_edit? hd, rfl⟩
  | type c =>
    obtain ⟨⟨d₁, p⟩, hd, he⟩ := ok_of_map h
    cases he
    exact .inr ⟨p, d₁, d₁.unreported, rfl, (takes_of_type? hd).1, rfl⟩
  | backspace =>
    obtain ⟨⟨d₁, p⟩, hd, he⟩ := ok_of_map h
    cases he
    exact .inr ⟨p, d₁, d₁.unreported, rfl, (takes_of_backspace? hd).1, rfl⟩
  | insertSnippet span snippet =>
    obtain ⟨d₂, hd, he⟩ := ok_of_map h
    obtain ⟨p, d₁, ht, rfl⟩ := takes_of_insertSnippet? hd
    cases he
    exact .inr ⟨p, d₁, d₁.unreported ++ [p], by simp, ht, rfl⟩

/-- **An edit puts the state before it on the history.** -/
theorem perform_of_edits (h : d.edits op = true) :
    (d.perform op).history = d.snapshot :: d.history ∧ (d.perform op).version = d.nextVersion := by
  unfold edits at h
  split at h
  · next d' p ha =>
    have hu : op ≠ .undo := by rintro rfl; cases ha
    rcases attempt_cases hu ha with ⟨hnone, -⟩ | ⟨p', d₁, unreported, hp, ht, rfl⟩
    · cases hnone
    · cases hp
      unfold perform
      rw [ha]
      cases ht with
      | nothing _ empty => rw [empty] at h; cases h
      | edit _ _ _ _ => exact ⟨rfl, rfl⟩
  · cases h

/-- **What is neither an edit nor an undo leaves the text and the history alone.** -/
theorem leaves_of_not_edits (hu : op ≠ .undo) (h : d.edits op = false) : d.Leaves (d.perform op) := by
  unfold edits at h
  unfold perform
  cases ha : d.attempt op with
  | error error => exact ⟨rfl, rfl, rfl⟩
  | ok result =>
    obtain ⟨d', made⟩ := result
    rw [ha] at h
    rcases attempt_cases hu ha with ⟨-, hl⟩ | ⟨p, d₁, unreported, rfl, ht, rfl⟩
    · exact hl
    · have hl := ht.leaves ((Bool.not_eq_false' _).mp h)
      exact ⟨hl.text, hl.history, hl.version⟩

theorem perform_undo (d : Document) : d.perform .undo = d.undo?.getD d := rfl

theorem keeps_of_select? {anchor head : Nat} (h : d.select? anchor head = .ok d') :
    d'.id = d.id ∧ d'.widget = d.widget := by
  rcases select?_cases d anchor head with ⟨-, error, he⟩ | ⟨-, he⟩ <;> rw [he] at h <;> cases h
  exact ⟨rfl, rfl⟩

theorem keeps_of_attempt {made : Option Patch} (h : d.attempt op = .ok (d', made)) :
    d'.id = d.id ∧ d'.widget = d.widget := by
  cases op with
  | select anchor head =>
    obtain ⟨d₁, hd, he⟩ := ok_of_map h
    cases he
    exact keeps_of_select? hd
  | moveTo pos =>
    obtain ⟨d₁, hd, he⟩ := ok_of_map h
    cases he
    exact keeps_of_select? hd
  | undo =>
    cases h
    unfold undo?
    cases d.history <;> exact ⟨rfl, rfl⟩
  | edit p =>
    obtain ⟨d₁, hd, he⟩ := ok_of_map h
    cases he
    have ht := takes_of_edit? hd
    exact ⟨ht.id_eq, ht.widget_eq⟩
  | type c =>
    obtain ⟨⟨d₁, p⟩, hd, he⟩ := ok_of_map h
    cases he
    have ht := (takes_of_type? hd).1
    exact ⟨ht.id_eq, ht.widget_eq⟩
  | backspace =>
    obtain ⟨⟨d₁, p⟩, hd, he⟩ := ok_of_map h
    cases he
    have ht := (takes_of_backspace? hd).1
    exact ⟨ht.id_eq, ht.widget_eq⟩
  | insertSnippet span snippet =>
    obtain ⟨d₂, hd, he⟩ := ok_of_map h
    obtain ⟨p, d₁, ht, rfl⟩ := takes_of_insertSnippet? hd
    cases he
    exact ⟨ht.id_eq, ht.widget_eq⟩
  | _ => cases h; exact ⟨rfl, rfl⟩

/-- An operation is done to a document, and does not make another one of it. -/
theorem perform_keeps (d : Document) (op : Operation) :
    (d.perform op).id = d.id ∧ (d.perform op).widget = d.widget := by
  unfold perform
  cases ha : d.attempt op with
  | error error => exact ⟨rfl, rfl⟩
  | ok result => exact keeps_of_attempt ha

end Document
end Shorthand
