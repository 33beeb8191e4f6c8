import Shorthand.Proofs.Document.Edit
import Shorthand.Proofs.Patch.Checked
/-!
# Documents with every bound checked

The edits of a document, with the checked operations.  A patch takes all markers of the document along, whoever has put
them there, and moves those only whose ends are in order; so this is what a document has to start with
(`Document.Ordered`), and then it stays so through edits and undos.
-/
namespace Shorthand

namespace Keyed

variable {m : Keyed String Span} {name : String} {s : Span}

/-- The ends of every span are in order. -/
def Ordered (m : Keyed String Span) : Prop := ∀ e ∈ m.entries, e.2.start ≤ e.2.stop

instance (m : Keyed String Span) : Decidable m.Ordered :=
  inferInstanceAs (Decidable (∀ e ∈ m.entries, e.2.start ≤ e.2.stop))

namespace Ordered

theorem erase (h : m.Ordered) (name : String) : (m.erase name).Ordered := fun e he => h e (List.mem_filter.1 he).1

theorem insert (h : m.Ordered) (name : String) (hs : s.start ≤ s.stop) : (m.insert name s).Ordered := by
  intro e he
  rcases List.mem_cons.1 he with rfl | he
  · exact hs
  · exact h.erase name e he

theorem mapValues (h : m.Ordered) {f : Span → Span} (hf : ∀ s : Span, s.start ≤ s.stop → (f s).start ≤ (f s).stop) :
    (m.mapValues f).Ordered := by
  intro e' he'
  obtain ⟨e, he, rfl⟩ := List.mem_map.1 he'
  exact hf e.2 (h e he)

theorem get? (h : m.Ordered) (hs : m.get? name = some s) : s.start ≤ s.stop := by
  obtain ⟨e, he, rfl⟩ := Option.map_eq_some_iff.1 hs
  exact h e (List.mem_of_find?_eq_some he)

end Ordered

def mapValuesChecked (f : Span → Option Span) (m : Keyed String Span) : Option (Keyed String Span) :=
  (m.entries.mapM fun e => (f e.2).map (e.1, ·)).map Keyed.mk

theorem mapM_eq_some_map {α β : Type} {l : List α} {f : α → Option β} {g : α → β} (h : ∀ a ∈ l, f a = some (g a)) :
    l.mapM f = some (l.map g) := by
  induction l with
  | nil => rfl
  | cons a l ih =>
    rw [List.mapM_cons, h a List.mem_cons_self, ih fun b hb => h b (List.mem_cons_of_mem _ hb)]
    rfl

theorem mapValuesChecked_eq (h : m.Ordered) {f : Span → Option Span} {g : Span → Span}
    (hf : ∀ s : Span, s.start ≤ s.stop → f s = some (g s)) : m.mapValuesChecked f = some (m.mapValues g) := by
  have he : ∀ e ∈ m.entries, (f e.2).map (e.1, ·) = some (e.1, g e.2) := fun e he => by
    rw [hf e.2 (h e he), Option.map_some]
  unfold mapValuesChecked
  rw [mapM_eq_some_map he]
  rfl

end Keyed

namespace Document

open Text (closerOf isCloser isAlphanumeric)

variable {d d' : Document} {p : Patch}

/-- **The ends of every marker are in order**, also of those that undoing brings back. -/
structure Ordered (d : Document) : Prop where
  markers : d.markers.Ordered
  history : ∀ s ∈ d.history, s.markers.Ordered

instance (d : Document) : Decidable d.Ordered :=
  decidable_of_iff (d.markers.Ordered ∧ ∀ s ∈ d.history, s.markers.Ordered)
    ⟨fun h => ⟨h.1, h.2⟩, fun h => ⟨h.markers, h.history⟩⟩

namespace Ordered

theorem takes (h : d.Ordered) (ht : d.Takes p d') : d'.Ordered := by
  cases ht with
  | nothing _ _ => exact ⟨h.markers, h.history⟩
  | edit _ _ _ _ =>
    refine ⟨h.markers.mapValues fun s => p.mapSpan_ordered, fun s hs => ?_⟩
    rcases List.mem_cons.1 hs with rfl | hs
    · exact h.markers
    · exact h.history s hs

theorem undo? (h : d.Ordered) (hd : d.undo? = some d') : d'.Ordered := by
  unfold Document.undo? at hd
  split at hd
  · cases hd
  · next s history hs =>
    cases hd
    have hh := h.history
    rw [hs] at hh
    exact ⟨hh s List.mem_cons_self, fun s' hs' => hh s' (List.mem_cons_of_mem _ hs')⟩

theorem setMarker (h : d.Ordered) (name : String) {span : Span} (hs : span.start ≤ span.stop) :
    (d.setMarker name span).Ordered :=
  ⟨h.markers.insert name hs, h.history⟩

theorem clearMarker (h : d.Ordered) (name : String) : (d.clearMarker name).Ordered :=
  ⟨h.markers.erase name, h.history⟩

end Ordered

/-! ## Edits -/

def editChecked? (d : Document) (p : Patch) : Option (Except DocumentError Document) :=
  if d.readonly then some (.error .readonly)
  else if p.isEmpty then some (.ok d)
  else do
    match ← p.resultChecked? d.text with
    | .error error => some (.error (.patch error))
    | .ok text =>
      let anchor ← p.mapPosChecked .after d.selection.anchor
      let head ← p.mapPosChecked .after d.selection.head
      let markers ← d.markers.mapValuesChecked p.mapSpanChecked
      some (.ok { d with
        text
        selection := ⟨anchor, head⟩
        markers
        history := d.snapshot :: d.history
        version := d.nextVersion })

theorem editChecked?_eq (h : d.markers.Ordered) (p : Patch) : d.editChecked? p = some (d.edit? p) := by
  have hm : d.markers.mapValuesChecked p.mapSpanChecked = some (d.markers.mapValues p.mapSpan) :=
    Keyed.mapValuesChecked_eq h fun s => p.mapSpanChecked_eq
  unfold editChecked? edit?
  split
  · rfl
  split
  · rfl
  simp only [p.resultChecked?_eq, Option.bind_eq_bind, Option.bind_some]
  cases p.result? d.text with
  | error error => rfl
  | ok text =>
    simp only [p.mapPosChecked_eq, hm, Option.bind_some]
    rfl

def replaceChecked? (d : Document) (r : Replacement) (caret : Nat) :
    Option (Except DocumentError (Document × Patch)) := do
  match ← Patch.ofChecked? d.length [r] with
  | .error error => some (.error (.patch error))
  | .ok p =>
    match ← d.editChecked? p with
    | .error error => some (.error error)
    | .ok d' => some (.ok ({ d' with selection := .point caret }, p))

theorem replaceChecked?_eq (h : d.markers.Ordered) (r : Replacement) (caret : Nat) :
    d.replaceChecked? r caret = some (d.replace? r caret) := by
  unfold replaceChecked? replace?
  simp only [Patch.ofChecked?_eq, Option.bind_eq_bind, Option.bind_some]
  cases Patch.of? d.length [r] with
  | error error => rfl
  | ok p =>
    simp only [editChecked?_eq h, Option.bind_some]
    cases d.edit? p <;> rfl

/-! ## Keystrokes -/

/-- The char at `pos`, if the text reaches as far. -/
def charAtChecked (d : Document) (pos : Nat) : Option (Option Char) :=
  if pos < d.length then d.text[pos]?.map some else some none

theorem charAtChecked_eq (d : Document) (pos : Nat) : d.charAtChecked pos = some d.text[pos]? := by
  unfold charAtChecked
  split
  · next h =>
    have hc : d.text[pos]? = some d.text[pos] := List.getElem?_eq_getElem h
    rw [hc]
    rfl
  · next h => rw [List.getElem?_eq_none (Nat.le_of_not_lt h)]

def typeChecked? (d : Document) (c : Char) : Option (Except DocumentError (Document × Patch)) := do
  let span := d.selection.span
  let next ← d.charAtChecked span.stop
  if d.autoPairs && span.isEmpty && isCloser c && next = some c then
    some (.ok ({ d with selection := .point (span.stop + 1) }, .empty d.length))
  else
    let closer := if d.autoPairs && !next.any isAlphanumeric then (closerOf c).toList else []
    d.replaceChecked? ⟨span.start, span.stop, c :: closer⟩ (span.start + 1)

theorem typeChecked?_eq (h : d.markers.Ordered) (c : Char) : d.typeChecked? c = some (d.type? c) := by
  unfold typeChecked? type? stepsOver broughtCloser
  dsimp only
  rw [charAtChecked_eq, Option.bind_eq_bind, Option.bind_some, replaceChecked?_eq h]
  split <;> rfl

def backspaceChecked? (d : Document) : Option (Except DocumentError (Document × Patch)) :=
  let span := d.selection.span
  if !span.isEmpty then d.replaceChecked? ⟨span.start, span.stop, []⟩ span.start
  else if span.start = 0 then some (.ok (d, .empty d.length))
  else do
    let start ← sub? span.start 1
    let previous ← d.charAtChecked start
    let next ← d.charAtChecked span.start
    let paired := d.autoPairs && (previous.bind closerOf).isSome && previous.bind closerOf = next
    d.replaceChecked? ⟨start, if paired then span.start + 1 else span.start, []⟩ start

theorem isPairAround_eq (d : Document) (pos : Nat) : d.isPairAround pos =
    ((d.text[pos - 1]?.bind closerOf).isSome && d.text[pos - 1]?.bind closerOf = d.text[pos]?) := by
  unfold isPairAround
  cases d.text[pos - 1]?.bind closerOf with
  | none => rfl
  | some close => simp [eq_comm]

theorem backspaceChecked?_eq (h : d.markers.Ordered) : d.backspaceChecked? = some d.backspace? := by
  unfold backspaceChecked? backspace?
  dsimp only
  split
  · exact replaceChecked?_eq h _ _
  split
  · rfl
  · next hs =>
    rw [sub?_of_le (by omega), charAtChecked_eq, isPairAround_eq]
    simp only [Option.bind_eq_bind, Option.bind_some]
    rw [charAtChecked_eq, Option.bind_some, replaceChecked?_eq h, Bool.and_assoc]

def insertSnippetChecked? (d : Document) (span : Span) (snippet : Text) : Option (Except DocumentError Document) := do
  let flat := Snippet.flatten snippet
  match ← d.replaceChecked? ⟨span.start, span.stop, flat.text⟩ (span.start + flat.caret.getD flat.text.length) with
  | .error error => some (.error error)
  | .ok (d', p) => some (.ok { d' with unreported := d'.unreported ++ [p] })

theorem insertSnippetChecked?_eq (h : d.markers.Ordered) (span : Span) (snippet : Text) :
    d.insertSnippetChecked? span snippet = some (d.insertSnippet? span snippet) := by
  unfold insertSnippetChecked? insertSnippet?
  dsimp only
  rw [replaceChecked?_eq h, Option.bind_eq_bind, Option.bind_some]
  generalize d.replace? _ _ = made
  cases made <;> rfl

end Document
end Shorthand
