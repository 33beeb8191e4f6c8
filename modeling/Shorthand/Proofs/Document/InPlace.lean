import Shorthand.Proofs.Document.InBounds
/-!
# Edits made in place

An editor makes an edit by writing to the document: the text one replacement after the other, then one field after the
other, and whatever it has written when the edit is refused is there to stay.  Here the edits are written down that way
(`Edit.inPlace`).  They come to what the same edits make of the document as a whole, because every check comes before the
first write (`run_inPlace`).  So an edit is made as a whole or not at all, and the patch that it gives is what has
happened (`edit_all_or_nothing`).
-/
namespace Shorthand

/-- With nothing selected, a selection that starts at the start is the caret there. -/
theorem Selection.eq_point_zero {s : Selection} (he : s.span.isEmpty = true) (hs : s.span.start = 0) :
    s = .point 0 := by
  unfold Selection.span Span.between Span.isEmpty at *
  cases s
  simp only [decide_eq_true_eq, point, mk.injEq] at *
  omega

namespace Document

variable {d d' : Document} {p : Patch} {r : Replacement} {error : DocumentError}

/-! ## Writing to a document -/

/-- A program that writes to a document.  What it has written stays when it fails. -/
abbrev InPlace := EStateM DocumentError Document

def writeText (r : Replacement) : InPlace Unit :=
  modify fun d => { d with text := d.text.splice r.start r.stop r.inserted }

/-- Makes the replacements in the text, the last one first, if it has the length that they are for. -/
def writeTexts (p : Patch) : InPlace Unit := do
  let d ← get
  if d.length = p.length then forM p.replacements.reverse writeText
  else throw (.patch (.lengthMismatch p.length d.length))

def editInPlace (p : Patch) : InPlace Unit := do
  let d ← get
  if d.readonly then throw .readonly
  else if p.isEmpty then pure ()
  else
    writeTexts p
    modify fun d' => { d' with history := d.snapshot :: d'.history }
    modify fun d' => { d' with selection := d'.selection.map p }
    modify fun d' => { d' with markers := d'.markers.mapValues p.mapSpan }
    modify fun d' => { d' with version := d'.nextVersion }

def replaceInPlace (r : Replacement) (caret : Nat) : InPlace Patch := do
  let d ← get
  match Patch.of? d.length [r] with
  | .error error => throw (.patch error)
  | .ok p =>
    editInPlace p
    modify fun d' => { d' with selection := .point caret }
    pure p

def typeInPlace (c : Char) : InPlace Patch := do
  let d ← get
  let span := d.selection.span
  if d.stepsOver c then
    modify fun d' => { d' with selection := .point (span.stop + 1) }
    pure (.empty d.length)
  else replaceInPlace ⟨span.start, span.stop, c :: d.broughtCloser c⟩ (span.start + 1)

def backspaceInPlace : InPlace Patch := do
  let d ← get
  let span := d.selection.span
  if !span.isEmpty then replaceInPlace ⟨span.start, span.stop, []⟩ span.start
  else if span.start = 0 then pure (.empty d.length)
  else
    let stop := if d.autoPairs && d.isPairAround span.start then span.start + 1 else span.start
    replaceInPlace ⟨span.start - 1, stop, []⟩ (span.start - 1)

def insertSnippetInPlace (span : Span) (snippet : Text) : InPlace Patch := do
  let flat := Snippet.flatten snippet
  let p ← replaceInPlace ⟨span.start, span.stop, flat.text⟩ (span.start + flat.caret.getD flat.text.length)
  modify fun d => { d with unreported := d.unreported ++ [p] }
  pure p

/-! ## What the programs come to -/

/-- What a program comes to that makes an edit on the document as a whole, or else has written nothing. -/
def atOnce {α : Type} (d : Document) : Except DocumentError (Document × α) → EStateM.Result DocumentError Document α
  | .ok (d', a) => .ok a d'
  | .error error => .error error d

variable {α β : Type} {made : Except DocumentError (Document × α)} {a : α}

theorem atOnce_eq_ok_iff : d.atOnce made = .ok a d' ↔ made = .ok (d', a) := by
  unfold atOnce
  split <;> simp [and_comm]

theorem atOnce_eq_error_iff : d.atOnce made = .error error d' ↔ made = .error error ∧ d' = d := by
  unfold atOnce
  split <;> simp [eq_comm]

variable {x : InPlace α} {f : α → InPlace β}

/-- What comes after a program that succeeds goes on where that has left the document. -/
theorem run_bind_of_ok (h : x.run d = .ok a d') : (x >>= f).run d = (f a).run d' := by
  have hb : (x >>= f).run d = EStateM.bind x f d := rfl
  have hx : x d = .ok a d' := h
  rw [hb]
  unfold EStateM.bind
  rw [hx]
  rfl

theorem run_bind_of_error (h : x.run d = .error error d') : (x >>= f).run d = .error error d' := by
  have hb : (x >>= f).run d = EStateM.bind x f d := rfl
  have hx : x d = .error error d' := h
  rw [hb]
  unfold EStateM.bind
  rw [hx]

/-- Writes that cannot fail may come after a program that writes all or nothing. -/
theorem run_bind_of_atOnce (g : Document × α → Document × β) (h : x.run d = d.atOnce made)
    (hf : ∀ a d', (f a).run d' = .ok (g (d', a)).2 (g (d', a)).1) : (x >>= f).run d = d.atOnce (made.map g) := by
  cases made with
  | ok made =>
    rw [run_bind_of_ok h]
    exact hf made.2 made.1
  | error error =>
    rw [run_bind_of_error h]
    rfl

theorem run_get_bind (f : Document → InPlace β) : (get >>= f).run d = (f d).run d := rfl

theorem run_forM_writeText : ∀ (rs : List Replacement) (d : Document),
    (forM rs.reverse writeText).run d = .ok () { d with text := Patch.replaceAll rs d.text }
  | [], d => rfl
  | r :: rs, d => by
    rw [List.reverse_cons, List.forM_append, run_bind_of_ok (run_forM_writeText rs d)]
    rfl

/-- **All checks of an edit come before its first write.** -/
theorem run_editInPlace (p : Patch) (d : Document) : (editInPlace p).run d = d.atOnce ((d.edit? p).map (·, ())) := by
  unfold editInPlace edit?
  rw [run_get_bind]
  split
  · rfl
  split
  · rfl
  unfold Patch.result?
  by_cases hl : d.length = p.length
  · have hwritten : (writeTexts p).run d = .ok () { d with text := Patch.replaceAll p.replacements d.text } := by
      unfold writeTexts
      rw [run_get_bind, if_pos hl]
      exact run_forM_writeText p.replacements d
    have hl' : d.text.length = p.length := hl
    rw [run_bind_of_ok hwritten, if_pos hl']
    rfl
  · have hrefused : (writeTexts p).run d = .error (.patch (.lengthMismatch p.length d.length)) d := by
      unfold writeTexts
      rw [run_get_bind, if_neg hl]
      rfl
    have hl' : ¬ d.text.length = p.length := hl
    rw [run_bind_of_error hrefused, if_neg hl']
    rfl

theorem run_replaceInPlace (r : Replacement) (caret : Nat) (d : Document) :
    (replaceInPlace r caret).run d = d.atOnce (d.replace? r caret) := by
  unfold replaceInPlace replace?
  rw [run_get_bind]
  cases Patch.of? d.length [r] with
  | error error => rfl
  | ok p =>
    dsimp only
    refine (run_bind_of_atOnce (fun made => ({ made.1 with selection := .point caret }, p)) (run_editInPlace p d)
      fun _ _ => rfl).trans ?_
    cases d.edit? p <;> rfl

theorem run_typeInPlace (c : Char) (d : Document) : (typeInPlace c).run d = d.atOnce (d.type? c) := by
  unfold typeInPlace type?
  rw [run_get_bind]
  dsimp only
  split
  · rfl
  · exact run_replaceInPlace _ _ d

theorem run_backspaceInPlace (d : Document) : backspaceInPlace.run d = d.atOnce d.backspace? := by
  unfold backspaceInPlace backspace?
  rw [run_get_bind]
  dsimp only
  split
  · exact run_replaceInPlace _ _ d
  split
  · rfl
  · exact run_replaceInPlace _ _ d

/-! ## Edits -/

/-- What writes to the text of a document. -/
inductive Edit where
  | patch (p : Patch)
  | type (c : Char)
  | backspace
  | insertSnippet (span : Span) (snippet : Text)
  deriving DecidableEq, Repr

namespace Edit

/-- The edit, made in place, gives the patch that has been made. -/
def inPlace : Edit → InPlace Patch
  | .patch p => do
    editInPlace p
    pure p
  | .type c => typeInPlace c
  | .backspace => backspaceInPlace
  | .insertSnippet span snippet => insertSnippetInPlace span snippet

/-- What the edit leaves to be reported, if it has made the patch `p`. -/
def leaves : Edit → Patch → List Patch
  | .patch _, _ => []
  | .type _, _ => []
  | .backspace, _ => []
  | .insertSnippet _ _, p => [p]

end Edit

/-- `d` after an edit, and the patch that did it. -/
def after? (d : Document) : Edit → Except DocumentError (Document × Patch)
  | .patch p => (d.edit? p).map (·, p)
  | .type c => d.type? c
  | .backspace => d.backspace?
  | .insertSnippet span snippet =>
    (d.insertSnippet? span snippet).map fun d' => (d', d'.unreported.getLastD (.empty d.length))

/-- **The document refuses the edit**: it may not be written to, or what is to be replaced is not in the text. -/
def Refuses (d : Document) : Edit → Prop
  | .patch p => d.readonly = true ∨ (p.isEmpty = false ∧ p.length ≠ d.length)
  | .type c => d.readonly = true ∧ d.stepsOver c = false
  | .backspace => d.readonly = true ∧ d.selection ≠ .point 0
  | .insertSnippet span _ => d.readonly = true ∨ ¬ span.Within d.length

variable {e : Edit}

/-- **An edit in place comes to the edit of the document as a whole.** -/
theorem run_inPlace (e : Edit) (d : Document) : e.inPlace.run d = d.atOnce (d.after? e) := by
  cases e with
  | patch p =>
    refine (run_bind_of_atOnce (fun made => (made.1, p)) (run_editInPlace p d) fun _ _ => rfl).trans ?_
    dsimp only [after?]
    cases d.edit? p <;> rfl
  | type c => exact run_typeInPlace c d
  | backspace => exact run_backspaceInPlace d
  | insertSnippet span snippet =>
    unfold Edit.inPlace insertSnippetInPlace after? insertSnippet?
    dsimp only
    generalize Snippet.flatten snippet = flat
    refine (run_bind_of_atOnce (fun made => ({ made.1 with unreported := made.1.unreported ++ [made.2] }, made.2))
      (run_replaceInPlace _ _ d) fun _ _ => rfl).trans ?_
    cases d.replace? ⟨span.start, span.stop, flat.text⟩ (span.start + flat.caret.getD flat.text.length) with
    | ok made => simp only [Except.map, List.getLastD_concat]
    | error error => rfl

theorem Takes.leaves_nothing (h : d.Takes p d') : d' = { d' with unreported := d.unreported ++ [] } := by
  rw [List.append_nil, ← h.unreported_eq]

/-- **The patch that an edit makes is what it does to the document.** -/
theorem takes_of_after? (h : d.after? e = .ok (d', p)) :
    ∃ d₁, d.Takes p d₁ ∧ d' = { d₁ with unreported := d.unreported ++ e.leaves p } := by
  cases e with
  | patch q =>
    obtain ⟨d₁, hd, he⟩ := ok_of_map h
    cases he
    have ht := takes_of_edit? hd
    exact ⟨d', ht, ht.leaves_nothing⟩
  | type c =>
    have ht := (takes_of_type? h).1
    exact ⟨d', ht, ht.leaves_nothing⟩
  | backspace =>
    have ht := (takes_of_backspace? h).1
    exact ⟨d', ht, ht.leaves_nothing⟩
  | insertSnippet span snippet =>
    obtain ⟨d₂, hd, he⟩ := ok_of_map h
    obtain ⟨q, d₁, ht, rfl⟩ := takes_of_insertSnippet? hd
    cases he
    rw [List.getLastD_concat]
    exact ⟨d₁, ht, by rw [Edit.leaves, ← ht.unreported_eq]⟩

theorem patch_eq_of_after? {q : Patch} (h : d.after? (.patch q) = .ok (d', p)) : p = q := by
  obtain ⟨d₁, -, he⟩ := ok_of_map h
  cases he
  rfl

/-! ## Refused edits -/

theorem map_refused_iff {ε α β : Type} {x : Except ε α} {f : α → β} :
    (∃ error, x.map f = .error error) ↔ ∃ error, x = .error error := by
  cases x with
  | ok a => exact ⟨nofun, nofun⟩
  | error error => exact ⟨fun _ => ⟨error, rfl⟩, fun _ => ⟨error, rfl⟩⟩

theorem edit?_refused_iff :
    (∃ error, d.edit? p = .error error) ↔ d.readonly = true ∨ (p.isEmpty = false ∧ p.length ≠ d.length) := by
  unfold edit? Patch.result?
  cases hw : d.readonly with
  | true => exact ⟨fun _ => .inl rfl, fun _ => ⟨.readonly, rfl⟩⟩
  | false =>
    cases hn : p.isEmpty with
    | true => exact ⟨nofun, by simp⟩
    | false =>
      rw [if_neg Bool.false_ne_true, if_neg Bool.false_ne_true]
      by_cases hl : d.text.length = p.length
      · rw [if_pos hl]
        exact ⟨nofun, fun h => absurd hl.symm (h.resolve_left Bool.false_ne_true).2⟩
      · rw [if_neg hl]
        exact ⟨fun _ => .inr ⟨rfl, fun h => hl h.symm⟩, fun _ => ⟨_, rfl⟩⟩

theorem replace?_refused_iff (r : Replacement) (caret : Nat) :
    (∃ error, d.replace? r caret = .error error) ↔ d.readonly = true ∨ ¬ (r.start ≤ r.stop ∧ r.stop ≤ d.length) := by
  cases hw : d.readonly with
  | true => exact ⟨fun _ => .inl rfl, fun _ => replace?_readonly hw r caret⟩
  | false =>
    by_cases hs : r.start ≤ r.stop ∧ r.stop ≤ d.length
    · obtain ⟨d', p, hd, -⟩ := replace?_ok hw hs.1 hs.2 caret
      rw [hd]
      exact ⟨nofun, fun h => absurd hs (h.resolve_left Bool.false_ne_true)⟩
    · refine ⟨fun _ => .inr hs, fun _ => ?_⟩
      cases hd : d.replace? r caret with
      | ok made => exact absurd (within_of_replace? hd) hs
      | error error => exact ⟨error, rfl⟩

theorem insertSnippet?_refused_iff {span : Span} {snippet : Text} :
    (∃ error, d.insertSnippet? span snippet = .error error) ↔ d.readonly = true ∨ ¬ span.Within d.length := by
  unfold insertSnippet?
  generalize Snippet.flatten snippet = flat
  dsimp only
  generalize hc : span.start + flat.caret.getD flat.text.length = caret
  refine Iff.trans ?_ (replace?_refused_iff ⟨span.start, span.stop, flat.text⟩ caret)
  cases d.replace? ⟨span.start, span.stop, flat.text⟩ caret with
  | ok made => exact ⟨nofun, nofun⟩
  | error error => exact ⟨fun _ => ⟨error, rfl⟩, fun _ => ⟨error, rfl⟩⟩

theorem type?_refused_iff (h : d.selection.Within d.length) {c : Char} :
    (∃ error, d.type? c = .error error) ↔ d.readonly = true ∧ d.stepsOver c = false := by
  constructor
  · rintro ⟨error, he⟩
    refine ⟨((lands_type? h c).readonly he).2, ?_⟩
    cases hover : d.stepsOver c with
    | false => rfl
    | true =>
      unfold type? at he
      rw [if_pos hover] at he
      cases he
  · rintro ⟨hw, hover⟩
    unfold type?
    rw [if_neg (by rw [hover]; exact Bool.false_ne_true)]
    exact replace?_readonly hw _ _

theorem backspace?_refused_iff (h : d.selection.Within d.length) :
    (∃ error, d.backspace? = .error error) ↔ d.readonly = true ∧ d.selection ≠ .point 0 := by
  constructor
  · rintro ⟨error, he⟩
    refine ⟨((lands_backspace? h).readonly he).2, fun hs => ?_⟩
    unfold backspace? at he
    rw [hs] at he
    cases he
  · rintro ⟨hw, hs⟩
    unfold backspace?
    dsimp only
    split
    · exact replace?_readonly hw _ _
    split
    · next hnone hzero => exact absurd (Selection.eq_point_zero (by simpa using hnone) hzero) hs
    · exact replace?_readonly hw _ _

/-- **With the selection in the text, an edit is refused only for what it would replace or where nothing may be
written.** -/
theorem after?_refused_iff (h : d.selection.Within d.length) :
    (∃ error, d.after? e = .error error) ↔ d.Refuses e := by
  cases e with
  | patch p => exact map_refused_iff.trans edit?_refused_iff
  | type c => exact type?_refused_iff h
  | backspace => exact backspace?_refused_iff h
  | insertSnippet span snippet => exact map_refused_iff.trans insertSnippet?_refused_iff

/-! ## All or nothing -/

/-- **An edit is made as a whole or not at all, and its patch is what has happened.**  A refused edit has written
nothing.  The patch of an edit that has been made is for the text before it and gives the text after it, moves every
marker along, and goes with one more state to go back to; if it is empty, nothing but the selection has changed. -/
theorem edit_all_or_nothing (d : Document) (e : Edit) :
    (∀ error d', e.inPlace.run d = .error error d' → d' = d ∧ d.after? e = .error error) ∧
    (∀ p d', e.inPlace.run d = .ok p d' → d.after? e = .ok (d', p) ∧ (∀ q, e = .patch q → p = q) ∧
      d'.unreported = d.unreported ++ e.leaves p ∧
      (p.isEmpty = false → p.length = d.length ∧ p.result? d.text = .ok d'.text ∧
        d'.history = d.snapshot :: d.history ∧ d'.markers = d.markers.mapValues p.mapSpan) ∧
      (p.isEmpty = true → d'.text = d.text ∧ d'.markers = d.markers ∧ d'.history = d.history)) ∧
    (d.selection.Within d.length → ((∃ error d', e.inPlace.run d = .error error d') ↔ d.Refuses e)) := by
  rw [run_inPlace]
  refine ⟨?_, ?_, ?_⟩
  · intro error d' he
    exact (atOnce_eq_error_iff.1 he).symm
  · intro p d' he
    have hd : d.after? e = .ok (d', p) := atOnce_eq_ok_iff.1 he
    refine ⟨hd, fun q hq => patch_eq_of_after? (hq ▸ hd), ?_⟩
    obtain ⟨d₁, ht, rfl⟩ := takes_of_after? hd
    refine ⟨rfl, fun hn => ?_, fun hempty => ?_⟩
    · have hl : p.length = d.length := ht.length_eq hn
      exact ⟨hl, ht.result?_eq hl, ht.history_of_nonempty hn, ht.markers_eq⟩
    · have hleft : d.Leaves d₁ := ht.leaves hempty
      exact ⟨hleft.text, ht.markers_of_isEmpty hempty, hleft.history⟩
  · intro h
    rw [← after?_refused_iff h]
    constructor
    · rintro ⟨error, d', he⟩
      exact ⟨error, (atOnce_eq_error_iff.1 he).1⟩
    · rintro ⟨error, he⟩
      exact ⟨error, d, atOnce_eq_error_iff.2 ⟨he, rfl⟩⟩

/-- A snippet takes the place of what is selected, with a marker on a part of it; where nothing may be written, nothing
is. -/
theorem edit_all_or_nothing_over_a_marker :
    let d := ({ id := 1, text := "a[b]c".toList, selection := ⟨4, 1⟩ } : Document).setMarker "m" ⟨1, 3⟩
    let e := Edit.insertSnippet ⟨1, 4⟩ "($1)x".toList
    let locked := { d with readonly := true }
    d.selection.Within d.length ∧
      (∃ p d', e.inPlace.run d = .ok p d' ∧ p.isEmpty = false ∧ d'.text = "a()xc".toList ∧
        p.result? d.text = .ok d'.text ∧ d'.history = [d.snapshot] ∧ d'.unreported = [p]) ∧
      ∃ error, e.inPlace.run locked = .error error locked := by
  intro d e locked
  have hs : d.selection.Within d.length := ⟨by decide, by decide⟩
  obtain ⟨-, hmade, -⟩ := edit_all_or_nothing d e
  obtain ⟨hleft, -, hrefused⟩ := edit_all_or_nothing locked e
  refine ⟨hs, ?_, ?_⟩
  · let p : Patch := ⟨5, [⟨1, 4, "()x".toList⟩], by decide, by decide⟩
    have hrun : ∃ d', e.inPlace.run d = .ok p d' ∧ d'.text = "a()xc".toList := ⟨_, rfl, rfl⟩
    obtain ⟨d', hrun, ht⟩ := hrun
    obtain ⟨-, -, hunreported, hnonempty, -⟩ := hmade p d' hrun
    obtain ⟨-, hr, hh, -⟩ := hnonempty rfl
    exact ⟨p, d', hrun, rfl, ht, hr, hh, hunreported⟩
  · obtain ⟨error, d', herror⟩ := (hrefused hs).2 (.inl rfl)
    exact ⟨error, (hleft error d' herror).1 ▸ herror⟩

end Document
end Shorthand
