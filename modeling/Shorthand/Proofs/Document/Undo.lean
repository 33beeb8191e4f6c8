import Shorthand.Proofs.Document.Operations
/-!
# Undoing is exact

The history of a document is a stack.  An edit puts the state before it on top, an undo takes the top off, and nothing
else touches it: so as many undos as there are edits left bring back the text, the selection and the markers from
before the first of them, whatever has been done meanwhile, undos included (`undo_exact`).
-/
namespace Shorthand.Document

variable {d : Document} {op : Operation}

/-- The document after undoing `n` times, if there is as much to undo. -/
def undoTimes? (d : Document) : Nat → Option Document
  | 0 => some d
  | n + 1 => d.undo?.bind (·.undoTimes? n)

/-! ## Counting edits -/

/-- How many of the operations are edits. -/
def editCount (d : Document) : List Operation → Nat
  | [] => 0
  | op :: ops => (d.perform op).editCount ops + if d.edits op then 1 else 0

/-- The document just before the first edit, or after all the operations if none of them is one. -/
def beforeEdits (d : Document) : List Operation → Document
  | [] => d
  | op :: ops => if d.edits op then d else (d.perform op).beforeEdits ops

/-- How many edits there are to undo after an operation, if there are `n` before it. -/
def leftAfter (d : Document) (n : Nat) (op : Operation) : Nat :=
  if op = .undo then n - 1 else if d.edits op then n + 1 else n

/-- **How many edits there are to undo after some operations**, if there are `n` before them. -/
def editsLeft (d : Document) (n : Nat) : List Operation → Nat
  | [] => n
  | op :: ops => (d.perform op).editsLeft (d.leftAfter n op) ops

/-- **No undo reaches further back** than the `n` edits before the operations. -/
def undoesWithin (d : Document) (n : Nat) : List Operation → Bool
  | [] => true
  | op :: ops => (op ≠ .undo || 0 < n) && (d.perform op).undoesWithin (d.leftAfter n op) ops

theorem leftAfter_of_edits (h : d.edits op = true) (n : Nat) : d.leftAfter n op = n + 1 := by
  have hu : op ≠ .undo := by rintro rfl; cases h
  simp [leftAfter, hu, h]

theorem leftAfter_of_not_edits (hu : op ≠ .undo) (h : d.edits op = false) (n : Nat) : d.leftAfter n op = n := by
  simp [leftAfter, hu, h]

/-- Without undos what is left are the edits made. -/
theorem editsLeft_of_no_undo {ops : List Operation} (h : .undo ∉ ops) (n : Nat) :
    d.undoesWithin n ops = true ∧ d.editsLeft n ops = n + d.editCount ops := by
  induction ops generalizing d n with
  | nil => exact ⟨rfl, rfl⟩
  | cons op ops ih =>
    rw [List.mem_cons, not_or] at h
    obtain ⟨hu, h⟩ := h
    obtain ⟨hw, hl⟩ := ih (d := d.perform op) h (d.leftAfter n op)
    have hn : d.leftAfter n op = n + if d.edits op then 1 else 0 := by
      cases he : d.edits op with
      | true => rw [leftAfter_of_edits he, if_pos rfl]
      | false => rw [leftAfter_of_not_edits (Ne.symm hu) he, if_neg (by simp), Nat.add_zero]
    constructor
    · simp [undoesWithin, hw, Ne.symm hu]
    · unfold editsLeft editCount
      rw [hl]
      omega

/-! ## The history is a stack -/

theorem history_perform_undo (d : Document) : (d.perform .undo).history = d.history.tail := by
  rw [perform_undo]
  cases hh : d.history with
  | nil => simp [undo?, hh]
  | cons s history =>
    obtain ⟨d', hd, -, hh'⟩ := undo?_of_history hh
    simp [hd, hh']

/-- **An operation touches nothing on the history but what it counts**: it takes the top off, if it is an undo, or puts
one more on top, if it is an edit. -/
theorem history_perform {top base : List Snapshot} (h : d.history = top ++ base) (hw : op ≠ .undo ∨ 0 < top.length) :
    ∃ top', (d.perform op).history = top' ++ base ∧ top'.length = d.leftAfter top.length op := by
  by_cases hu : op = .undo
  · subst hu
    obtain ⟨s, top, rfl⟩ := List.exists_cons_of_length_pos (hw.resolve_left (by simp))
    refine ⟨top, ?_, by simp [leftAfter]⟩
    rw [history_perform_undo, h]
    rfl
  · cases he : d.edits op with
    | true => exact ⟨d.snapshot :: top, by rw [(perform_of_edits he).1, h]; rfl, by rw [leftAfter_of_edits he]; rfl⟩
    | false =>
      exact ⟨top, by rw [(leaves_of_not_edits hu he).history, h], by rw [leftAfter_of_not_edits hu he]⟩

/-- **What was on the history stays there** as long as no undo reaches back to it. -/
theorem history_run {ops : List Operation} {top base : List Snapshot} (h : d.history = top ++ base)
    (hw : d.undoesWithin top.length ops = true) :
    ∃ top', (d.run ops).history = top' ++ base ∧ top'.length = d.editsLeft top.length ops := by
  induction ops generalizing d top with
  | nil => exact ⟨top, h, rfl⟩
  | cons op ops ih =>
    unfold undoesWithin at hw
    obtain ⟨hop, hw⟩ := Bool.and_eq_true_iff.1 hw
    have hop : op ≠ .undo ∨ 0 < top.length := by simpa using hop
    obtain ⟨top', h', hl⟩ := history_perform h hop
    rw [← hl] at hw
    unfold editsLeft
    rw [← hl]
    exact ih h' hw

theorem length_history_run (d : Document) (ops : List Operation) :
    (d.run ops).history.length = d.editsLeft d.history.length ops := by
  induction ops generalizing d with
  | nil => rfl
  | cons op ops ih =>
    have hstep : (d.perform op).history.length = d.leftAfter d.history.length op := by
      by_cases hu : op = .undo
      · subst hu
        simp [history_perform_undo, leftAfter]
      · cases he : d.edits op with
        | true => rw [(perform_of_edits he).1, leftAfter_of_edits he, List.length_cons]
        | false => rw [(leaves_of_not_edits hu he).history, leftAfter_of_not_edits hu he]
    unfold editsLeft
    rw [← hstep]
    exact ih (d.perform op)

/-- Undoing down to a snapshot brings it back. -/
theorem undoTimes?_of_history {top base : List Snapshot} {s : Snapshot} (h : d.history = top ++ s :: base) :
    ∃ d', d.undoTimes? (top.length + 1) = some d' ∧ d'.snapshot = s ∧ d'.history = base := by
  induction top generalizing d with
  | nil =>
    obtain ⟨d', hd, hs, hh⟩ := undo?_of_history h
    exact ⟨d', by simp [undoTimes?, hd], hs, hh⟩
  | cons s' top ih =>
    obtain ⟨d₁, hd, -, hh⟩ := undo?_of_history h
    obtain ⟨d', hd', hs⟩ := ih hh
    exact ⟨d', by rw [undoTimes?, hd]; exact hd', hs⟩

theorem undo?_eq_none_iff : d.undo? = none ↔ d.history = [] := by
  unfold undo?
  split <;> simp [*]

/-! ## Undoing what has been edited -/

/-- **Undoing an edit and all that came after it** brings back what was before it. -/
theorem undoTimes?_edit (he : d.edits op = true) {ops : List Operation}
    (hw : (d.perform op).undoesWithin 0 ops = true) :
    ∃ d', (d.run (op :: ops)).undoTimes? ((d.perform op).editsLeft 0 ops + 1) = some d' ∧ d'.snapshot = d.snapshot := by
  have hbase : (d.perform op).history = [] ++ d.snapshot :: d.history := (perform_of_edits he).1
  obtain ⟨top, hh, hl⟩ := history_run hbase hw
  obtain ⟨d', hd, hs, -⟩ := undoTimes?_of_history hh
  rw [hl] at hd
  exact ⟨d', hd, hs⟩

/-- **Undoing as often as there have been edits** brings back what was before the first of them. -/
theorem undoTimes?_editCount {ops : List Operation} (h : .undo ∉ ops) :
    ∃ d', (d.run ops).undoTimes? (d.editCount ops) = some d' ∧ d'.snapshot = (d.beforeEdits ops).snapshot := by
  induction ops generalizing d with
  | nil => exact ⟨d, rfl, rfl⟩
  | cons op ops ih =>
    have hops : .undo ∉ ops := fun hm => h (List.mem_cons_of_mem op hm)
    unfold editCount beforeEdits
    cases he : d.edits op with
    | true =>
      obtain ⟨hw, hl⟩ := editsLeft_of_no_undo (d := d.perform op) hops 0
      obtain ⟨d', hd, hs⟩ := undoTimes?_edit he hw
      rw [hl, Nat.zero_add] at hd
      exact ⟨d', hd, hs⟩
    | false => exact ih hops

/-! ## The version -/

theorem version_perform (h : d.version ≤ maxOffset) (op : Operation) :
    d.version ≤ (d.perform op).version ∧ (d.perform op).version ≤ maxOffset := by
  have hnext : d.version ≤ d.nextVersion ∧ d.nextVersion ≤ maxOffset := by
    unfold nextVersion
    omega
  by_cases hu : op = .undo
  · subst hu
    rw [perform_undo]
    unfold undo?
    split
    · exact ⟨Nat.le_refl _, h⟩
    · exact hnext
  · cases he : d.edits op with
    | true => rwa [(perform_of_edits he).2]
    | false =>
      rw [(leaves_of_not_edits hu he).version]
      exact ⟨Nat.le_refl _, h⟩

theorem version_run (h : d.version ≤ maxOffset) (ops : List Operation) : d.version ≤ (d.run ops).version := by
  induction ops generalizing d with
  | nil => exact Nat.le_refl _
  | cons op ops ih =>
    obtain ⟨hle, hmax⟩ := version_perform h op
    exact Nat.le_trans hle (ih hmax)

/-! ## The stack as a whole -/

/-- **Undoing is exact**, in every document and whatever is done to it.
- Anything that changes the text, undos apart, is an edit.
- After operations without undos, as many undos as there were edits succeed and bring back the text, the selection and
  the markers from just before the first edit.
- So they do among undos: an edit that has not been undone is undone together with all edits left after it.
- An undo fails exactly when no edit is left, and then changes nothing.
- The version, a word of 64 bits, never decreases. -/
theorem undo_exact (d : Document) :
    (∀ op, op ≠ .undo → (d.perform op).text ≠ d.text → d.edits op = true) ∧
    (∀ ops, .undo ∉ ops → ∃ d', (d.run ops).undoTimes? (d.editCount ops) = some d' ∧
      d'.snapshot = (d.beforeEdits ops).snapshot) ∧
    (∀ op ops, d.edits op = true → (d.perform op).undoesWithin 0 ops = true →
      ∃ d', (d.run (op :: ops)).undoTimes? ((d.perform op).editsLeft 0 ops + 1) = some d' ∧
        d'.snapshot = d.snapshot) ∧
    (∀ ops, ((d.run ops).undo? = none ↔ d.editsLeft d.history.length ops = 0) ∧
      ((d.run ops).undo? = none → (d.run ops).perform .undo = d.run ops)) ∧
    (d.version ≤ maxOffset → ∀ ops, d.version ≤ (d.run ops).version) := by
  refine ⟨?_, ?_, ?_, ?_, version_run⟩
  · intro op hu ht
    cases he : d.edits op with
    | true => rfl
    | false => exact absurd (leaves_of_not_edits hu he).text ht
  · intro ops h
    exact undoTimes?_editCount h
  · intro op ops he hw
    exact undoTimes?_edit he hw
  · intro ops
    constructor
    · rw [undo?_eq_none_iff, ← List.length_eq_zero_iff, length_history_run]
    · intro hn
      rw [perform_undo, hn, Option.getD_none]

/-- Of an opening bracket, a letter and a snippet two edits are left when the letter has been taken back: two undos
bring back the text without a bracket and the marker where it was, though it has been cleared. -/
theorem undo_exact_with_a_letter_taken_back :
    let d := ({ id := 1, text := "ab".toList, selection := .point 2 } : Document).setMarker "m" ⟨0, 2⟩
    let ops : List Operation := [.moveTo 1, .type 'x', .select 0 4, .undo, .clearMarker "m", .protect true, .backspace,
      .protect false, .insertSnippet ⟨0, 1⟩ "p$\x7b1\x7d".toList]
    (d.perform (.type '(')).text = "ab()".toList ∧ (d.run (.type '(' :: ops)).text = "pb()".toList ∧
      ∃ d', (d.run (.type '(' :: ops)).undoTimes? 2 = some d' ∧ d'.text = "ab".toList ∧ d'.selection = .point 2 ∧
        d'.marker? "m" = some ⟨0, 2⟩ := by
  intro d ops
  have hx : (d.perform (.type '(')).text = "ab()".toList := by decide +kernel
  have he : d.edits (.type '(') = true := (undo_exact d).1 _ (by decide) (by rw [hx]; decide)
  have hl : (d.perform (.type '(')).editsLeft 0 ops = 1 := by decide +kernel
  obtain ⟨d', hd, hs⟩ := (undo_exact d).2.2.1 (.type '(') ops he (by decide +kernel)
  rw [hl] at hd
  exact ⟨hx, by decide +kernel, d', hd, congrArg Snapshot.text hs, congrArg Snapshot.selection hs,
    congrArg (·.markers.get? "m") hs⟩

end Shorthand.Document
