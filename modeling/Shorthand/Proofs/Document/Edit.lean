import Shorthand.Document.Typing
import Shorthand.Proofs.Patch.Extent
/-!
# What an edit does to a document

Every edit, whether a patch, a keystroke or a snippet, comes to the same: `Takes d p d'` says that `d'` is `d` after the
patch `p`, wherever the caret has gone.  An empty patch is no edit; any other puts the state before it on the history.
-/
namespace Shorthand.Document

variable {d d' : Document} {p : Patch}

/-- **`d'` is `d` after the patch `p`**, wherever its selection is. -/
inductive Takes (d : Document) (p : Patch) : Document → Prop
  | nothing (selection : Selection) (empty : p.isEmpty = true) : Takes d p { d with selection }
  | edit {text : Text} (selection : Selection) (writable : d.readonly = false) (nonempty : p.isEmpty = false)
      (result : p.result? d.text = .ok text) :
      Takes d p { d with
        text
        selection
        markers := d.markers.mapValues p.mapSpan
        history := d.snapshot :: d.history
        version := d.nextVersion }

namespace Takes

theorem withSelection (h : d.Takes p d') (selection : Selection) : d.Takes p { d' with selection } := by
  cases h with
  | nothing _ he => exact .nothing selection he
  | edit _ hw hn hr => exact .edit selection hw hn hr

theorem id_eq (h : d.Takes p d') : d'.id = d.id := by cases h <;> rfl

theorem widget_eq (h : d.Takes p d') : d'.widget = d.widget := by cases h <;> rfl

theorem unreported_eq (h : d.Takes p d') : d'.unreported = d.unreported := by cases h <;> rfl

theorem readonly_eq (h : d.Takes p d') : d'.readonly = d.readonly := by cases h <;> rfl

theorem autoPairs_eq (h : d.Takes p d') : d'.autoPairs = d.autoPairs := by cases h <;> rfl

theorem markers_eq (h : d.Takes p d') : d'.markers = d.markers.mapValues p.mapSpan := by
  cases h with
  | nothing _ he =>
    have hid : p.mapSpan = fun s => s := funext (Patch.mapSpan_of_isEmpty he)
    rw [hid, Keyed.mapValues_id]
  | edit _ _ _ _ => rfl

theorem marker?_eq (h : d.Takes p d') (name : String) : d'.marker? name = (d.marker? name).map p.mapSpan := by
  unfold marker?
  rw [h.markers_eq, Keyed.get?_mapValues]

/-- The patch makes the text after it from the text before it. -/
theorem result?_eq (h : d.Takes p d') (hl : p.length = d.length) : p.result? d.text = .ok d'.text := by
  cases h with
  | nothing _ he =>
    have hr : p.result? d.text = .ok (Patch.replaceAll p.replacements d.text) := if_pos hl.symm
    rw [hr, List.isEmpty_iff.1 he]
    rfl
  | edit _ _ _ hr => exact hr

theorem writable (h : d.Takes p d') (hn : p.isEmpty = false) : d.readonly = false := by
  cases h with
  | nothing _ he => rw [he] at hn; cases hn
  | edit _ hw _ _ => exact hw

theorem within (h : d.Takes p d') {s : Span} (hs : s.Within d.length) : (p.mapSpan s).Within d'.length := by
  cases h with
  | nothing _ he => rwa [Patch.mapSpan_of_isEmpty he]
  | @edit text _ _ _ hr =>
    have hl : p.length = d.length := Patch.length_eq_of_result? hr
    have hl' : text.length = p.lengthAfter := Patch.length_of_result? hr
    have hw : (p.mapSpan s).Within p.lengthAfter := Patch.mapSpan_within (hl ▸ hs)
    rw [← hl'] at hw
    exact hw

theorem lengthAfter_eq (h : d.Takes p d') (hl : p.length = d.length) : p.lengthAfter = d'.length := by
  cases h with
  | nothing _ he => exact (Patch.lengthAfter_of_isEmpty he).trans hl
  | edit _ _ _ hr => exact (Patch.length_of_result? hr).symm

theorem length_eq (h : d.Takes p d') (hn : p.isEmpty = false) : p.length = d.length := by
  cases h with
  | nothing _ he => rw [he] at hn; cases hn
  | edit _ _ _ hr => exact Patch.length_eq_of_result? hr

theorem mem_history (h : d.Takes p d') {s : Snapshot} (hs : s ∈ d'.history) : s = d.snapshot ∨ s ∈ d.history := by
  cases h with
  | nothing _ _ => exact .inr hs
  | edit _ _ _ _ => exact List.mem_cons.1 hs

theorem markers_of_isEmpty (h : d.Takes p d') (he : p.isEmpty = true) : d'.markers = d.markers := by
  cases h with
  | nothing _ _ => rfl
  | edit _ _ hn _ => rw [he] at hn; cases hn

theorem history_of_isEmpty (h : d.Takes p d') (he : p.isEmpty = true) : d'.history = d.history := by
  cases h with
  | nothing _ _ => rfl
  | edit _ _ hn _ => rw [he] at hn; cases hn

theorem history_of_nonempty (h : d.Takes p d') (hn : p.isEmpty = false) : d'.history = d.snapshot :: d.history := by
  cases h with
  | nothing _ he => rw [he] at hn; cases hn
  | edit _ _ _ _ => rfl

end Takes

/-! ## The edits -/

/-- A document that takes edits takes an empty patch for none, whatever text it is for. -/
theorem edit?_of_isEmpty (he : p.isEmpty = true) : d.edit? p = if d.readonly then .error .readonly else .ok d := by
  unfold edit?
  rw [he, if_pos rfl]

theorem takes_of_edit? (h : d.edit? p = .ok d') : d.Takes p d' := by
  unfold edit? at h
  split at h
  · cases h
  next hw =>
  split at h
  · next he =>
    cases h
    exact .nothing d.selection he
  next hn =>
  split at h
  · cases h
  next text hr =>
  cases h
  exact .edit _ (by simpa using hw) (by simpa using hn) hr

theorem takes_of_replace? {r : Replacement} {caret : Nat} (h : d.replace? r caret = .ok (d', p)) :
    d.Takes p d' ∧ p.length = d.length := by
  unfold replace? at h
  split at h
  · cases h
  next p' hp =>
  split at h
  · cases h
  next d₁ hd =>
  cases h
  exact ⟨(takes_of_edit? hd).withSelection _, (Patch.of?_eq_ok_iff.1 hp).2.1⟩

/-- What has been replaced was a stretch of the text. -/
theorem within_of_replace? {r : Replacement} {caret : Nat} (h : d.replace? r caret = .ok (d', p)) :
    r.start ≤ r.stop ∧ r.stop ≤ d.length := by
  unfold replace? at h
  split at h
  · cases h
  next p hp =>
  obtain ⟨⟨-, hs, hl, -⟩, -⟩ := Patch.of?_eq_ok_iff.1 hp
  exact ⟨hs, hl⟩

/-- **A char typed is an edit**, or steps over a closer. -/
theorem takes_of_type? {c : Char} (h : d.type? c = .ok (d', p)) : d.Takes p d' ∧ p.length = d.length := by
  unfold type? at h
  dsimp only at h
  split at h
  · cases h
    exact ⟨.nothing _ rfl, rfl⟩
  · exact takes_of_replace? h

theorem takes_of_backspace? (h : d.backspace? = .ok (d', p)) : d.Takes p d' ∧ p.length = d.length := by
  unfold backspace? at h
  dsimp only at h
  split at h
  · exact takes_of_replace? h
  · split at h
    · cases h
      exact ⟨.nothing _ rfl, rfl⟩
    · exact takes_of_replace? h

/-- **A snippet put in is an edit**, which is left to be reported. -/
theorem takes_of_insertSnippet? {span : Span} {snippet : Text} (h : d.insertSnippet? span snippet = .ok d') :
    ∃ p d₁, d.Takes p d₁ ∧ d' = { d₁ with unreported := d₁.unreported ++ [p] } := by
  unfold insertSnippet? at h
  dsimp only at h
  split at h
  · cases h
  next d₁ p hd =>
  cases h
  exact ⟨p, d₁, (takes_of_replace? hd).1, rfl⟩

theorem undo?_of_history {s : Snapshot} {history : List Snapshot} (h : d.history = s :: history) :
    ∃ d', d.undo? = some d' ∧ d'.snapshot = s ∧ d'.history = history := by
  unfold undo?
  rw [h]
  exact ⟨_, rfl, rfl, rfl⟩

/-! ## What a document accepts -/

/-- **A replacement within the text is made**, and the caret put where told. -/
theorem replace?_ok {r : Replacement} (hw : d.readonly = false) (hs : r.start ≤ r.stop) (hl : r.stop ≤ d.length)
    (caret : Nat) : ∃ d' p, d.replace? r caret = .ok (d', p) ∧ p.result? d.text = .ok d'.text ∧
      d'.text = d.text.splice r.start r.stop r.inserted ∧ d'.selection = .point caret := by
  have hfits : Replacement.Fits d.length 0 [r] := ⟨Nat.zero_le _, hs, hl, trivial⟩
  obtain ⟨p, hp, hlen, hrs⟩ := Patch.of?_of_fits hfits
  have hr : p.result? d.text = .ok (Patch.replaceAll p.replacements d.text) := if_pos hlen.symm
  unfold replace?
  rw [hp]
  dsimp only
  unfold edit? Patch.isEmpty
  by_cases he : r.Effective
  · rw [List.filter_cons_of_pos (by simpa using he), List.filter_nil] at hrs
    rw [hrs] at hr
    rw [hw, hr, hrs]
    exact ⟨_, p, rfl, hr, rfl, rfl⟩
  · -- nothing is taken away and nothing put in
    rw [List.filter_cons_of_neg (by simpa using he), List.filter_nil] at hrs
    obtain ⟨hstart, hinserted⟩ := not_or.1 he
    have ht : d.text = d.text.splice r.start r.stop r.inserted := by
      rw [Decidable.not_not.1 hstart, Decidable.not_not.1 hinserted]
      exact (List.take_append_drop r.stop d.text).symm
    rw [hrs] at hr
    rw [hw, hrs]
    exact ⟨_, p, rfl, hr, ht, rfl⟩

theorem replace?_readonly (hw : d.readonly = true) (r : Replacement) (caret : Nat) :
    ∃ error, d.replace? r caret = .error error := by
  unfold replace?
  split
  · exact ⟨_, rfl⟩
  · unfold edit?
    rw [hw]
    exact ⟨_, rfl⟩

/-- **A snippet takes the place of a stretch of the text**, and the caret goes to its first stop. -/
theorem insertSnippet?_ok {span : Span} (hw : d.readonly = false) (hs : span.Within d.length) (snippet : Text) :
    ∃ d' p, d.insertSnippet? span snippet = .ok d' ∧
      p.result? d.text = .ok d'.text ∧ d'.unreported = d.unreported ++ [p] ∧
      d'.text = d.text.splice span.start span.stop (Snippet.flatten snippet).text ∧
      d'.selection = .point (span.start +
        (Snippet.flatten snippet).caret.getD (Snippet.flatten snippet).text.length) := by
  unfold insertSnippet?
  generalize Snippet.flatten snippet = flat
  obtain ⟨d', p, hd, hr, ht, hc⟩ := replace?_ok (r := ⟨span.start, span.stop, flat.text⟩) hw hs.1 hs.2
    (span.start + flat.caret.getD flat.text.length)
  dsimp only
  rw [hd]
  exact ⟨_, p, rfl, hr, by rw [(takes_of_replace? hd).1.unreported_eq], ht, hc⟩

theorem insertSnippet?_readonly (hw : d.readonly = true) (span : Span) (snippet : Text) :
    ∃ error, d.insertSnippet? span snippet = .error error := by
  unfold insertSnippet?
  generalize Snippet.flatten snippet = flat
  obtain ⟨error, he⟩ := replace?_readonly hw ⟨span.start, span.stop, flat.text⟩
    (span.start + flat.caret.getD flat.text.length)
  dsimp only
  rw [he]
  exact ⟨error, rfl⟩

end Shorthand.Document
