import Shorthand.Proofs.Abbreviation.Stops
import Shorthand.Proofs.Session.Expansion
/-!
# One expansion for each intent

The markup that expanding puts in is reported as any other edit is, and the caret may then be one char behind where it
last was, as if that char had been typed.  But the caret is behind a quote or a tag, which open no abbreviation, so that
the session is `Idle`, and remains so however much is reported (`expand_ends_tracking`).
-/
namespace Shorthand

open Snippet (IsGuard)
open Text (isAbbreviationStart isMarkedStart)

/-! ## Behind a guard -/

theorem not_start_of_isGuard {c : Char} (h : IsGuard c) : isAbbreviationStart c = false ∧ isMarkedStart c = false := by
  rcases h with rfl | rfl <;> decide

/-- Nothing starts behind a guard, with a marker that leads abbreviations in or without. -/
theorem trackingStart?_of_guard {t : Text} {pos : Nat} (hpos : pos ≤ t.length) {c : Char}
    (hc : c ∈ (t.take pos).getLast?) (h : IsGuard c) (lead : Option Text) : trackingStart? t pos lead = none := by
  obtain ⟨ha, hm⟩ := not_start_of_isGuard h
  cases pos with
  | zero => simp at hc
  | succ before =>
    have hget : t[before]? = some c := by
      rw [List.getLast?_take] at hc
      simpa [List.getElem?_eq_getElem hpos] using hc
    rw [trackingStart?_eq_ite]
    refine if_neg fun ⟨_, _, ho⟩ => ?_
    cases lead with
    | none =>
      rw [opensAt_none_iff hget, ha, Bool.and_false] at ho
      cases ho
    | some lead =>
      rw [opensAt_some_iff hget, hm, Bool.and_false] at ho
      cases ho

/-- What stands before the caret in a piece stands before it in a text with that piece in it. -/
theorem Text.getLast?_take_splice {t : Text} {span : Span} (h : span.Within t.length) {piece : Text} {pos : Nat}
    (hpos : pos ≤ piece.length) {c : Char} (hc : c ∈ (piece.take pos).getLast?) :
    c ∈ ((t.splice span.start span.stop piece).take (span.start + pos)).getLast? := by
  have hl : (t.take span.start).length = span.start := List.length_take_of_le (Nat.le_trans h.1 h.2)
  have ht : (t.splice span.start span.stop piece).take (span.start + pos) = t.take span.start ++ piece.take pos := by
    unfold Text.splice
    rw [List.take_append, List.take_of_length_le (by omega), hl, Nat.add_sub_cancel_left,
      List.take_append_of_le_length hpos]
  rw [ht, List.getLast?_append, Option.mem_def.1 hc]
  rfl

/-! ## Expansions without a dollar -/

/-- **The caret goes right behind a guard** when an abbreviation without a dollar expands. -/
theorem Tracker.caret_guarded {t : Tracker} {d : Document} (hw : t.region.start ≤ t.region.stop) {snippet : Text}
    (h : t.due? d = some snippet) (hd : '$' ∉ t.region.textIn d.text) :
    let flat := Snippet.flatten snippet
    ∃ c ∈ (flat.text.take (flat.caret.getD flat.text.length)).getLast?, IsGuard c := by
  unfold due? at h
  dsimp only at h
  split at h
  · cases h
  split at h
  · cases h
  next nodes hr =>
  have he : Abbreviation.expand nodes (t.optionsIn d.text) = .ok snippet := by
    cases he : Abbreviation.expand nodes (t.optionsIn d.text) with
    | error => rw [he] at h; cases h
    | ok => rw [he] at h; cases h; rfl
  -- the abbreviation is what the region has behind the marker
  have hs : d.text.slice (min (t.region.start + t.offset) t.region.stop) t.region.stop ⊆
      t.region.textIn d.text := by
    unfold Span.textIn Text.slice
    exact List.drop_subset_drop_left _ (by omega)
  have hn : '$' ∉ Abbreviation.nodesChars nodes := fun hc => hd (hs (Abbreviation.chars_of_read hr hc))
  exact Snippet.caret_guarded (Abbreviation.guarded_expand hn he) (.inr rfl)

namespace Session

variable {s : Session}

/-! ## Sessions with nothing to track -/

/-- **Nothing is tracked and the char before the caret opens nothing.** -/
structure Idle (s : Session) : Prop where
  tracker : s.tracker? = none
  opening : trackingStart? s.document.text s.document.caret s.service.lead? = none

namespace Idle

theorem onModified (h : s.Idle) (p : Patch) : (s.onModified p).Idle := by
  have hstart : s.startIfTyped = s := by
    unfold startIfTyped startTyped?
    rw [h.opening]
    split
    · split <;> rfl
    · rfl
  have hstop : s.stopIfInvalid = s := by
    unfold stopIfInvalid
    rw [h.tracker]
    rfl
  unfold Session.onModified
  split
  · exact h
  · rw [followEdit_of_none h.tracker, hstart, hstop]
    exact ⟨h.tracker, h.opening⟩

theorem onModified_all (h : s.Idle) (ps : List Patch) : (ps.foldl (fun s p => s.onModified p) s).Idle := by
  induction ps generalizing s with
  | nil => exact h
  | cons p ps ih => exact ih (h.onModified p)

end Idle

/-- **However much is reported, an idle session starts to track nothing.** -/
theorem Idle.flush (h : s.Idle) : s.flush.tracker? = none := by
  have hr : (s.withDocument s.document.reported).Idle := ⟨h.tracker, h.opening⟩
  exact (Quiet.onSelectionModified _).untracked (hr.onModified_all s.document.unreported).tracker

/-- What expands without a dollar leaves an idle session. -/
theorem idle_expand {t : Tracker} (ht : s.tracker? = some t) (hc : t.region.contains s.document.caret = true)
    (hr : t.ReadsIn s.document.text) {snippet : Text} (hdue : t.due? s.document = some snippet)
    (hd : '$' ∉ t.region.textIn s.document.text) : s.expand.Idle := by
  obtain ⟨d, -, hi, -, -, htext, hsel⟩ := Document.insertSnippet?_ok (Tracker.writable_of_due? hdue) hr.within snippet
  have hpos := Snippet.caret_le snippet
  obtain ⟨c, hlast, hg⟩ := Tracker.caret_guarded hr.within.1 hdue hd
  generalize Snippet.flatten snippet = flat at htext hsel hpos hlast
  have hcaret : d.caret = t.region.start + flat.caret.getD flat.text.length := congrArg Selection.head hsel
  have hin : d.caret ≤ d.text.length := by
    obtain ⟨hw, hw'⟩ := hr.within
    rw [hcaret, htext, Text.length_splice hw hw']
    omega
  rw [expand_of_due_some ht hc hr hdue hi]
  refine ⟨tracker?_stop _, ?_⟩
  refine trackingStart?_of_guard hin (c := c) ?_ hg _
  rw [hcaret, htext]
  exact Text.getLast?_take_splice hr.within hpos hlast

end Session

namespace Opening

/-- **One expansion for each intent**: where the tracked region around the caret has no dollar, nothing is tracked once
the command to expand and whatever it put in have been reported. -/
theorem expand_ends_tracking (o : Opening) (steps : List Host.Step) {i : Nat} {s : Session}
    (hs : (o.host.run steps).session? i = some s) {t : Tracker} (ht : s.tracker? = some t)
    (hc : t.region.contains s.document.caret = true) (hd : '$' ∉ t.region.textIn s.document.text) :
    ∃ s', ((o.host.run steps).step (.on i (.command .expand))).session? i = some s' ∧ s'.tracker? = none := by
  obtain ⟨h, -, hu⟩ := (o.sound steps).of_session? hs
  refine ⟨s.expand.flush, Host.session?_on_self hs (·.act (.command .expand)), ?_⟩
  cases hdue : t.due? s.document with
  | none =>
    rw [Session.expand_of_due_none ht hc (h.reads t ht) hdue, Session.flush_of_nil (s := s.stop) hu]
    exact (Session.Quiet.onSelectionModified s.stop).untracked (Session.tracker?_stop s)
  | some snippet => exact (Session.idle_expand ht hc (h.reads t ht) hdue hd).flush

/-- The caret comes to be one char behind where it last was, right behind the quote that leads abbreviations in. -/
theorem expand_ends_tracking_behind_quote :
    let o := ofTexts ⟨"jsx", true⟩ { lead := ['"'] } [['"']]
    let steps : List Host.Step := [.on 0 (.type "a[b]".toList)]
    ∃ s s', (o.host.run steps).session? 0 = some s ∧ s.service.carets.get? s.document.id = some 5 ∧
      ((o.host.run steps).step (.on 0 (.command .expand))).session? 0 = some s' ∧
      s'.document.text = "<a b=\"\"></a>".toList ∧ s'.document.caret = 6 ∧ s'.tracker? = none := by
  intro o steps
  have hc : ((o.host.run steps).session? 0).any (fun s => s.service.carets.get? s.document.id = some 5 &&
      s.tracker?.any fun t => t.region.contains s.document.caret &&
        !(t.region.textIn s.document.text).contains '$') = true := by decide +kernel
  obtain ⟨s, hs, hc⟩ := (Option.any_eq_true _ _).1 hc
  obtain ⟨hl, hc⟩ := Bool.and_eq_true_iff.1 hc
  obtain ⟨t, ht, hc⟩ := (Option.any_eq_true _ _).1 hc
  obtain ⟨hc, hd⟩ := Bool.and_eq_true_iff.1 hc
  obtain ⟨s', hs', hn⟩ := expand_ends_tracking o steps hs ht hc (by simpa using hd)
  have hx : (((o.host.run steps).step (.on 0 (.command .expand))).session? 0).map (fun s =>
      (s.document.text, s.document.caret)) = some ("<a b=\"\"></a>".toList, 6) := by decide +kernel
  rw [hs', Option.map_some] at hx
  obtain ⟨hx, hcaret⟩ := Prod.mk.inj (Option.some.inj hx)
  exact ⟨s, s', hs, of_decide_eq_true hl, hs', hx, hcaret, hn⟩

/-- A dollar makes the difference: the abbreviation says itself where the caret goes, and a tracker starts there. -/
example :
    let o := ofTexts ⟨"html", true⟩ {} [[]]
    let steps : List Host.Step := [.on 0 (.type "b\x7b .$1\x7d".toList), .on 0 (.select 4 4), .on 0 (.command .expand)]
    ((o.host.run steps).session? 0).any (fun s => s.document.text = "<b> .</b>".toList &&
      s.tracker?.any (·.region = ⟨4, 5⟩)) = true := by decide +kernel

end Opening
end Shorthand
