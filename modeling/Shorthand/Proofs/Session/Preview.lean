import Shorthand.Proofs.Abbreviation.Parent
import Shorthand.Proofs.Session.Expansion
/-!
# Previews and what is expanded

What shows next to an abbreviation is what it would expand to in the element that its tracker knows.  Expanding looks the
element up first if none is known.  So what shows is what is expanded, unless the element around it is asked for a name
and has not been looked up yet (`Opening.preview_is_expanded_iff`); then an abbreviation in a list may show as anything
but a list item and become one (`Opening.preview_is_not_expanded`).
-/
namespace Shorthand

open Abbreviation (nodesAskParent usualChild)

theorem Reading.isValid_of_nodes? {r : Reading} {nodes : List Abbreviation.Node} (h : r.nodes? = some nodes) :
    r.isValid = true := by
  cases r with
  | valid _ _ => rfl
  | empty => cases h
  | invalid _ _ => cases h

namespace Tracker

variable {t t' : Tracker} {text snippet : Text}

/-- There is only one reason to expand to nothing. -/
theorem toOption_eq_iff {expanded expanded' : Except Abbreviation.ExpandError Text} :
    expanded.toOption = expanded'.toOption ↔ expanded = expanded' := by
  refine ⟨fun h => ?_, congrArg Except.toOption⟩
  rcases expanded with ⟨⟨⟩⟩ | snippet <;> rcases expanded' with ⟨⟨⟩⟩ | snippet'
  · rfl
  · cases h
  · cases h
  · exact congrArg Except.ok (Option.some.inj h)

/-- **What two trackers know about the element around the same abbreviation** matters to what it expands to just if that
is asked for a name. -/
theorem expansion?_eq_iff (hr : t'.reading = t.reading) : t.expansion? = t'.expansion? ↔
    ∀ nodes, t.reading.nodes? = some nodes → nodesAskParent nodes = true →
      usualChild (t.options.context.map (·.name)) = usualChild (t'.options.context.map (·.name)) := by
  unfold expansion?
  rw [hr]
  cases t.reading.nodes? with
  | none => exact iff_of_true rfl nofun
  | some nodes =>
    rw [Option.bind_some, Option.bind_some, toOption_eq_iff, Abbreviation.expand_eq_iff]
    constructor
    · rintro h _ ⟨⟩
      exact h
    · exact fun h => h nodes rfl

/-- Looking the element up matters to what is expanded just if it is asked for a name. -/
theorem expansion?_locateContext_iff {nodes : List Abbreviation.Node} (hn : t.reading.nodes? = some nodes)
    (h : t.expansion? = some snippet) :
    (t.locateContext text).expansion? = some snippet ↔ (nodesAskParent nodes = true →
      usualChild (t.options.context.map (·.name)) = usualChild ((t.optionsIn text).context.map (·.name))) := by
  have hr : (t.locateContext text).reading = t.reading := by rw [locateContext_eq]
  rw [← h, eq_comm, expansion?_eq_iff hr, locateContext_eq]
  constructor
  · exact fun hall => hall nodes hn
  · rintro ha _ hn'
    cases hn.symm.trans hn'
    exact ha

end Tracker

namespace Session

variable {s : Session} {snippet : Text}

/-- An abbreviation shows what it expands to in the element that its tracker knows. -/
theorem tracker?_of_preview (h : s.preview? = some (.expansion snippet)) :
    ∃ t nodes, s.tracker? = some t ∧ t.reading.nodes? = some nodes ∧ t.expansion? = some snippet := by
  unfold preview? at h
  split at h
  · cases h
  next t ht =>
  split at h
  · split at h
    · cases h
    · cases h
    · next text nodes hr =>
      obtain ⟨snippet', hs, he⟩ := Option.map_eq_some_iff.1 h
      cases he
      exact ⟨t, nodes, ht, by rw [hr]; rfl, hs⟩
  · cases h

end Session

namespace Opening

open Session

/-- **What shows next to an abbreviation is what it expands to**, unless the element around it, which has not been looked
up yet, names an element of the abbreviation; and if it is, the command to expand puts it in place of the abbreviation. -/
theorem preview_is_expanded_iff (o : Opening) (steps : List Host.Step) {i : Nat} {s : Session}
    (hs : (o.host.run steps).session? i = some s) {snippet : Text} (hp : s.preview? = some (.expansion snippet)) :
    ∃ t nodes, s.tracker? = some t ∧ t.reading.nodes? = some nodes ∧
      (s.expansion.2 = some snippet ↔ (nodesAskParent nodes = true →
        usualChild (t.options.context.map (·.name)) =
          usualChild ((t.optionsIn s.document.text).context.map (·.name)))) ∧
      (s.expansion.2 = some snippet → t.region.contains s.document.caret = true → s.document.readonly = false →
        let flat := Snippet.flatten snippet
        let d := (s.after (.command .expand)).document
        d.text = s.document.text.take t.region.start ++ (flat.text ++ s.document.text.drop t.region.stop) ∧
          d.selection = .point (t.region.start + flat.caret.getD flat.text.length)) := by
  obtain ⟨t, nodes, ht, hn, he⟩ := tracker?_of_preview hp
  have hx : s.expansion.2 = (t.locateContext s.document.text).expansion? := by rw [expansion_of_some ht]
  refine ⟨t, nodes, ht, hn, ?_, fun hx' hc hw => ?_⟩
  · rw [hx]
    exact Tracker.expansion?_locateContext_iff hn he
  · obtain ⟨h, -, -⟩ := (o.sound steps).of_session? hs
    have hr := h.reads t ht
    have hd : t.due? s.document = some snippet := by
      rw [← Tracker.expansionIn?_eq_due? hr hw, Tracker.expansionIn?, if_pos (Reading.isValid_of_nodes? hn), ← hx,
        hx']
    obtain ⟨d, p, hi, -, -, htext, hsel⟩ := Document.insertSnippet?_ok hw hr.within snippet
    have ha : s.after (.command .expand) = s.expand := rfl
    dsimp only
    rw [ha, expand_of_due_some ht hc hr hd hi]
    exact ⟨htext, hsel⟩

/-- A paragraph in a list has a name of its own, so that the list is not asked for one. -/
theorem preview_is_expanded_iff_in_a_list :
    let o := ofTexts ⟨"html", true⟩ {} ["<ul>p>.x y".toList]
    let steps : List Host.Step := [.on 0 (.select 4 8), .on 0 (.command .enter)]
    let snippet := "<p><div class=\"x\">$\x7b1\x7d</div></p>".toList
    ∃ s, (o.host.run steps).session? 0 = some s ∧ s.preview? = some (.expansion snippet) ∧
      s.expansion.2 = some snippet ∧
      (s.after (.command .expand)).document.text = "<ul><p><div class=\"x\"></div></p> y".toList ∧
      (s.after (.command .expand)).document.selection = .point 22 := by
  intro o steps snippet
  have hc : ((o.host.run steps).session? 0).any (fun s => s.preview? = some (.expansion snippet) &&
      s.document.text = "<ul>p>.x y".toList && !s.document.readonly && s.tracker?.any fun t => t.region = ⟨4, 8⟩ &&
        t.region.contains s.document.caret && t.reading.nodes?.any (fun ns => !nodesAskParent ns)) = true := by
    decide +kernel
  obtain ⟨s, hs, hc⟩ := (Option.any_eq_true _ _).1 hc
  simp only [Bool.and_eq_true, decide_eq_true_eq, Bool.not_eq_true', Option.any_eq_true] at hc
  obtain ⟨⟨⟨hp, hx⟩, hw⟩, t, ht, ⟨hr, hcaret⟩, nodes, hn, hask⟩ := hc
  obtain ⟨t', nodes', ht', hn', hiff, hexpand⟩ := preview_is_expanded_iff o steps hs hp
  cases ht.symm.trans ht'
  cases hn.symm.trans hn'
  have he := hiff.2 fun ha => absurd (ha.symm.trans hask) (by decide)
  obtain ⟨htext, hsel⟩ := hexpand he hcaret hw
  rw [hr, hx] at htext
  rw [hr] at hsel
  exact ⟨s, hs, hp, he, htext.trans (by decide +kernel), hsel.trans (by decide +kernel)⟩

/-- **An abbreviation may show as something else than it expands to**: in a list an item without a name shows as a block
while it is typed, and expands to a list item. -/
theorem preview_is_not_expanded :
    ¬ ∀ (o : Opening) (steps : List Host.Step) (i : Nat) (s : Session) (snippet : Text),
      (o.host.run steps).session? i = some s → s.preview? = some (.expansion snippet) →
        s.expansion.2 = some snippet := by
  intro h
  let o := ofTexts ⟨"html", true⟩ {} ["<ul>".toList]
  have hc : ((o.host.run [.on 0 (.type ".x".toList)]).session? 0).any (fun s =>
      s.preview? = some (.expansion "<div class=\"x\">$\x7b1\x7d</div>".toList) &&
        s.expansion.2 = some "<li class=\"x\">$\x7b1\x7d</li>".toList) = true := by decide +kernel
  obtain ⟨s, hs, hc⟩ := (Option.any_eq_true _ _).1 hc
  simp only [Bool.and_eq_true, decide_eq_true_eq] at hc
  obtain ⟨hp, hx⟩ := hc
  have he := h o _ 0 s _ hs hp
  rw [hx] at he
  exact absurd he (by decide +kernel)

end Opening
end Shorthand
