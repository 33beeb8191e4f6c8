import Shorthand.Proofs.Abbreviation.Between
import Shorthand.Proofs.Session.Preview
import Shorthand.Proofs.Session.Suggestion
/-!
# Where a new tracker looks its element up

A tracker that is started where a char has been typed, or where an undo has brought a marker back, knows the element
around the start of its region, and expanding looks the element up there too.  One that is suggested knows the element
around the end of its region, where the caret is.  That is the same one unless a tag ends in the abbreviation itself
(`Session.started_in_context`): the tag that a marker and the `>` of a child make, or one that has been left open in
front of it.  Then the abbreviation may be expanded in an element of its own (`Opening.suggested_in_itself`).
-/
namespace Shorthand

open Abbreviation (LeavesInnermost enclosing? enclosing?_eq_iff enclosing?_min leavesInnermost_of_not_mem nodesAskParent
  usualChild)

namespace Tracker

variable {t : Tracker} {text : Text}

/-- **The element that the tracker knows is the one around the start of its region.** -/
def InContext (t : Tracker) (text : Text) : Prop :=
  t.options.context = enclosing? text t.region.start t.options.dialect

/-- The tracker with no element looked up. -/
def forgetContext (t : Tracker) : Tracker := { t with options.context := none }

theorem context_optionsIn_forgetContext (t : Tracker) (text : Text) :
    (t.forgetContext.optionsIn text).context = enclosing? text t.region.start t.options.dialect := rfl

theorem InContext.optionsIn_eq (h : t.InContext text) : t.optionsIn text = t.forgetContext.optionsIn text := by
  unfold optionsIn forgetContext
  dsimp only
  rw [h, Option.or_self, Option.none_or]

/-- **The element that a tracker knows matters to what it expands to** just if it is asked for a name and gives another
than the one around the start of its region. -/
theorem expansion?_forgetContext_iff (t : Tracker) (text : Text) :
    (t.locateContext text).expansion? = (t.forgetContext.locateContext text).expansion? ↔
      ∀ nodes, t.reading.nodes? = some nodes → nodesAskParent nodes = true →
        usualChild ((t.optionsIn text).context.map (·.name)) =
          usualChild ((enclosing? text t.region.start t.options.dialect).map (·.name)) := by
  rw [locateContext_eq, locateContext_eq, ← context_optionsIn_forgetContext]
  exact expansion?_eq_iff rfl

end Tracker

namespace Session

variable {s s' : Session} {t : Tracker} {pos : Nat}

/-- A tracker started on a stretch with the element around its start knows it. -/
theorem inContext_start (s : Session) (span : Span) (forced : Bool) (offset : Nat) :
    ∃ t, (s.start span forced offset (s.optionsAt span.start true)).tracker? = some t ∧
      t.InContext s.document.text := by
  rw [start_eq_hold]
  refine ⟨_, tracker?_hold s _, ?_⟩
  exact (enclosing?_min s.document.text span.start s.service.dialect.name).symm

theorem inContext_startTyped? (hc : s.service.settings.capturesContext s.document.length = true)
    (h : s.startTyped? pos = some s') : ∃ t, s'.tracker? = some t ∧ t.InContext s.document.text := by
  unfold startTyped? at h
  rw [hc] at h
  obtain ⟨found, -, rfl⟩ := Option.map_eq_some_iff.1 h
  exact inContext_start s found.span false found.offset

theorem inContext_restore? (h : s.restore? = some s') :
    ∃ t, s'.tracker? = some t ∧ t.InContext s.document.text := by
  unfold restore? at h
  split at h
  · next marker _ _ =>
    cases h
    exact inContext_start s marker false (s.optionsAt marker.start true).leadLength
  · cases h

/-- **What is suggested** where nothing is tracked knows the element around the end of its region. -/
theorem context_of_suggest (ht : s.tracksAt pos = false) (h : (s.suggest pos).2 = some t) :
    (s.suggest pos).1.tracker? = some t ∧ t.region.start ≤ t.region.stop ∧ t.options.dialect = s.service.dialect.name ∧
      t.options.context = enclosing? s.document.text t.region.stop s.service.dialect.name := by
  have ha : s.service.allowsTracking = true := by
    rw [← Bool.not_eq_false]
    intro ha
    unfold suggest at h
    rw [ha] at h
    cases h
  obtain ⟨s₀, hs₀, -, -, hs⟩ := suggest_of_not_tracksAt ha ht
  have hsame : s₀.document.text = s.document.text ∧ s₀.service.dialect = s.service.dialect := by
    rcases hs₀ with ⟨rfl, -⟩ | rfl <;> exact ⟨rfl, rfl⟩
  rw [hs, startExtracted_eq] at h ⊢
  cases hx : s₀.found? pos with
  | none =>
    rw [hx] at h
    cases h
  | some x =>
    rw [hx] at h
    cases h
    have hcontext : (s₀.extracted pos x).options.context =
        enclosing? s₀.document.text pos s₀.service.dialect.name := rfl
    rw [hcontext, region_extracted hx, hsame.2]
    refine ⟨tracker?_hold s₀ _, Nat.le_of_lt (span_found? hx).1, congrArg Dialect.name hsame.2, ?_⟩
    rw [hsame.1]

/-- A suggested abbreviation in which nothing has a child is not taken for a part of a tag. -/
theorem inContext_suggest_of_not_mem (ht : s.tracksAt pos = false) (h : (s.suggest pos).2 = some t)
    (hn : '>' ∉ s.document.text.slice t.region.start t.region.stop) : t.InContext s.document.text := by
  obtain ⟨-, hle, hd, hcontext⟩ := context_of_suggest ht h
  unfold Tracker.InContext
  rw [hcontext, hd]
  exact (enclosing?_eq_iff hle s.service.dialect.name).2 (.inr (leavesInnermost_of_not_mem hn))

/-- **A tracker that is started by typing or after an undo knows the element around the start of its region.**  A tracker
that is suggested does just if no tag ends in its region that makes a difference to the innermost open element, if the
dialect has elements at all; and it expands to the same as one that does, or that has yet to look its element up, just if
its element is not asked for a name or gives the same. -/
theorem started_in_context (s : Session) (pos : Nat) :
    let text := s.document.text
    (s.service.settings.capturesContext s.document.length = true → ∀ s', s.startTyped? pos = some s' →
      ∃ t, s'.tracker? = some t ∧ t.InContext text) ∧
    (∀ s', s.restore? = some s' → ∃ t, s'.tracker? = some t ∧ t.InContext text) ∧
    (s.tracksAt pos = false → ∀ t, (s.suggest pos).2 = some t → (s.suggest pos).1.tracker? = some t ∧
      (t.InContext text ↔
        s.service.dialect.name ∈ ["css", "scss", "less"] ∨ LeavesInnermost text t.region.start t.region.stop) ∧
      ((t.locateContext text).expansion? = (t.forgetContext.locateContext text).expansion? ↔
        ∀ nodes, t.reading.nodes? = some nodes → nodesAskParent nodes = true →
          usualChild ((t.optionsIn text).context.map (·.name)) =
            usualChild ((enclosing? text t.region.start t.options.dialect).map (·.name)))) := by
  intro text
  refine ⟨fun hc s' h => inContext_startTyped? hc h, fun s' h => inContext_restore? h, fun hat t h => ?_⟩
  obtain ⟨htracks, hle, hd, hcontext⟩ := context_of_suggest hat h
  refine ⟨htracks, ?_, t.expansion?_forgetContext_iff text⟩
  unfold Tracker.InContext
  rw [hcontext, hd]
  exact enclosing?_eq_iff hle s.service.dialect.name

end Session

namespace Opening

/-- In a list, with the item typed, brought back by its marker, and suggested: its `>` ends no tag. -/
theorem started_in_context_in_a_list :
    let o := ofTexts ⟨"html", true⟩ { contextSizeLimit := 100 } ["<ul>.x>p".toList]
    ∃ s, (o.host.run []).session? 0 = some s ∧
      (∃ s' t, s.startTyped? 5 = some s' ∧ s'.tracker? = some t ∧ t.InContext s.document.text) ∧
      (∃ s' t, (s.setMarker ⟨4, 8⟩).restore? = some s' ∧ s'.tracker? = some t ∧ t.InContext s.document.text) ∧
      ∃ t, (s.suggest 8).2 = some t ∧ (s.suggest 8).1.tracker? = some t ∧ t.region = ⟨4, 8⟩ ∧
        t.InContext s.document.text ∧
        (t.locateContext s.document.text).expansion? = (t.forgetContext.locateContext s.document.text).expansion? := by
  intro o
  have hc : ((o.host.run []).session? 0).any (fun s =>
      s.service.settings.capturesContext s.document.length && (s.startTyped? 5).isSome &&
        (s.setMarker ⟨4, 8⟩).restore?.isSome && !s.tracksAt 8 && s.document.text = "<ul>.x>p".toList &&
        (s.suggest 8).2.any (·.region = ⟨4, 8⟩)) = true := by
    decide +kernel
  obtain ⟨s, hs, hc⟩ := (Option.any_eq_true _ _).1 hc
  simp only [Bool.and_eq_true, decide_eq_true_eq, Bool.not_eq_true', Option.isSome_iff_exists, Option.any_eq_true] at hc
  obtain ⟨⟨⟨⟨⟨hcaptures, s₁, hs₁⟩, s₂, hs₂⟩, haway⟩, htext⟩, t, ht, hregion⟩ := hc
  obtain ⟨t₁, ht₁, hin₁⟩ := (Session.started_in_context s 5).1 hcaptures s₁ hs₁
  obtain ⟨t₂, ht₂, hin₂⟩ := (Session.started_in_context (s.setMarker ⟨4, 8⟩) 8).2.1 s₂ hs₂
  obtain ⟨htracks, hiff, hexpansion⟩ := (Session.started_in_context s 8).2.2 haway t ht
  have hin : t.InContext s.document.text := by
    refine hiff.2 (.inr ?_)
    rw [htext, hregion]
    decide +kernel
  refine ⟨s, hs, ⟨s₁, t₁, hs₁, ht₁, hin₁⟩, ⟨s₂, t₂, hs₂, ht₂, hin₂⟩, t, ht, htracks, hregion, hin, ?_⟩
  exact hexpansion.2 fun _ _ _ => by rw [hin.optionsIn_eq]; rfl

/-- **An abbreviation may be suggested in an element of its own**: with its marker and the `>` of its child, a list looks
like the opening tag of a list, so that the block behind it becomes an item. -/
theorem suggested_in_itself :
    ¬ ∀ (o : Opening) (steps : List Host.Step) (i : Nat) (s : Session) (pos : Nat) (t : Tracker),
      (o.host.run steps).session? i = some s → s.tracksAt pos = false → (s.suggest pos).2 = some t →
        t.InContext s.document.text := by
  intro h
  let o := ofTexts ⟨"jsx", true⟩ {} ["<ul>li^.x".toList]
  have hc : ((o.host.run []).session? 0).any (fun s => !s.tracksAt 9 && (s.suggest 9).2.any fun t =>
      t.options.context != enclosing? s.document.text t.region.start t.options.dialect) = true := by decide +kernel
  obtain ⟨s, hs, hc⟩ := (Option.any_eq_true _ _).1 hc
  simp only [Bool.and_eq_true, Bool.not_eq_true', Option.any_eq_true, bne_iff_ne] at hc
  obtain ⟨haway, t, ht, hne⟩ := hc
  exact hne (h o [] 0 s 9 t hs haway ht)

end Opening
end Shorthand
