import Shorthand.Proofs.Host.Apart
/-!
# How long a document may be to look for the element around

Below a length that the user chooses, the element around an abbreviation is looked up while it is typed, and above it
when it is expanded.  Two hosts that differ in that length go through the same documents step by step, as long as
wherever anything is expanded their trackers know the same element or know what is around them
(`Opening.documents_whatever_the_limit`).  They may part where the text in front of an abbreviation has been edited
since: what was looked up early is kept, and what is looked up late is not what it was
(`Opening.limit_chooses_the_element`).
-/
namespace Shorthand

open Abbreviation (Context enclosing?)

/-- What two trackers know of the elements around them need not go together. -/
def Tracker.Unrelated (_ _ : Option Context) : Prop := True

instance : Std.Refl Tracker.Unrelated := ⟨fun _ => trivial⟩

/-- What has been looked up for the tracker, if anything, is the element around it in `text`. -/
def Tracker.isCurrent (t : Tracker) (text : Text) : Bool :=
  t.options.context.all fun c => enclosing? text t.region.start t.options.dialect = some c

namespace Tracker

variable {t t' : Tracker} {text : Text}

theorem locateContext_of_isCurrent (h : t.isCurrent text = true) :
    t.locateContext text = { t with options.context := enclosing? text t.region.start t.options.dialect } := by
  unfold isCurrent at h
  unfold locateContext
  split
  · next c hc =>
    rw [hc, Option.all_some, decide_eq_true_eq] at h
    rw [h, ← hc]
  · rfl

theorem Like.locateContext {C : Option Context → Option Context → Prop} (hl : Like C t t')
    (h : t.isCurrent text = true) (h' : t'.isCurrent text = true) : t'.locateContext text = t.locateContext text := by
  rw [locateContext_of_isCurrent h, locateContext_of_isCurrent h', hl.rest]

end Tracker

namespace Session

variable {s a : Session}

/-- **The trackers of the document know the same element, or know what is around them.** -/
def knowsAlike (s a : Session) : Bool :=
  match s.tracker?, a.tracker? with
  | some t, some t' =>
    t.options.context = t'.options.context || t.isCurrent s.document.text && t'.isCurrent a.document.text
  | _, _ => true

/-- Two sessions on one document, with trackers that may know different elements. -/
abbrev SameButKnown (s a : Session) : Prop := Twin Tracker.Unrelated s s a

namespace SameButKnown

theorem agree (h : s.SameButKnown a) (hk : s.knowsAlike a = true) : s.Agree a := by
  intro t t' ht ht'
  rw [h.document]
  obtain ⟨t₀, he, hl⟩ := h.tracker_some ht
  cases ht'.symm.trans he
  unfold knowsAlike at hk
  rw [ht, ht', h.document] at hk
  simp only [Bool.or_eq_true, decide_eq_true_eq, Bool.and_eq_true] at hk
  rcases hk with hc | ⟨hc, hc'⟩
  · rw [Tracker.Like.eq ⟨hl.rest, hc⟩]
  · exact hl.locateContext hc hc'

theorem symm (h : s.SameButKnown a) : a.SameButKnown s where
  id := rfl
  document := h.document.symm
  dialect := rfl
  dialect' := h.dialect'.symm
  settings := rfl
  settings' := by rw [h.settings']
  captures _ _ := trivial
  asked := rfl
  asked' := h.asked'.symm
  tracked := by
    rcases h.tracker_cases with ⟨ht, ht'⟩ | ⟨t, t', ht, ht', hl⟩ <;> rw [ht, ht']
    · exact .none
    · exact .some ⟨by rw [hl.rest], trivial⟩
  caret := by rw [h.document, h.caret]
  trackers _ _ := rfl
  carets _ _ := rfl

/-- **What is done in another document passes by**, the services having gone on alike to `o` and `o'`. -/
theorem beside (h : s.SameButKnown a) {o o' : Session} (ho : o.SameButKnown o')
    (ht : o.service.trackers.get? s.document.id = s.tracker?) (ht' : o'.service.trackers.get? a.document.id = a.tracker?)
    (hc : o.service.carets.get? s.document.id = s.service.carets.get? s.document.id)
    (hc' : o'.service.carets.get? a.document.id = a.service.carets.get? a.document.id) :
    SameButKnown ⟨o.service, s.document⟩ ⟨o'.service, a.document⟩ :=
  { ho with
    id := rfl
    document := h.document
    tracked := by
      have hr := h.tracked
      rwa [← ht, ← ht'] at hr
    caret := by
      rw [h.document] at hc'
      exact hc'.trans (h.caret.trans hc.symm)
    trackers := fun _ _ => rfl
    carets := fun _ _ => rfl }

end SameButKnown
end Session

/-! ## Runs side by side -/

namespace Host

variable {h h' : Host}

/-- **The hosts have the same documents**, and the same trackers up to the elements that those know. -/
structure SameButKnown (h h' : Host) : Prop where
  documents : h'.documents = h.documents
  distinct : (h.documents.map (·.id)).Nodup
  session : ∀ d ∈ h.documents, Session.SameButKnown ⟨h.service, d⟩ ⟨h'.service, d⟩

/-- **Wherever a run expands anything the trackers of both hosts know the same element, or know what is around them.** -/
def knowsAlike (h h' : Host) : List Step → Bool
  | [] => true
  | .choose settings :: steps => (h.step (.choose settings)).knowsAlike (h'.step (.choose settings)) steps
  | .on i x :: steps =>
    (!x.expands || ((h.session? i).all fun s => (h'.session? i).all fun a => s.knowsAlike a)) &&
      (h.step (.on i x)).knowsAlike (h'.step (.on i x)) steps

namespace SameButKnown

/-- **What is done alike in one document keeps all documents the same.** -/
theorem put (hh : h.SameButKnown h') {i : Nat} {d : Document} (hd : h.documents[i]? = some d) {s a : Session}
    {asked asked' : Bool} (hs : Session.Twin Tracker.Unrelated (Session.askCompletion ⟨h.service, d⟩ asked) s a)
    (ha : Session.Twin Tracker.Unrelated (Session.askCompletion ⟨h'.service, d⟩ asked') a s) :
    (h.put i s).SameButKnown (h'.put i a) where
  documents := by
    unfold Host.put
    rw [hh.documents, hs.document]
  distinct := map_id_put (session?_eq_some (s := ⟨h.service, d⟩).2 ⟨hd, rfl⟩) hs.id ▸ hh.distinct
  session d' hd' := by
    rcases mem_put hh.distinct (session?_eq_some (s := ⟨h.service, d⟩).2 ⟨hd, rfl⟩) hd' with rfl | ⟨hd', hne⟩
    · have he : Session.mk a.service s.document = a := by rw [← hs.document]
      exact he.symm ▸ hs.rebase
    · have hne' : d'.id ≠ s.document.id := fun he => hne (he.trans hs.id)
      have hne'' : d'.id ≠ a.document.id := hs.document ▸ hne'
      exact (hh.session d' hd').beside hs.rebase (hs.trackers _ hne') (ha.trackers _ hne'') (hs.carets _ hne')
        (ha.carets _ hne'')

theorem on (hh : h.SameButKnown h') (i : Nat) (x : Action)
    (hk : x.expands = true → ∀ s a, h.session? i = some s → h'.session? i = some a → s.knowsAlike a = true) :
    (h.step (.on i x)).SameButKnown (h'.step (.on i x)) := by
  unfold step Host.on session?
  dsimp only
  rw [hh.documents]
  cases hd : h.documents[i]? with
  | none => exact hh
  | some d =>
    have hsame := hh.session d (List.mem_of_getElem? hd)
    have ha : x.expands = true → Session.Agree ⟨h.service, d⟩ ⟨h'.service, d⟩ := fun hx =>
      hsame.agree (hk hx _ _ (session?_eq_some.2 ⟨hd, rfl⟩) (session?_eq_some.2 ⟨hh.documents ▸ hd, rfl⟩))
    obtain ⟨asked, -, ht, -⟩ := hsame.act ha
    obtain ⟨asked', -, ht', -⟩ := hsame.symm.act fun hx t t' h h' => (ha hx t' t h' h).symm
    exact hh.put hd ht ht'

theorem choose (hh : h.SameButKnown h') (settings : Settings) :
    (h.step (.choose settings)).SameButKnown (h'.step (.choose settings)) where
  documents := hh.documents
  distinct := hh.distinct
  session d hd := { hh.session d hd with settings := rfl, settings' := rfl }

theorem run (hh : h.SameButKnown h') {steps : List Step} (hk : h.knowsAlike h' steps = true) :
    (h.run steps).SameButKnown (h'.run steps) := by
  induction steps generalizing h h' with
  | nil => exact hh
  | cons st steps ih =>
    cases st with
    | choose settings => exact ih (hh.choose settings) hk
    | on i x =>
      obtain ⟨hx, hk⟩ := Bool.and_eq_true_iff.1 hk
      refine ih (hh.on i x fun he s a hs ha => ?_) hk
      rw [he, hs, ha] at hx
      exact hx

end SameButKnown

theorem knowsAlike_of_append {before after : List Step} (hk : h.knowsAlike h' (before ++ after) = true) :
    h.knowsAlike h' before = true := by
  induction before generalizing h h' with
  | nil => rfl
  | cons st before ih =>
    cases st with
    | choose settings => exact ih hk
    | on i x =>
      obtain ⟨hx, hk⟩ := Bool.and_eq_true_iff.1 hk
      exact Bool.and_eq_true_iff.2 ⟨hx, ih hk⟩

end Host

namespace Opening

/-- The opening with another length from which on a document is too long. -/
def limited (o : Opening) (limit : Nat) : Opening := { o with settings.contextSizeLimit := limit }

theorem sameButKnown_limited (o : Opening) (limit : Nat) : o.host.SameButKnown (o.limited limit).host := by
  have h₀ : Host.SameButKnown ⟨{ dialect := o.dialect, settings := o.settings }, o.documents⟩
      ⟨{ dialect := o.dialect, settings := (o.limited limit).settings }, o.documents⟩ :=
    { documents := rfl
      distinct := o.distinct
      session := fun d _ => ⟨rfl, rfl, rfl, rfl, rfl, rfl, fun _ _ => trivial, rfl, rfl, .none, rfl, fun _ _ => rfl,
        fun _ _ => rfl⟩ }
  have hall : ∀ (indices : List Nat) {h h' : Host}, h.SameButKnown h' →
      (indices.foldl (fun h i => h.on i fun s => s.after .activated) h).SameButKnown
        (indices.foldl (fun h i => h.on i fun s => s.after .activated) h') := by
    intro indices
    induction indices with
    | nil => exact fun hh => hh
    | cons i indices ih => exact fun hh => ih (hh.on i (.notify .activated rfl) nofun)
  exact hall _ h₀

/-- **The length from which on a document is too long makes no difference to any document**, as long as wherever
anything is expanded what was looked up early is what is found late. -/
theorem documents_whatever_the_limit (o : Opening) (limit : Nat) (steps : List Host.Step)
    (alike : o.host.knowsAlike (o.limited limit).host steps = true) {before : List Host.Step}
    (hb : before <+: steps) : ((o.limited limit).host.run before).documents = (o.host.run before).documents := by
  obtain ⟨after, rfl⟩ := hb
  exact ((o.sameButKnown_limited limit).run (Host.knowsAlike_of_append alike)).documents

/-- The list around the abbreviation is known to one tracker only, and still is what is around it after an edit in front
of the list. -/
theorem documents_whatever_the_limit_in_a_list :
    let o := ofTexts ⟨"html", true⟩ {} ["a <ul>".toList]
    let steps : List Host.Step := [.on 0 (.type ".x".toList), .on 0 (.select 1 1), .on 0 (.backspace 1),
      .on 0 (.select 7 7), .on 0 (.complete true)]
    let known (h : Host) := (h.service.trackers.get? 1).map (·.options.context)
    known (o.host.run (steps.take 4)) = some none ∧
      known ((o.limited 100).host.run (steps.take 4)) = some (some ⟨"ul".toList, []⟩) ∧
      o.host.knowsAlike (o.limited 100).host steps = true ∧
      ((o.limited 100).host.run steps).documents = (o.host.run steps).documents ∧
      (o.host.run steps).documents.map (·.text) = [" <ul><li class=\"x\"></li>".toList] := by
  intro o steps known
  have hk : o.host.knowsAlike (o.limited 100).host steps = true := by decide +kernel
  exact ⟨by decide +kernel, by decide +kernel, hk,
    documents_whatever_the_limit o 100 steps hk (List.prefix_refl steps), by decide +kernel⟩

/-- **An edit in front of an abbreviation lets the limit choose what it expands to.**  The list that the abbreviation was
typed in has been renamed when it is expanded: what was looked up early makes it a list item, what is looked up late does
not. -/
theorem limit_chooses_the_element :
    ¬ ∀ (o : Opening) (limit : Nat) (steps : List Host.Step),
      ((o.limited limit).host.run steps).documents.map (·.text) = (o.host.run steps).documents.map (·.text) := by
  intro h
  have he := h (ofTexts ⟨"html", true⟩ {} ["<ul>".toList]) 100
    [.on 0 (.type ".x".toList), .on 0 (.select 3 3), .on 0 (.backspace 1), .on 0 (.select 5 5),
      .on 0 (.command .expand)]
  revert he
  decide +kernel

end Opening
end Shorthand
