import Mathlib.Data.List.Nodup
import Shorthand.Host
import Shorthand.Proofs.Session.Tending
/-!
# Runs of a host

An editor opens documents (`Opening`) and takes steps, each in one of them, which it reports to the service as it goes;
the settings may change in between (`Host.run`).  A property of the document in hand and its tracker that opening brings
about and every move of the service keeps (`Session.Invariant`) holds of all documents after every run
(`Opening.holds_run`).
-/
namespace Shorthand

/-! ## What an editor does -/

/-- What an editor does in one document, and reports. -/
inductive Action where
  | type (t : Text)
  | backspace (count : Nat)
  | edit (p : Patch)
  | select (anchor head : Nat)
  | undo
  | command (c : Command)
  | complete (commit : Bool)
  /-- Something that leaves the document as it is. -/
  | notify (e : Event) (notice : e.isNotice = true)
  /-- The document takes no edits any more, or takes them again. -/
  | protect (readonly : Bool)
  deriving DecidableEq, Repr

namespace Session

/-- The session after an action.  What the document refuses is not done and not reported. -/
def act (s : Session) : Action → Session
  | .type t => (s.type t).1
  | .backspace count => (s.backspace count).1
  | .edit p => (s.edit p).1
  | .select anchor head => (s.select anchor head).1
  | .undo => s.undo.1
  | .command c => s.command c
  | .complete commit => (s.takeCompletion commit).1
  | .notify e _ => s.after e
  | .protect readonly => s.withDocument { s.document with readonly }

/-- **Every action is made of moves of the service.** -/
theorem tends_act {s : Session} (hw : s.document.widget = false) (hu : s.document.unreported = []) (a : Action) :
    s.Tends (s.act a) := by
  cases a with
  | type t => exact tends_type hw t
  | backspace count => exact tends_backspace hw count
  | edit p => exact tends_edit hw p
  | select anchor head => exact .quiet (quiet_select s anchor head)
  | undo => exact tends_undo s
  | command c => exact tends_command hu c
  | complete commit => exact tends_takeCompletion hw hu commit
  | notify e notice => exact tends_notice s notice
  | protect readonly => exact .quiet (.withDocument (.withDocument rfl rfl rfl) rfl rfl rfl)

end Session

/-- A document that the service has not seen: no input field, nothing to report, and no abbreviation marker anywhere. -/
structure Document.Unmarked (d : Document) : Prop where
  widget : d.widget = false
  unreported : d.unreported = []
  marker : d.marker? abbreviationMarker = none
  history : ∀ s ∈ d.history, s.markers.get? abbreviationMarker = none

/-- **What an editor starts with**: a new service, and documents that it has not seen, each with its own number. -/
structure Opening where
  dialect : Dialect
  settings : Settings := {}
  documents : List Document
  distinct : (documents.map (·.id)).Nodup
  unmarked : ∀ d ∈ documents, d.Unmarked

namespace Opening

def numbered : Nat → List Text → List Document
  | _, [] => []
  | n, t :: ts => { id := n, text := t, selection := .point t.length } :: numbered (n + 1) ts

theorem map_id_numbered : ∀ (n : Nat) (ts : List Text), (numbered n ts).map (·.id) = List.range' n ts.length
  | _, [] => rfl
  | n, _ :: ts => by rw [numbered, List.map_cons, map_id_numbered (n + 1) ts, List.length_cons, List.range'_succ]

theorem unmarked_numbered : ∀ (n : Nat) (ts : List Text), ∀ d ∈ numbered n ts, d.Unmarked
  | _, [], _, h => nomatch h
  | n, _ :: ts, d, h => by
    rcases List.mem_cons.1 h with rfl | h
    · exact ⟨rfl, rfl, rfl, nofun⟩
    · exact unmarked_numbered (n + 1) ts d h

def ofTexts (dialect : Dialect) (settings : Settings) (texts : List Text) : Opening where
  dialect
  settings
  documents := numbered 1 texts
  distinct := map_id_numbered 1 texts ▸ List.nodup_range'
  unmarked := unmarked_numbered 1 texts

end Opening

namespace Host

inductive Step where
  | on (i : Nat) (a : Action)
  | choose (settings : Settings)
  deriving DecidableEq, Repr

/-- The step leaves the settings as they are. -/
def Step.keepsSettings : Step → Bool
  | .on _ _ => true
  | .choose _ => false

def step (h : Host) : Step → Host
  | .on i a => h.on i fun s => s.act a
  | .choose settings => { h with service.settings := settings }

/-- **The host after some steps.** -/
def run (h : Host) (steps : List Step) : Host := steps.foldl step h

end Host

/-- The host once every document has come to the front. -/
def Opening.host (o : Opening) : Host :=
  Host.activateAll ⟨{ dialect := o.dialect, settings := o.settings }, o.documents⟩

/-! ## Conditions along a run -/

section Along

variable {σ α : Type} {next : σ → α → σ} {P : σ → α → Bool}

/-- **Every step's condition**, read at the state before it. -/
def along (next : σ → α → σ) (P : σ → α → Bool) : σ → List α → Bool
  | _, [] => true
  | s, x :: xs => P s x && along next P (next s x) xs

/-- **What is so of a step just under its condition is so of every step just under all of them**, as long as the
condition keeps the states in which that is known. -/
theorem along_iff {I : σ → Prop} {Q : σ → α → Prop} (hq : ∀ s x, I s → (Q s x ↔ P s x = true))
    (hi : ∀ s x, I s → P s x = true → I (next s x)) (xs : List α) {s : σ} (hs : I s) :
    (∀ pre x post, xs = pre ++ x :: post → Q (pre.foldl next s) x) ↔ along next P s xs = true := by
  induction xs generalizing s with
  | nil =>
    refine iff_of_true ?_ rfl
    intro pre x post he
    cases pre <;> cases he
  | cons y ys ih =>
    unfold along
    rw [Bool.and_eq_true, ← hq s y hs]
    constructor
    · intro hall
      have hy : Q s y := hall [] y ys rfl
      refine ⟨hy, (ih (hi s y hs ((hq s y hs).1 hy))).1 ?_⟩
      intro pre x post he
      exact hall (y :: pre) x post (congrArg (y :: ·) he)
    · rintro ⟨hy, hys⟩ pre x post he
      cases pre with
      | nil =>
        cases he
        exact hy
      | cons p pre =>
        cases he
        exact (ih (hi s y hs ((hq s y hs).1 hy))).2 hys pre x post rfl

end Along

/-! ## What holds throughout a run -/

/-- **A property of the document in hand and its tracker that every move of the service keeps.** -/
structure Session.Kept (P : Session → Prop) : Prop where
  moves : ∀ {s s' : Session}, s.Moves s' → P s → P s'
  own : ∀ {s s' : Session}, s'.document = s.document → s'.tracker? = s.tracker? →
    s'.service.dialect = s.service.dialect → s'.service.settings = s.service.settings → P s → P s'

/-- Such a property that holds of every document that has not been seen. -/
structure Session.Invariant (P : Session → Prop) : Prop extends Session.Kept P where
  opened : ∀ {s : Session}, s.document.Unmarked → s.tracker? = none → P s

namespace Host

variable {P : Session → Prop} {h : Host}

/-- Between two steps: each document has its own number, none is an input field or has anything to report, and `P`
holds of each. -/
structure Holds (P : Session → Prop) (h : Host) : Prop where
  distinct : (h.documents.map (·.id)).Nodup
  widget : ∀ d ∈ h.documents, d.widget = false
  unreported : ∀ d ∈ h.documents, d.unreported = []
  session : ∀ d ∈ h.documents, P ⟨h.service, d⟩

theorem session?_eq_some {i : Nat} {s : Session} :
    h.session? i = some s ↔ h.documents[i]? = some s.document ∧ s.service = h.service := by
  unfold session?
  rw [Option.map_eq_some_iff]
  constructor
  · rintro ⟨d, hd, rfl⟩
    exact ⟨hd, rfl⟩
  · rintro ⟨hd, hs⟩
    exact ⟨s.document, hd, by rw [← hs]⟩

theorem session?_put {i : Nat} {s : Session} (hs : h.session? i = some s) (s' : Session) :
    (h.put i s').session? i = some s' := by
  obtain ⟨hi, -⟩ := List.getElem?_eq_some_iff.1 (session?_eq_some.1 hs).1
  refine session?_eq_some.2 ⟨?_, rfl⟩
  unfold put
  rw [List.getElem?_set_self hi]

theorem on_of_some {i : Nat} {s : Session} (hs : h.session? i = some s) (f : Session → Session) :
    h.on i f = h.put i (f s) := by
  unfold Host.on
  rw [hs]

theorem session?_on_self {i : Nat} {s : Session} (hs : h.session? i = some s) (f : Session → Session) :
    (h.on i f).session? i = some (f s) := by
  rw [on_of_some hs]
  exact session?_put hs _

theorem session?_run_on {i : Nat} {s : Session} (hs : h.session? i = some s) (as : List Action) :
    (h.run (as.map (.on i))).session? i = some (as.foldl Session.act s) := by
  induction as generalizing h s with
  | nil => exact hs
  | cons a as ih => exact ih (session?_on_self hs (·.act a))

/-- What is done to another document leaves this one as it is, and the service as it is after that. -/
theorem session?_put_other {i j : Nat} (hij : j ≠ i) {s : Session} (hs : h.session? i = some s) (s' : Session) :
    (h.put j s').session? i = some ⟨s'.service, s.document⟩ := by
  refine session?_eq_some.2 ⟨?_, rfl⟩
  unfold put
  rw [List.getElem?_set_ne hij]
  exact (session?_eq_some.1 hs).1

theorem session?_on_other {i j : Nat} (hij : j ≠ i) {s s' : Session} (hs : h.session? i = some s)
    (hs' : h.session? j = some s') (f : Session → Session) :
    (h.on j f).session? i = some ⟨(f s').service, s.document⟩ := by
  rw [on_of_some hs']
  exact session?_put_other hij hs (f s')

theorem on_of_none {j : Nat} (hj : h.session? j = none) (f : Session → Session) : h.on j f = h := by
  unfold Host.on
  rw [hj]

theorem map_id_put {i : Nat} {s s' : Session} (hs : h.session? i = some s) (hid : s'.document.id = s.document.id) :
    (h.put i s').documents.map (·.id) = h.documents.map (·.id) := by
  obtain ⟨hi, hd⟩ := List.getElem?_eq_some_iff.1 (session?_eq_some.1 hs).1
  unfold put
  rw [List.map_set, hid, ← hd]
  have hi' : i < (h.documents.map (·.id)).length := by rwa [List.length_map]
  have he : (h.documents.map (·.id))[i] = h.documents[i].id := List.getElem_map _
  rw [← he]
  exact List.set_getElem_self hi'

theorem id_ne_of_ne (hn : (h.documents.map (·.id)).Nodup) {i j : Nat} (hij : j ≠ i) {s s' : Session}
    (hs : h.session? i = some s) (hs' : h.session? j = some s') : s.document.id ≠ s'.document.id := by
  intro he
  have hi := (session?_eq_some.1 hs).1
  have hj := (session?_eq_some.1 hs').1
  have hlt : j < (h.documents.map (·.id)).length := by
    rw [List.length_map]
    exact (List.getElem?_eq_some_iff.1 hj).1
  have hids : (h.documents.map (·.id))[j]? = (h.documents.map (·.id))[i]? := by
    rw [List.getElem?_map, List.getElem?_map, hi, hj, Option.map_some, Option.map_some, he]
  exact hij ((List.getElem?_inj hlt hn).1 hids)

theorem mem_put (hn : (h.documents.map (·.id)).Nodup) {i : Nat} {s s' : Session} (hs : h.session? i = some s)
    {d : Document} (hd : d ∈ (h.put i s').documents) :
    d = s'.document ∨ d ∈ h.documents ∧ d.id ≠ s.document.id := by
  have hi := (session?_eq_some.1 hs).1
  obtain ⟨j, hj⟩ := List.mem_iff_getElem?.1 hd
  unfold put at hj
  rw [List.getElem?_set] at hj
  split at hj
  · split at hj
    · exact .inl (Option.some.inj hj).symm
    · cases hj
  · next hij =>
    refine .inr ⟨List.mem_of_getElem? hj, ?_⟩
    exact id_ne_of_ne hn (s := ⟨h.service, d⟩) hij (session?_eq_some.2 ⟨hj, rfl⟩) hs

namespace Holds

theorem of_session? (hh : h.Holds P) {i : Nat} {s : Session} (hs : h.session? i = some s) :
    P s ∧ s.document.widget = false ∧ s.document.unreported = [] := by
  obtain ⟨hd, hv⟩ := session?_eq_some.1 hs
  have hm := List.mem_of_getElem? hd
  have hp := hh.session _ hm
  rw [← hv] at hp
  exact ⟨hp, hh.widget _ hm, hh.unreported _ hm⟩

theorem put (hP : Session.Kept P) (hh : h.Holds P) {i : Nat} {s s' : Session} (hs : h.session? i = some s)
    (ht : s.Tends s') : (h.put i s').Holds P := by
  obtain ⟨hp, hw, hu⟩ := hh.of_session? hs
  obtain ⟨-, hv⟩ := session?_eq_some.1 hs
  have hk := ht.keeps
  refine ⟨map_id_put hs hk.id ▸ hh.distinct, fun d hd => ?_, fun d hd => ?_, fun d hd => ?_⟩
  · rcases mem_put hh.distinct hs hd with rfl | ⟨hd, -⟩
    · exact hk.widget.trans hw
    · exact hh.widget d hd
  · rcases mem_put hh.distinct hs hd with rfl | ⟨hd, -⟩
    · exact hk.unreported.trans hu
    · exact hh.unreported d hd
  · rcases mem_put hh.distinct hs hd with rfl | ⟨hd, hne⟩
    · exact ht.preserves hP.moves hp
    · exact hP.own (s := ⟨h.service, d⟩) rfl ((hk.others d.id hne).trans (by rw [hv]; rfl))
        (hk.dialect.trans (by rw [hv])) (hk.settings.trans (by rw [hv])) (hh.session d hd)

theorem on (hP : Session.Kept P) (hh : h.Holds P) (i : Nat) {f : Session → Session}
    (hf : ∀ s : Session, s.document.widget = false → s.document.unreported = [] → s.Tends (f s)) :
    (h.on i f).Holds P := by
  unfold Host.on
  split
  · exact hh
  · next s hs =>
    obtain ⟨-, hw, hu⟩ := hh.of_session? hs
    exact hh.put hP hs (hf s hw hu)

theorem step_on (hP : Session.Kept P) (hh : h.Holds P) (i : Nat) (a : Action) : (h.step (.on i a)).Holds P :=
  hh.on hP i fun _ hw hu => Session.tends_act hw hu a

theorem activateAll (hP : Session.Kept P) (hh : h.Holds P) : h.activateAll.Holds P := by
  unfold Host.activateAll
  generalize List.range _ = indices
  induction indices generalizing h with
  | nil => exact hh
  | cons i indices ih => exact ih (hh.on hP i fun s _ _ => s.tends_notice (e := .activated) rfl)

theorem choose (hs : ∀ {s : Session} (settings : Settings), P s → P { s with service.settings := settings })
    (hh : h.Holds P) (settings : Settings) : (h.step (.choose settings)).Holds P :=
  ⟨hh.distinct, hh.widget, hh.unreported, fun d hd => hs settings (hh.session d hd)⟩

end Holds
end Host

namespace Opening

variable {P : Session → Prop}

theorem holds (hP : Session.Invariant P) (o : Opening) : o.host.Holds P :=
  Host.Holds.activateAll hP.toKept
    ⟨o.distinct, fun d hd => (o.unmarked d hd).widget, fun d hd => (o.unmarked d hd).unreported,
      fun d hd => hP.opened (o.unmarked d hd) rfl⟩

/-- **What holds of all sessions holds of them after every run**, the settings being changed only if that changes
nothing. -/
theorem holds_run (hP : Session.Invariant P) (o : Opening) (steps : List Host.Step)
    (hs : ∀ st ∈ steps, st.keepsSettings = false →
      ∀ {s : Session} (settings : Settings), P s → P { s with service.settings := settings }) :
    (o.host.run steps).Holds P := by
  have h₀ := o.holds hP
  generalize o.host = h at h₀ ⊢
  induction steps generalizing h with
  | nil => exact h₀
  | cons st steps ih =>
    refine ih (fun st' hst' => hs st' (List.mem_cons_of_mem _ hst')) (h.step st) ?_
    cases st with
    | on i a => exact h₀.step_on hP.toKept i a
    | choose settings => exact h₀.choose (hs _ List.mem_cons_self rfl) settings

end Opening
end Shorthand
