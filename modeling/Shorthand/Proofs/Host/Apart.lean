import Shorthand.Proofs.Host.Run
import Shorthand.Proofs.Session.Twin
/-!
# Documents do not influence each other

One service serves all documents of a host, and what it keeps for them lies in the same maps.  A user goes from document
to document and takes a `Turn` in each; a turn that asks for a completion list also waits for it, which is the one
thing that the service remembers without a document (`Service.completionAsked`).  Whatever the order of the turns, each
document ends as if its own turns had been taken alone with a service of its own, and the same came back from them
(`Host.documents_apart`).
-/
namespace Shorthand

open Abbreviation (Context)

/-- An abbreviation is expanded, or it is told what one would expand to. -/
def Action.expands : Action → Bool
  | .command .expand | .complete _ | .notify (.queryCompletions _) _ => true
  | _ => false

/-- What a user does in one document before anything happens in another: a completion list is not asked for and then
left. -/
inductive Turn where
  | act (a : Action) (whole : a ≠ .notify (.textCommand .autoComplete) rfl)
  /-- A completion list is asked for, opened at `pos` and let go. -/
  | complete (pos : Nat)

/-- What comes back from a turn: what the step tells or why it is refused, and what the service replies. -/
structure Answer where
  told : Except StepError (Option String) := .ok none
  reply : Reply := .none

namespace Session

variable {C : Option Context → Option Context → Prop} {b s a o o' : Session}

def answer (s : Session) : Action → Answer
  | .type t => { told := (silently (s.type t)).2 }
  | .backspace count => { told := (silently (s.backspace count)).2 }
  | .edit p => { told := (silently (s.edit p)).2 }
  | .select anchor head => { told := (silently (s.select anchor head)).2 }
  | .undo | .command _ | .protect _ => {}
  | .complete commit =>
    { told := (s.takeCompletion commit).2, reply := .completions (s.complete s.document.caret).2 }
  | .notify e _ => { reply := (s.dispatch e).2 }

def turn (s : Session) : Turn → Session × Answer
  | .act a _ => (s.act a, s.answer a)
  | .complete pos => ((s.complete pos).1, { reply := .completions (s.complete pos).2 })

def turns (s : Session) : List Turn → Session × List Answer
  | [] => (s, [])
  | x :: xs => (((s.turn x).1.turns xs).1, (s.turn x).2 :: ((s.turn x).1.turns xs).2)

/-! ## Turns of twins -/

namespace Twin

theorem refl (s : Session) : Twin Eq s s s where
  id := rfl
  document := rfl
  dialect := rfl
  dialect' := rfl
  settings := rfl
  settings' := rfl
  captures _ _ := rfl
  asked := rfl
  asked' := rfl
  tracked := by
    cases s.tracker? with
    | none => exact .none
    | some t => exact .some (.refl t)
  caret := rfl
  trackers _ _ := rfl
  carets _ _ := rfl

/-- What the service keeps for the other documents may be counted from now on. -/
theorem rebase (h : Twin C b s a) : Twin C s s a :=
  { h with
    id := rfl
    dialect := rfl
    dialect' := h.dialect'.trans h.dialect.symm
    settings := rfl
    settings' := by rw [h.settings]; exact h.settings'
    asked := rfl
    asked' := h.asked'.trans h.asked.symm
    trackers := fun _ _ => rfl
    carets := fun _ _ => rfl }

/-- **What is done in another document passes a twin by.** -/
theorem beside (h : Twin C s s a) (ho : Twin Eq o o' o') (hv : o.service = s.service)
    (hne : s.document.id ≠ o.document.id) : Twin C ⟨o'.service, s.document⟩ ⟨o'.service, s.document⟩ a := by
  have hne' : s.document.id ≠ o'.document.id := ho.id ▸ hne
  have hs : o'.service.settings = s.service.settings := by rw [ho.settings, hv]
  refine ⟨rfl, h.document, rfl, ?_, rfl, ?_, ?_, rfl, ?_, ?_, ?_, fun _ _ => rfl, fun _ _ => rfl⟩
  · rw [h.dialect', ho.dialect, hv]
  · exact hs ▸ h.settings'
  · exact hs ▸ h.captures
  · rw [h.asked', ho.asked, hv]
  · have ht : Session.tracker? ⟨o'.service, s.document⟩ = s.tracker? := by
      change o'.service.trackers.get? s.document.id = s.service.trackers.get? s.document.id
      rw [ho.trackers _ hne', hv]
    rw [ht]
    exact h.tracked
  · refine h.caret.trans ?_
    rw [ho.carets _ hne', hv]

theorem silently {r r' : Session × Option DocumentError} (h : Twins C b r r') :
    (silently r').2 = (silently r).2 := by
  unfold Session.silently
  rw [h.2]

/-- **Twins stay twins and answer alike**, if they agree where anything is expanded. -/
theorem act [Std.Refl C] (h : Twin C b s a) {x : Action} (ha : x.expands = true → s.Agree a) :
    ∃ asked, (b.service.completionAsked = false → x ≠ .notify (.textCommand .autoComplete) rfl → asked = false) ∧
      Twins C (b.askCompletion asked) (s.act x, s.answer x) (a.act x, a.answer x) := by
  have same {r r' : Session × Answer} (ht : Twins C b r r') :
      ∃ asked, (b.service.completionAsked = false → x ≠ .notify (.textCommand .autoComplete) rfl → asked = false) ∧
        Twins C (b.askCompletion asked) r r' := ⟨b.service.completionAsked, fun hb _ => hb, ht⟩
  cases x with
  | type w => exact same ⟨(h.type w).1, congrArg (Answer.mk · _) (silently (h.type w))⟩
  | backspace count => exact same ⟨(h.backspace count).1, congrArg (Answer.mk · _) (silently (h.backspace count))⟩
  | edit p => exact same ⟨(h.edit p).1, congrArg (Answer.mk · _) (silently (h.edit p))⟩
  | select anchor head =>
    exact same ⟨(h.select anchor head).1, congrArg (Answer.mk · _) (silently (h.select anchor head))⟩
  | undo => exact same ⟨h.undo, rfl⟩
  | command c =>
    refine same ⟨h.command fun hc => ha ?_, rfl⟩
    rw [hc]
    rfl
  | complete commit =>
    have hc := h.takeCompletion (ha rfl) commit
    refine ⟨false, fun _ _ => rfl, hc.1, congrArg₂ Answer.mk hc.2 (congrArg Reply.completions ?_)⟩
    rw [h.document]
    exact (h.complete (ha rfl) s.document.caret).2
  | notify e notice =>
    obtain ⟨asked, hk, hd⟩ := h.dispatch notice fun pos he => ha (by subst he; rfl)
    refine ⟨asked, fun hb hx => hk hb ?_, hd.1, congrArg (Answer.mk _) hd.2⟩
    rintro rfl
    exact hx rfl
  | protect readonly => exact same ⟨h.mapDocument (f := fun d => { d with readonly }) rfl, rfl⟩

theorem turn (h : Twin Eq b s a) (hb : b.service.completionAsked = false) (x : Turn) :
    Twins Eq b (s.turn x) (a.turn x) := by
  have hk : b.askCompletion false = b := askCompletion_of_unasked hb
  cases x with
  | act x whole =>
    obtain ⟨asked, ha, ht⟩ := h.act (x := x) fun _ => h.agree
    rwa [ha hb whole, hk] at ht
  | complete pos =>
    have hc := h.complete h.agree pos
    rw [hk] at hc
    exact ⟨hc.1, congrArg (fun entry => Answer.mk _ (.completions entry)) hc.2⟩

end Twin
end Session

/-! ## Any order of turns -/

namespace Host

variable {α : Type} {h : Host}

/-- What goes to the document at `i`, in a list of what goes to documents. -/
def own (i : Nat) (l : List (Nat × α)) : List α := (l.filter (·.1 = i)).map (·.2)

theorem own_cons_self (i : Nat) (x : α) (l : List (Nat × α)) : own i ((i, x) :: l) = x :: own i l := by
  simp [own]

theorem own_cons_other {i j : Nat} (hij : j ≠ i) (x : α) (l : List (Nat × α)) : own i ((j, x) :: l) = own i l := by
  simp [own, hij]

/-- **The host after turns in its documents**, and what came back from them. -/
def turns (h : Host) : List (Nat × Turn) → Host × List (Nat × Answer)
  | [] => (h, [])
  | (j, x) :: rest =>
    match h.session? j with
    | none => h.turns rest
    | some s =>
      let after := (h.put j (s.turn x).1).turns rest
      (after.1, (j, (s.turn x).2) :: after.2)

theorem turns_of_none {j : Nat} (hj : h.session? j = none) (x : Turn) (rest : List (Nat × Turn)) :
    h.turns ((j, x) :: rest) = h.turns rest := by
  rw [turns, hj]

theorem turns_of_some {j : Nat} {s : Session} (hj : h.session? j = some s) (x : Turn) (rest : List (Nat × Turn)) :
    h.turns ((j, x) :: rest) =
      (((h.put j (s.turn x).1).turns rest).1, (j, (s.turn x).2) :: ((h.put j (s.turn x).1).turns rest).2) := by
  rw [turns, hj]

/-- Between two turns: each document has its own number, and no completion list is being waited for. -/
structure Settled (h : Host) : Prop where
  distinct : (h.documents.map (·.id)).Nodup
  unasked : h.service.completionAsked = false

theorem Settled.put_turn (hh : h.Settled) {j : Nat} {s : Session} (hj : h.session? j = some s) (x : Turn) :
    (h.put j (s.turn x).1).Settled := by
  have hb : s.service.completionAsked = false := (session?_eq_some.1 hj).2 ▸ hh.unasked
  obtain ⟨ht, -⟩ := (Session.Twin.refl s).turn hb x
  exact ⟨map_id_put hj ht.id ▸ hh.distinct, ht.asked.trans hb⟩

/-- **The document at `i` and a twin that takes the turns meant for `i` stay twins**, whatever the other turns. -/
theorem twin_turns (hh : h.Settled) {i : Nat} {s a : Session} (hs : h.session? i = some s) (ht : s.Twin Eq s a)
    (xs : List (Nat × Turn)) :
    ∃ s', (h.turns xs).1.session? i = some s' ∧ s'.document.id = s.document.id ∧
      s'.Twin Eq s' (a.turns (own i xs)).1 ∧ own i (h.turns xs).2 = (a.turns (own i xs)).2 := by
  induction xs generalizing h s a with
  | nil => exact ⟨s, hs, rfl, ht, rfl⟩
  | cons v xs ih =>
    obtain ⟨j, x⟩ := v
    cases hj : h.session? j with
    | none =>
      have hij : j ≠ i := by
        rintro rfl
        rw [hs] at hj
        cases hj
      rw [turns_of_none hj, own_cons_other hij]
      exact ih hh hs ht
    | some o =>
      have hv := (session?_eq_some.1 hj).2
      have hb : o.service.completionAsked = false := hv ▸ hh.unasked
      rw [turns_of_some hj]
      by_cases hij : j = i
      · subst hij
        obtain rfl : o = s := Option.some.inj (hj.symm.trans hs)
        obtain ⟨ha, hr⟩ := ht.turn hb x
        obtain ⟨s', hs', hid, ht', he⟩ := ih (hh.put_turn hj x) (session?_put hj _) ha.rebase
        refine ⟨s', hs', hid.trans ha.id, ?_, ?_⟩ <;> rw [own_cons_self]
        · exact ht'
        · rw [own_cons_self, he, ← hr]
          rfl
      · -- the turn is in another document, which keeps what the service has for this one
        obtain ⟨ho, -⟩ := (Session.Twin.refl o).turn hb x
        have hb := ht.beside ho (hv.trans (session?_eq_some.1 hs).2.symm) (id_ne_of_ne hh.distinct hij hs hj)
        obtain ⟨s', hs', hid, ht', he⟩ := ih (hh.put_turn hj x) (session?_put_other hij hs _) hb
        refine ⟨s', hs', hid, ?_, ?_⟩ <;> rw [own_cons_other hij]
        · exact ht'
        · rw [own_cons_other hij, he]

/-- **Documents do not influence each other.**  After turns taken in the documents of a host in any order, each document
with its markers and its caret, its tracker and what is remembered of its caret, and all that came back from its turns
are as if its own turns had been taken in that order with a new service for itself. -/
theorem documents_apart (dialect : Dialect) (settings : Settings) {documents : List Document}
    (distinct : (documents.map (·.id)).Nodup) {i : Nat} {d : Document} (hd : documents[i]? = some d)
    (xs : List (Nat × Turn)) :
    let together := (Host.mk { dialect, settings } documents).turns xs
    let alone := (Session.mk { dialect, settings } d).turns (own i xs)
    ∃ s, together.1.session? i = some s ∧ s.document = alone.1.document ∧ s.tracker? = alone.1.tracker? ∧
      s.service.carets.get? d.id = alone.1.service.carets.get? d.id ∧ own i together.2 = alone.2 := by
  intro together alone
  have hs : (Host.mk { dialect, settings } documents).session? i = some ⟨{ dialect, settings }, d⟩ :=
    session?_eq_some.2 ⟨hd, rfl⟩
  obtain ⟨s, hs', hid, ht, he⟩ := twin_turns ⟨distinct, rfl⟩ hs (.refl _) xs
  exact ⟨s, hs', ht.document.symm, ht.tracker.symm, hid ▸ ht.caret.symm, he⟩

/-- While an abbreviation is typed in the first document and partly undone, completions are asked for in the second,
where nothing is found, and taken in the third, and the second is closed. -/
theorem documents_apart_among_three :
    let documents := Opening.numbered 1 ["a ".toList, "".toList, "ul>li".toList]
    let mine : List Turn := [.act (.notify .activated rfl) nofun, .act (.type "p>(a".toList) nofun, .act .undo nofun,
      .act (.notify (.queryContext .inAbbreviation) rfl) nofun]
    let xs : List (Nat × Turn) := (mine.take 2).map (0, ·) ++ [(1, .complete 0), (2, .act (.complete true) nofun),
      (1, .act (.type "x".toList) nofun)] ++ (mine.drop 2).map (0, ·) ++ [(1, .act (.notify .closed rfl) nofun)]
    let alone := (Session.mk { dialect := ⟨"html", true⟩ }
      { id := 1, text := "a ".toList, selection := .point 2 }).turns mine
    ∃ s, ((Host.mk { dialect := ⟨"html", true⟩ } documents).turns xs).1.session? 0 = some s ∧
      s.document = alone.1.document ∧ s.document.text = "a p>()".toList ∧ s.tracker? = alone.1.tracker? ∧
      s.tracker?.map (·.region) = some ⟨4, 6⟩ ∧
      s.service.carets.get? 1 = alone.1.service.carets.get? 1 ∧
      own 0 ((Host.mk { dialect := ⟨"html", true⟩ } documents).turns xs).2 = alone.2 ∧
      (alone.2.map (·.reply)).getLast? = some (.context true) := by
  intro documents mine xs alone
  have hx : alone.1.document.text = "a p>()".toList ∧ alone.1.tracker?.map (·.region) = some ⟨4, 6⟩ ∧
      (alone.2.map (·.reply)).getLast? = some (.context true) := by decide +kernel
  have hn : (documents.map (·.id)).Nodup := by decide
  obtain ⟨s, hs, hd, ht, hc, ha⟩ := documents_apart ⟨"html", true⟩ {} hn (i := 0) rfl xs
  exact ⟨s, hs, hd, hd ▸ hx.1, ht, ht ▸ hx.2.1, hc, ha, hx.2.2⟩

end Host
end Shorthand
