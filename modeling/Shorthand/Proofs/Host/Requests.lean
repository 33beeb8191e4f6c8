import Shorthand.Proofs.Host.Apart
import Shorthand.Proofs.Host.Widgets
/-!
# Completion lists and who has asked for them

An editor asks for a completion list in a document (`TextCommand.autoComplete`) and then queries what to put in it.  The
service remembers that it has been asked, but not for which document.  So a query that is served has always been asked
for, since the last query and the last list that was filled, in some document; that it was the one queried holds of a
run just if no query that will be served comes to a document out of turn (`served_in_turn_iff`).
-/
namespace Shorthand

namespace Session

variable {s s' : Session} {pos : Nat}

/-! ## The queries that are served -/

/-- **A query at `pos` is served**: an entry is offered, or something comes to be tracked there. -/
def Serves (s : Session) (pos : Nat) : Prop :=
  (∃ entry, (s.dispatch (.queryCompletions pos)).2 = .completions (some entry)) ∨
    (s.tracksAt pos = false ∧ (s.after (.queryCompletions pos)).tracksAt pos = true)

/-- There is something at `pos` to serve a query with: an abbreviation tracked there that expands, or one to extract. -/
def servesAt (s : Session) (pos : Nat) : Bool :=
  if s.tracksAt pos then
    s.service.allowsTracking && s.tracker?.any fun t => (t.expansionIn? s.document.text).isSome
  else s.findsAt pos

theorem Quiet.tracksAt (h : s.Quiet s') (pos : Nat) : s'.tracksAt pos = s.tracksAt pos := by
  have hc (s : Session) : s.tracksAt pos = (s.tracker?.map Tracker.core).any (·.1.contains pos) := by
    unfold Session.tracksAt
    rw [Option.any_map]
    rfl
  rw [hc, hc, h.core]

theorem tracksAt_of_none (h : s.tracker? = none) (pos : Nat) : s.tracksAt pos = false := by
  unfold tracksAt
  rw [h]
  rfl

theorem serves_iff_answer (s : Session) (pos : Nat) : s.Serves pos ↔ (s.onQueryCompletions pos).2.isSome = true ∨
    s.tracksAt pos = false ∧ (s.onQueryCompletions pos).1.tracksAt pos = true := by
  have hd : (s.dispatch (.queryCompletions pos)).2 = .completions (s.onQueryCompletions pos).2 := rfl
  unfold Serves
  rw [hd, Option.isSome_iff_exists]
  simp only [Reply.completions.injEq]
  rfl

/-- An entry is offered if something is suggested and expands. -/
theorem isSome_onQueryCompletions (h : s.service.completionAsked = true) (pos : Nat) :
    (s.onQueryCompletions pos).2.isSome = ((s.suggest pos).2.isSome && (s.suggest pos).1.expansion.2.isSome) := by
  rw [onQueryCompletions_of_asked h]
  rcases s.suggest pos with ⟨s', _ | t⟩
  · rfl
  · dsimp only
    rw [Option.isSome_map]
    rfl

/-- **A query is served just if a completion list has been asked for and there is something to serve.** -/
theorem serves_iff (s : Session) (pos : Nat) :
    s.Serves pos ↔ (s.service.completionAsked && s.servesAt pos) = true := by
  rw [serves_iff_answer]
  cases hasked : s.service.completionAsked with
  | false =>
    rw [onQueryCompletions_of_unasked hasked]
    cases s.tracksAt pos <;> simp
  | true =>
    rw [isSome_onQueryCompletions hasked, (quiet_onQueryCompletions hasked pos).tracksAt, Bool.true_and]
    unfold servesAt findsAt
    cases ha : s.service.allowsTracking with
    | false =>
      have hs : s.suggest pos = (s, none) := by simp [suggest, ha]
      rw [hs]
      cases s.tracksAt pos <;> simp
    | true =>
      cases hat : s.tracksAt pos with
      | true =>
        -- what is tracked there is what is suggested, and it has to expand
        have hs : (s.suggest pos).1 = s := suggest_of_tracksAt hat
        obtain ⟨t, ht, -⟩ := (Option.any_eq_true _ _).1 hat
        have hsome : (s.suggest pos).2 = some t := by rw [← (suggest_tracks ha pos).1, hs, ht]
        rw [hsome, hs, expansion_of_some ht, ← Tracker.expansionIn?_eq, ht]
        simp
      | false =>
        -- what is found is tracked, whether it expands or not
        obtain ⟨s₀, -, hnone, hfound, hs⟩ := suggest_of_not_tracksAt ha hat
        rw [hs, startExtracted_eq, hfound]
        cases hx : s.found? pos with
        | none => simp [tracksAt_of_none hnone]
        | some x =>
          have hregion := (suggest_tracks ha pos).2
          rw [hs, startExtracted_eq, hfound, hx] at hregion
          have hat' : (s₀.hold (s₀.extracted pos x)).tracksAt pos = true := by
            unfold tracksAt
            rw [tracker?_hold]
            exact hregion _ rfl
          simp [hat']

/-! ## What becomes of a request -/

end Session

/-- A completion list is asked for. -/
def Event.asks : Event → Bool
  | .textCommand .autoComplete => true
  | _ => false

/-- A completion list has been asked for no longer: it is queried, or the editor is done with it. -/
def Event.settles : Event → Bool
  | .queryCompletions _ => true
  | .postTextCommand .autoComplete => true
  | _ => false

namespace Session

/-- **A request comes from asking, and lasts until it is settled.** -/
theorem asks_of_completionAsked (s : Session) (e : Event) (h : (s.after e).service.completionAsked = true) :
    e.asks = true ∨ e.settles = false ∧ s.service.completionAsked = true := by
  have same {s' : Session} (ht : Twin Eq s s' s') (hs : s'.service.completionAsked = true) :
      s.service.completionAsked = true := ht.asked ▸ hs
  cases e with
  | activated => exact .inr ⟨rfl, same (Twin.refl s).onActivated h⟩
  | closed => exact .inr ⟨rfl, same (Twin.refl s).onClosed h⟩
  | selectionModified => exact .inr ⟨rfl, same (Twin.refl s).onSelectionModified h⟩
  | modified p => exact .inr ⟨rfl, same ((Twin.refl s).onModified p) h⟩
  | textCommand c =>
    cases c with
    | autoComplete => exact .inl rfl
    | commitCompletion => exact .inr ⟨rfl, h⟩
    | undo => exact .inr ⟨rfl, h⟩
    | other name => exact .inr ⟨rfl, h⟩
  | postTextCommand c =>
    cases c with
    | autoComplete => cases h
    | commitCompletion => exact .inr ⟨rfl, h⟩
    | undo => exact .inr ⟨rfl, same (Twin.refl s).onUndone h⟩
    | other name => exact .inr ⟨rfl, h⟩
  | queryContext key => exact .inr ⟨rfl, h⟩
  | queryCompletions pos =>
    have hq := ((Twin.refl s).onQueryCompletions (Twin.refl s).agree pos).1.asked
    cases hq.symm.trans h
  | command c => exact .inr ⟨rfl, same ((Twin.refl s).run (c := c) fun _ => (Twin.refl s).agree) h⟩

end Session

namespace Host

variable {h : Host} {i : Nat} {s : Session} {xs : List Happening}

/-! ## Requests in the past -/

namespace Happening

/-- A completion list is asked for in the document at `i`. -/
def asks (i : Nat) : Happening → Bool
  | .event j e => j = i && e.asks
  | _ => false

/-- A completion list has been asked for no longer, in whatever document. -/
def settles : Happening → Bool
  | .event _ e => e.settles
  | _ => false

end Happening

/-- **A completion list has been asked for in the document at `i`**, and nothing has been queried or done with since. -/
def Asked (i : Nat) (xs : List Happening) : Prop :=
  ∃ before after, xs = before ++ .event i (.textCommand .autoComplete) :: after ∧ ∀ x ∈ after, x.settles = false

theorem eq_of_asks {x : Happening} (h : x.asks i = true) : x = .event i (.textCommand .autoComplete) := by
  cases x with
  | event j e =>
    obtain ⟨hj, he⟩ := Bool.and_eq_true_iff.1 h
    have hj : j = i := of_decide_eq_true hj
    subst hj
    cases e with
    | textCommand c =>
      cases c with
      | autoComplete => rfl
      | _ => cases he
    | _ => cases he
  | operation j op => cases h
  | choose settings => cases h

theorem asked_cons {x : Happening} :
    Asked i (x :: xs) ↔ (x.asks i = true ∧ ∀ y ∈ xs, y.settles = false) ∨ Asked i xs := by
  constructor
  · rintro ⟨before, after, he, hs⟩
    cases before with
    | nil =>
      obtain ⟨rfl, rfl⟩ := List.cons.inj he
      exact .inl ⟨by simp [Happening.asks, Event.asks], hs⟩
    | cons y before =>
      obtain ⟨-, rfl⟩ := List.cons.inj he
      exact .inr ⟨before, after, rfl, hs⟩
  · rintro (⟨hx, hs⟩ | ⟨before, after, rfl, hs⟩)
    · exact ⟨[], xs, by rw [eq_of_asks hx]; rfl, hs⟩
    · exact ⟨x :: before, after, rfl, hs⟩

/-- The documents that a completion list has been asked for in, once `x` has happened. -/
def note (asking : List Nat) : Happening → List Nat
  | .event i e => if e.asks then i :: asking else if e.settles then [] else asking
  | _ => asking

theorem settles_of_asks {e : Event} (h : e.asks = true) : e.settles = false := by
  cases e with
  | textCommand c => rfl
  | _ => cases h

theorem mem_note_iff {asking : List Nat} (x : Happening) :
    i ∈ note asking x ↔ x.asks i = true ∨ x.settles = false ∧ i ∈ asking := by
  cases x with
  | event j e =>
    simp only [note, Happening.asks, Happening.settles, Bool.and_eq_true, decide_eq_true_eq]
    by_cases ha : e.asks = true
    · rw [if_pos ha, List.mem_cons, settles_of_asks ha]
      tauto
    · rw [if_neg ha]
      cases e.settles <;> simp [ha]
  | operation j op => simp [note, Happening.asks, Happening.settles]
  | choose settings => simp [note, Happening.asks, Happening.settles]

/-- **Who has asked can be noted step by step.** -/
theorem mem_foldl_note_iff {asking : List Nat} :
    i ∈ xs.foldl note asking ↔ ((∀ x ∈ xs, x.settles = false) ∧ i ∈ asking) ∨ Asked i xs := by
  induction xs generalizing asking with
  | nil =>
    have hn : ¬ Asked i [] := by rintro ⟨before, after, he, -⟩; cases before <;> cases he
    simp [hn]
  | cons x xs ih =>
    rw [List.foldl_cons, ih, mem_note_iff, asked_cons, List.forall_mem_cons]
    tauto

/-- The document that the service is told of is one of the host. -/
def knows (h : Host) : Happening → Bool
  | .event i _ => i < h.documents.length
  | _ => true

theorem length_documents_on (h : Host) (i : Nat) (f : Session → Session) :
    (h.on i f).documents.length = h.documents.length := by
  cases hs : h.session? i with
  | none => rw [on_of_none hs]
  | some s => rw [on_of_some hs, put, List.length_set]

theorem knows_happen (h : Host) (x : Happening) : (h.happen x).knows = h.knows := by
  have hl : (h.happen x).documents.length = h.documents.length := by
    cases x with
    | event i e => exact length_documents_on h i _
    | operation i op => exact length_documents_on h i _
    | choose settings => rfl
  funext y
  cases y with
  | event i e => simp only [knows, hl]
  | operation i op => rfl
  | choose settings => rfl

theorem asks_of_happen {x : Happening} (hk : h.knows x = true)
    (hc : (h.happen x).service.completionAsked = true) :
    (∃ i, x.asks i = true) ∨ x.settles = false ∧ h.service.completionAsked = true := by
  cases x with
  | event i e =>
    change (h.on i (·.after e)).service.completionAsked = true at hc
    obtain ⟨d, hd⟩ : ∃ d, h.documents[i]? = some d := ⟨_, List.getElem?_eq_getElem (of_decide_eq_true hk)⟩
    have hs : h.session? i = some ⟨h.service, d⟩ := session?_eq_some.2 ⟨hd, rfl⟩
    rw [on_of_some hs] at hc
    obtain ha | ⟨hn, ha⟩ := Session.asks_of_completionAsked _ e hc
    · exact .inl ⟨i, by simp [Happening.asks, ha]⟩
    · exact .inr ⟨hn, ha⟩
  | operation i op =>
    refine .inr ⟨rfl, ?_⟩
    change (h.on i _).service.completionAsked = true at hc
    cases hs : h.session? i with
    | none => rwa [on_of_none hs] at hc
    | some s =>
      rw [on_of_some hs] at hc
      have hv : s.service = h.service := (session?_eq_some.1 hs).2
      exact hv ▸ hc
  | choose settings => exact .inr ⟨rfl, hc⟩

/-- **A request that has not been settled has been made in the run**, or before it. -/
theorem asked_of_completionAsked (hk : ∀ x ∈ xs, h.knows x = true)
    (hc : (h.happenings xs).service.completionAsked = true) :
    ((∀ x ∈ xs, x.settles = false) ∧ h.service.completionAsked = true) ∨ ∃ i, Asked i xs := by
  induction xs generalizing h with
  | nil => exact .inl ⟨nofun, hc⟩
  | cons x xs ih =>
    obtain ⟨hx, hk⟩ := List.forall_mem_cons.1 hk
    obtain ⟨hs, hc⟩ | ⟨i, hi⟩ := ih (h := h.happen x) (by rwa [knows_happen]) hc
    · obtain ⟨i, hi⟩ | ⟨hn, hh⟩ := asks_of_happen hx hc
      · exact .inr ⟨i, asked_cons.2 (.inl ⟨hi, hs⟩)⟩
      · exact .inl ⟨List.forall_mem_cons.2 ⟨hn, hs⟩, hh⟩
    · exact .inr ⟨i, asked_cons.2 (.inr hi)⟩

/-! ## Runs -/

/-- **The query at `pos` of the document at `i` is served.** -/
def Served (h : Host) (i pos : Nat) : Prop := ∃ s, h.session? i = some s ∧ s.Serves pos

/-- If `x` is a query that is served, the document queried is one of those in `asking`. -/
def ServesAsking (h : Host) (asking : List Nat) (x : Happening) : Prop :=
  ∀ i pos, x = .event i (.queryCompletions pos) → h.Served i pos → i ∈ asking

/-- `x` is no query that there is something to serve with, unless it is in turn: in one of the documents in `asking`. -/
def servesInTurn (h : Host) (asking : List Nat) : Happening → Bool
  | .event i (.queryCompletions pos) =>
    asking.contains i || !(h.session? i).any fun s => s.service.completionAsked && s.servesAt pos
  | _ => true

/-- A host and the documents in which a completion list has been asked for, once `x` has happened. -/
def proceed (now : Host × List Nat) (x : Happening) : Host × List Nat := (now.1.happen x, note now.2 x)

/-- **No query in the run is served out of turn.** -/
def inTurn (h : Host) (xs : List Happening) : Bool :=
  along proceed (fun now x => now.1.servesInTurn now.2 x) (h, []) xs

theorem served_iff (h : Host) (i pos : Nat) : h.Served i pos ↔
    ((h.session? i).any fun s => s.service.completionAsked && s.servesAt pos) = true := by
  rw [Option.any_eq_true]
  exact exists_congr fun s => and_congr_right fun _ => s.serves_iff pos

theorem servesInTurn_iff (h : Host) (asking : List Nat) (x : Happening) :
    h.ServesAsking asking x ↔ h.servesInTurn asking x = true := by
  unfold ServesAsking servesInTurn
  split
  · next i pos =>
    rw [Bool.or_eq_true, List.contains_iff_mem, Bool.not_eq_true', ← Bool.not_eq_true, ← served_iff]
    constructor
    · intro hx
      by_cases hs : h.Served i pos
      · exact .inl (hx i pos rfl hs)
      · exact .inr hs
    · rintro (hi | hs) i' pos' hx hs' <;> cases hx
      · exact hi
      · exact absurd hs' hs
  · next hx => exact iff_of_true (fun i pos he => absurd he (hx i pos)) rfl

theorem foldl_proceed (h : Host) (asking : List Nat) (xs : List Happening) :
    xs.foldl proceed (h, asking) = (h.happenings xs, xs.foldl note asking) := by
  induction xs generalizing h asking with
  | nil => rfl
  | cons x xs ih => exact ih (h.happen x) (note asking x)

/-- **A query is served only after a completion list has been asked for**, in some document, with nothing queried or
done with since, so that no request is served twice.  That the document asked for it in is the one queried is so of
every query that is served just if none comes to a document out of turn. -/
theorem served_in_turn_iff (hc : h.service.completionAsked = false) (xs : List Happening)
    (hk : ∀ x ∈ xs, h.knows x = true) :
    (∀ pre i pos post, xs = pre ++ .event i (.queryCompletions pos) :: post → (h.happenings pre).Served i pos →
      ∃ j, Asked j pre) ∧
    ((∀ pre i pos post, xs = pre ++ .event i (.queryCompletions pos) :: post → (h.happenings pre).Served i pos →
      Asked i pre) ↔ h.inTurn xs = true) := by
  have hasked (i : Nat) (pre : List Happening) : i ∈ pre.foldl note [] ↔ Asked i pre := by
    rw [mem_foldl_note_iff]
    simp
  constructor
  · rintro pre i pos post rfl ⟨s, hs, hserves⟩
    obtain ⟨hsv, -⟩ := Bool.and_eq_true_iff.1 ((s.serves_iff pos).1 hserves)
    rw [(session?_eq_some.1 hs).2] at hsv
    obtain ⟨-, hh⟩ | hj := asked_of_completionAsked (fun x hx => hk x (List.mem_append_left _ hx)) hsv
    · rw [hc] at hh
      cases hh
    · exact hj
  · have hrun : (∀ pre x post, xs = pre ++ x :: post →
        (pre.foldl proceed (h, [])).1.ServesAsking (pre.foldl proceed (h, [])).2 x) ↔ h.inTurn xs = true :=
      along_iff (I := fun _ => True) (Q := fun (now : Host × List Nat) x => now.1.ServesAsking now.2 x)
        (fun now x _ => servesInTurn_iff now.1 now.2 x) (fun _ _ _ _ => trivial) xs trivial
    simp only [foldl_proceed] at hrun
    rw [← hrun]
    constructor
    · rintro hall pre _ post he i pos rfl hserved
      exact (hasked i pre).2 (hall pre i pos post he hserved)
    · intro hall pre i pos post he hserved
      exact (hasked i pre).1 (hall pre _ post he i pos rfl hserved)

/-- Two documents ask one after the other, and each is served its own list; the first is not served a second one on
the request of the other. -/
theorem served_in_turn_iff_one_by_one :
    let h : Host := ⟨{ dialect := ⟨"html", true⟩ },
      [{ id := 1, text := "ul".toList, selection := .point 2 },
        { id := 2, text := "ol".toList, selection := .point 2 }]⟩
    let xs : List Happening := [.event 0 (.textCommand .autoComplete), .event 1 .activated,
      .event 0 (.queryCompletions 2), .event 0 (.postTextCommand .autoComplete), .event 1 (.textCommand .autoComplete),
      .operation 0 (.type 'x'), .event 1 (.queryCompletions 2), .event 0 (.queryCompletions 2)]
    h.service.completionAsked = false ∧ (∀ x ∈ xs, h.knows x = true) ∧ h.inTurn xs = true ∧
      (h.happenings (xs.take 6)).Served 1 2 ∧ Asked 1 (xs.take 6) ∧ ¬ (h.happenings (xs.take 7)).Served 0 2 := by
  intro h xs
  have hk : ∀ x ∈ xs, h.knows x = true := by decide
  have hturn : h.inTurn xs = true := by decide +kernel
  have hserved : (h.happenings (xs.take 6)).Served 1 2 := (served_iff _ _ _).2 (by decide +kernel)
  have hasked : Asked 1 (xs.take 6) := (served_in_turn_iff rfl xs hk).2.2 hturn _ 1 2 (xs.drop 7) rfl hserved
  exact ⟨rfl, hk, hturn, hserved, hasked, fun hagain => absurd ((served_iff _ _ _).1 hagain) (by decide +kernel)⟩

/-- **A document can be served what another has asked for.** -/
theorem served_out_of_turn :
    ¬ ∀ (h : Host) (xs : List Happening), h.service.completionAsked = false → (∀ x ∈ xs, h.knows x = true) →
      ∀ pre i pos post, xs = pre ++ .event i (.queryCompletions pos) :: post → (h.happenings pre).Served i pos →
        Asked i pre := by
  intro hall
  let h : Host := ⟨{ dialect := ⟨"html", true⟩ },
    [{ id := 1, text := "ul".toList, selection := .point 2 }, { id := 2, text := "ol".toList, selection := .point 2 }]⟩
  let pre : List Happening := [.event 0 (.textCommand .autoComplete)]
  have hserved : (h.happenings pre).Served 1 2 := (served_iff _ _ _).2 (by decide +kernel)
  have hasked : Asked 1 pre := hall h (pre ++ [.event 1 (.queryCompletions 2)]) rfl (by decide) pre 1 2 [] rfl hserved
  have hnoted : 1 ∈ pre.foldl note [] := mem_foldl_note_iff.2 (.inr hasked)
  exact absurd hnoted (by decide)

end Host
end Shorthand
