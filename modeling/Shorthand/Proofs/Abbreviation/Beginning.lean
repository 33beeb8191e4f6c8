import Mathlib.Order.Bounds.Defs
import Shorthand.Proofs.Abbreviation.Located
/-!
# Where an abbreviation begins

The abbreviation located left of an offset begins at an extreme place.  Behind a marker (`Leads`) that is the last place
there is, so that nothing closer to the offset could be meant; without one (`Bare`) it is the first, so that all of what
stands there is taken, but for a tag that has just been left (`BeginsAt`).  It is located just if there is a place and
something between it and the offset (`locate?_extreme`).
-/
namespace Shorthand.Abbreviation

open Text (isBlank)

variable {lead before front run : Text} {bound start : Nat}

/-! ## Behind a marker -/

/-- **The marker `lead` stands at `start`**, and behind it one char or more, none of them blank. -/
def Leads (lead before : Text) (start : Nat) : Prop :=
  start + lead.length < before.length ∧ lead <+: before.drop start ∧
    ∀ c ∈ before.drop (start + lead.length), isBlank c = false

/-- The chars that the search looks at on its way to `start` are those behind the marker there. -/
theorem forall_mem_drop_iff : (∀ c ∈ before.drop (start + lead.length), isBlank c = false) ↔
    ∀ k, start ≤ k → ∀ c, before[k + lead.length]? = some c → isBlank c = false := by
  simp only [List.mem_iff_getElem?, List.getElem?_drop]
  constructor
  · intro h k hk c hc
    obtain ⟨i, rfl⟩ := Nat.exists_eq_add_of_le hk
    exact h c ⟨i, by rwa [Nat.add_right_comm]⟩
  · rintro h c ⟨i, hi⟩
    exact h (start + i) (Nat.le_add_right _ _) c (by rwa [Nat.add_right_comm])

/-- The search ends at a place with the marker. -/
theorem isPrefix_of_lastLead? (h : lastLead? lead before bound = some start) :
    start < bound ∧ lead <+: before.drop start := by
  induction bound with
  | zero => cases h
  | succ bound ih =>
    unfold lastLead? at h
    split at h
    · cases h
    split at h
    · next hp =>
      cases h
      exact ⟨Nat.lt_succ_self _, List.isPrefixOf_iff_prefix.1 hp⟩
    · exact ⟨Nat.lt_succ_of_lt (ih h).1, (ih h).2⟩

/-- It passes over no place with the marker unless something behind it is blank. -/
theorem le_lastLead? (hlt : start < bound) (hp : lead <+: before.drop start)
    (hb : ∀ k, start ≤ k → ∀ c, before[k + lead.length]? = some c → isBlank c = false) :
    ∃ last, lastLead? lead before bound = some last ∧ start ≤ last := by
  induction bound with
  | zero => omega
  | succ bound ih =>
    have hle := Nat.le_of_lt_succ hlt
    have hany : before[bound + lead.length]?.any isBlank = false := by
      rw [Option.any_eq_false]
      exact hb bound hle
    unfold lastLead?
    rw [if_neg (by rw [hany]; decide)]
    split
    · exact ⟨bound, rfl, hle⟩
    · next hn =>
      refine ih (Nat.lt_of_le_of_ne hle ?_)
      rintro rfl
      exact hn (List.isPrefixOf_iff_prefix.2 hp)

theorem Leads.le_lastLead? (h : Leads lead before start) :
    ∃ last, lastLead? lead before (before.length - lead.length) = some last ∧ start ≤ last := by
  obtain ⟨hlt, hp, hb⟩ := h
  exact Abbreviation.le_lastLead? (by omega) hp (forall_mem_drop_iff.1 hb)

/-- **What the search finds is the last place.** -/
theorem isGreatest_lastLead? (h : lastLead? lead before (before.length - lead.length) = some start) :
    IsGreatest {k | Leads lead before k} start := by
  obtain ⟨hlt, hp⟩ := isPrefix_of_lastLead? h
  constructor
  · refine ⟨by omega, hp, forall_mem_drop_iff.2 fun k hk c hc => ?_⟩
    have hin := (List.getElem?_eq_some_iff.1 hc).1
    exact not_isBlank_of_lastLead? h k hk (by omega) c hc
  · intro k hk
    obtain ⟨last, hlast, hle⟩ := Leads.le_lastLead? hk
    cases hlast.symm.trans h
    exact hle

/-! ## Without a marker -/

/-- **From `start` on there is nothing that ends an abbreviation**: no space, tab, `<`, semicolon or quote. -/
def Bare (before : Text) (start : Nat) : Prop :=
  start ≤ before.length ∧ ∀ c ∈ before.drop start, c ∉ [' ', '\t', '<', ';', '"', '\'']

theorem isOutside_iff {c : Char} : isOutside c = true ↔ c ∈ [' ', '\t', '<', ';', '"', '\''] := by
  simp [isOutside, or_assoc]

/-- **Where an abbreviation begins that could begin at `first`**: there, or right behind the first `>` from there on if
there is one and a `<` stands in front. -/
def BeginsAt (before : Text) (first start : Nat) : Prop :=
  if 0 < first ∧ before[first - 1]? = some '<' ∧ '>' ∈ before.drop first then
    IsLeast {k | first < k ∧ before[k - 1]? = some '>'} start
  else start = first

/-- A text is what comes before the chars of a class at its end, and those. -/
theorem exists_last_run (p : Char → Bool) (t : Text) : ∃ front run, t = front ++ run ∧
    (t.reverse.takeWhile p).reverse = run ∧ (∀ c ∈ run, p c = true) ∧ ∀ c, front.getLast? = some c → p c = false := by
  refine ⟨(t.reverse.dropWhile p).reverse, _, ?_, rfl, ?_, ?_⟩
  · rw [← List.reverse_append, List.takeWhile_append_dropWhile, List.reverse_reverse]
  · intro c hc
    exact List.all_eq_true.1 List.all_takeWhile c (List.mem_reverse.1 hc)
  · intro c hc
    have hd := List.head?_dropWhile_not p t.reverse
    rw [List.getLast?_reverse] at hc
    rw [hc] at hd
    simpa using hd

/-- **A run that cannot be made longer begins at the first place.** -/
theorem isLeast_bare (hrun : ∀ c ∈ run, isOutside c = false)
    (hfront : ∀ c, front.getLast? = some c → isOutside c = true) :
    IsLeast {k | Bare (front ++ run) k} front.length := by
  constructor
  · refine ⟨by simp, fun c hc hout => ?_⟩
    rw [List.drop_left] at hc
    rw [← isOutside_iff, hrun c hc] at hout
    cases hout
  · rintro k ⟨-, hk⟩
    refine Nat.le_of_not_lt fun hlt => ?_
    -- the last char in front of the run is outside, and behind `k`
    have hne : front ≠ [] := by
      rintro rfl
      exact Nat.not_lt_zero k hlt
    have hmem : front.getLast hne ∈ (front ++ run).drop k := by
      rw [List.drop_append_of_le_length (by omega)]
      refine List.mem_append_left _ ?_
      rw [← List.getLast_drop (l := front) (i := k) (by simpa using hlt)]
      exact List.getLast_mem _
    exact hk _ hmem (isOutside_iff.1 (hfront _ (List.getLast?_eq_some_getLast hne)))

/-- **The first `>` of a run ends the tag that is left**, if there is one. -/
theorem isLeast_behind_tag (hg : '>' ∈ run) :
    IsLeast {k | front.length < k ∧ (front ++ run)[k - 1]? = some '>'}
      (front.length + (run.takeWhile (· != '>')).length + 1) := by
  obtain ⟨tag, rest, rfl, htag⟩ := List.eq_append_cons_of_mem hg
  have hall : ∀ c ∈ tag, (c != '>') = true := by
    intro c hc
    rw [bne_iff_ne]
    rintro rfl
    exact htag hc
  rw [List.takeWhile_append_of_pos hall, List.takeWhile_cons_of_neg (by decide), List.append_nil]
  constructor
  · refine ⟨by omega, ?_⟩
    rw [Nat.add_sub_cancel, List.getElem?_append_right (Nat.le_add_right _ _), Nat.add_sub_cancel_left,
      List.getElem?_append_right (Nat.le_refl _), Nat.sub_self, List.getElem?_cons_zero]
  · rintro k ⟨hk, hc⟩
    refine Nat.le_of_not_lt fun hlt => htag ?_
    rw [List.getElem?_append_right (by omega), List.getElem?_append_left (by omega)] at hc
    exact List.mem_of_getElem? hc

/-- **The search for the beginning** settles on the place that its definition says. -/
theorem beginsAt_bareStart (before : Text) :
    ∃ first, IsLeast {k | Bare before k} first ∧ BeginsAt before first (bareStart before) := by
  obtain ⟨front, run, rfl, he, hrun, hfront⟩ := exists_last_run (fun c => !isOutside c) before
  have hrun' : ∀ c ∈ run, isOutside c = false := fun c hc => by simpa using hrun c hc
  have hfront' : ∀ c, front.getLast? = some c → isOutside c = true := fun c hc => by simpa using hfront c hc
  refine ⟨front.length, isLeast_bare hrun' hfront', ?_⟩
  unfold BeginsAt bareStart
  rw [he]
  dsimp only
  rw [List.length_append, Nat.add_sub_cancel, List.drop_left]
  by_cases htag : 0 < front.length ∧ (front ++ run)[front.length - 1]? = some '<' ∧ '>' ∈ run
  · rw [if_pos htag, if_pos (by simpa [and_assoc] using htag)]
    exact isLeast_behind_tag htag.2.2
  · rw [if_neg htag, if_neg (by simpa [and_assoc] using htag)]

/-! ## Both -/

/-- Behind a marker there is always something to be located. -/
theorem locate?_marked (line : Text) (pos : Nat) (lead : Text) :
    let before := line.take pos
    locate? line pos (some lead) = (lastLead? lead before (before.length - lead.length)).map fun start =>
      ⟨before.drop (start + lead.length), start, before.length, start + lead.length⟩ := by
  intro before
  unfold locate?
  dsimp only
  cases h : lastLead? lead before (before.length - lead.length) with
  | none => rw [Option.bind_none, Option.map_none]
  | some start => rw [Option.bind_some, Option.map_some, if_pos (isGreatest_lastLead? h).1.1]

theorem locate?_bare (line : Text) (pos : Nat) :
    let before := line.take pos
    locate? line pos none = if bareStart before < before.length then
      some ⟨before.drop (bareStart before), bareStart before, before.length, bareStart before⟩ else none := rfl

/-- **What is located left of an offset** is the text from the last place with the marker, or from the first place
without one; and it is located just if there is such a place and something between it and the offset. -/
theorem locate?_extreme (line : Text) (pos : Nat) (lead : Option Text) :
    let before := line.take pos
    (∀ x, locate? line pos lead = some x → x.stop = min pos line.length ∧ x.start ≤ x.location ∧ x.location < x.stop ∧
      x.text = line.slice x.location x.stop) ∧
    match lead with
    | some lead =>
      ((locate? line pos (some lead)).isSome ↔ ∃ start, Leads lead before start) ∧
      ∀ x, locate? line pos (some lead) = some x →
        IsGreatest {start | Leads lead before start} x.start ∧ x.location = x.start + lead.length
    | none => ∃ first start, IsLeast {k | Bare before k} first ∧ BeginsAt before first start ∧
      ((locate? line pos none).isSome ↔ start < before.length) ∧
      ∀ x, locate? line pos none = some x → x.start = start ∧ x.location = start := by
  intro before
  constructor
  · intro x hx
    obtain ⟨start, hlt, rfl⟩ := locate?_eq_some hx
    refine ⟨List.length_take, Nat.le_add_right _ _, hlt, ?_⟩
    unfold Text.slice
    rw [List.length_take, ← List.take_eq_take_min]
  cases lead with
  | some lead =>
    dsimp only
    rw [locate?_marked]
    constructor
    · rw [Option.isSome_map, Option.isSome_iff_exists]
      constructor
      · rintro ⟨start, h⟩
        exact ⟨start, (isGreatest_lastLead? h).1⟩
      · rintro ⟨start, h⟩
        obtain ⟨last, hlast, -⟩ := h.le_lastLead?
        exact ⟨last, hlast⟩
    · intro x hx
      obtain ⟨start, h, rfl⟩ := Option.map_eq_some_iff.1 hx
      exact ⟨isGreatest_lastLead? h, rfl⟩
  | none =>
    obtain ⟨first, hfirst, hb⟩ := beginsAt_bareStart before
    refine ⟨first, bareStart before, hfirst, hb, ?_⟩
    rw [locate?_bare]
    split
    · next hlt =>
      refine ⟨iff_of_true rfl hlt, fun x hx => ?_⟩
      cases hx
      exact ⟨rfl, rfl⟩
    · next hlt => exact ⟨iff_of_false (by decide) hlt, nofun⟩

/-- Behind a tag that has just been left. -/
example : locate? "b <p>ul>li c".toList 10 none = some ⟨"ul>li".toList, 5, 10, 5⟩ := by decide +kernel

end Shorthand.Abbreviation
