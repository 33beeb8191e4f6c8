import Mathlib.Data.List.Chain
import Shorthand.Proofs.Snippet.Stops
/-!
# Snippets written from templates

A template is what a snippet is meant to say: literal texts and tab stops with their placeholders, one behind the other.
`Template.write` is the snippet that says it, every dollar of a literal being escaped.  Flattening the snippet gives the
texts and the placeholders unchanged, and the caret goes to the stop that is visited first (`flatten_write`).

Reading goes segment by segment: `pieces_escapeDollars` and `pieces_writeStop` tell what a literal and a stop are read
as in front of anything that may follow them.
-/
namespace Shorthand.Snippet

open Text (decimal digitsOf decimal_digitsOf isDigit_of_mem_digitsOf)

/-! ## Writing -/

/-- `t` as a literal text of a snippet. -/
def escapeDollars : Text → Text
  | [] => []
  | c :: t => if c = '$' then '\\' :: '$' :: escapeDollars t else c :: escapeDollars t

/-- A tab stop; a placeholder that is empty is left out. -/
def writeStop (number : Nat) (placeholder : Text) : Text :=
  '$' :: '\x7b' :: (digitsOf number ++ ((if placeholder = [] then [] else ':' :: placeholder) ++ ['\x7d']))

/-- The closing braces of a text are for the `depth` braces open before it and for those it opens itself, and close all
of them. -/
def closesBraces : Nat → Text → Bool
  | depth, [] => depth = 0
  | depth, c :: t => (c ≠ '\x7d' || 0 < depth) && closesBraces (deepen depth c) t

/-- A part of a template: a text that stands for itself, or a tab stop around a placeholder. -/
inductive Segment where
  | literal (text : Text) (nonempty : text ≠ [])
  | stop (number : Nat) (placeholder : Text) (numbered : number < maxOffset)
      (closed : closesBraces 0 placeholder = true)

namespace Segment

def write : Segment → Text
  | .literal text _ => escapeDollars text
  | .stop number placeholder _ _ => writeStop number placeholder

/-- What the segment leaves behind. -/
def text : Segment → Text
  | .literal text _ => text
  | .stop _ placeholder _ _ => placeholder

/-- The number of a tab stop. -/
def number? : Segment → Option Nat
  | .literal _ _ => none
  | .stop number _ _ _ => some number

/-- The segment ends in a backslash, which would escape the dollar of a tab stop behind it. -/
def Escapes : Segment → Prop
  | .literal text _ => text.getLast? = some '\\'
  | .stop _ _ _ _ => False

instance : DecidablePred Escapes
  | .literal text _ => inferInstanceAs (Decidable (text.getLast? = some '\\'))
  | .stop _ _ _ _ => inferInstanceAs (Decidable False)

/-- What the segment is read as. -/
def pieces : Segment → List Piece
  | .literal text _ => text.map .char
  | .stop number placeholder _ _ => .stop number :: placeholder.map .char

end Segment

/-- **What a snippet is meant to say**: segments, none of which escapes a tab stop behind it. -/
structure Template where
  segments : List Segment
  apart : segments.IsChain fun s s' => s.Escapes → s'.number? = none

def Template.write (t : Template) : Text := t.segments.flatMap Segment.write

/-- What segments leave behind. -/
def textOfSegments (segments : List Segment) : Text := segments.flatMap Segment.text

/-- The numbers of the stops among segments. -/
def numbersOf (segments : List Segment) : List Nat := segments.filterMap Segment.number?

/-- **The stop numbered `m` is visited before the one numbered `n`**: the least number first, and zero last of all. -/
def Precedes (m n : Nat) : Prop := m ≠ 0 ∧ (n = 0 ∨ m < n)

instance (m n : Nat) : Decidable (Precedes m n) := inferInstanceAs (Decidable (m ≠ 0 ∧ (n = 0 ∨ m < n)))

/-! ## Reading what is written -/

theorem pieces_cons {c : Char} {t : Text} (hd : c ≠ '$') (hb : c = '\\' → t.head? ≠ some '$') :
    pieces (c :: t) = .char c :: pieces t := by
  have he : ¬(c = '\\' ∧ t.head? = some '$') := fun h => hb h.1 h.2
  simp [pieces, piecesFrom, hd, he]

theorem head?_escapeDollars_append {t rest : Text} (h : (escapeDollars t ++ rest).head? = some '$') :
    t = [] ∧ rest.head? = some '$' := by
  cases t with
  | nil => exact ⟨rfl, h⟩
  | cons c t =>
    unfold escapeDollars at h
    split at h
    · cases h
    · next hc => exact absurd (Option.some.inj h) hc

/-- **A literal is read as its chars**, unless it ends in a backslash that escapes a dollar behind it. -/
theorem pieces_escapeDollars {t rest : Text} (h : t.getLast? = some '\\' → rest.head? ≠ some '$') :
    pieces (escapeDollars t ++ rest) = t.map .char ++ pieces rest := by
  induction t with
  | nil => rfl
  | cons c t ih =>
    have hlast : t.getLast? = some '\\' → rest.head? ≠ some '$' := by
      intro ht
      cases t with
      | nil => cases ht
      | cons d t => exact h (by rwa [List.getLast?_cons_cons])
    unfold escapeDollars
    split
    · next hc =>
      subst hc
      have hd : pieces ('\\' :: '$' :: (escapeDollars t ++ rest)) = .char '$' :: pieces (escapeDollars t ++ rest) := rfl
      rw [ih hlast] at hd
      exact hd
    · next hc =>
      rw [List.cons_append, pieces_cons hc, ih hlast]
      · rfl
      · intro hb hd
        obtain ⟨rfl, hd⟩ := head?_escapeDollars_append hd
        exact h (by rw [hb]; rfl) hd

theorem piecesFrom_digits {digits : Text} (h : ∀ c ∈ digits, c.isDigit = true) (depth : Nat) (rest : Text) :
    piecesFrom (.inside true depth) (digits ++ rest) = piecesFrom (.inside true depth) rest := by
  induction digits with
  | nil => rfl
  | cons c digits ih =>
    have hc : c.isDigit = true := h c List.mem_cons_self
    rw [← ih fun d hd => h d (List.mem_cons_of_mem c hd)]
    simp [piecesFrom, hc]

theorem numberAt_digitsOf {rest : Text} (hr : ∀ c ∈ rest.head?, c.isDigit = false) (number : Nat) :
    numberAt (digitsOf number ++ rest) = min maxOffset number := by
  unfold numberAt
  rw [List.takeWhile_append_of_pos fun _ hc => isDigit_of_mem_digitsOf hc]
  cases rest with
  | nil => simp [decimal_digitsOf]
  | cons c rest =>
    have hc : c.isDigit = false := hr c rfl
    simp [hc, decimal_digitsOf]

/-- A placeholder is read up to the brace that closes the stop around it. -/
theorem piecesFrom_placeholder {depth : Nat} {placeholder : Text} (h : closesBraces depth placeholder = true)
    (rest : Text) : piecesFrom (.inside false (depth + 1)) (placeholder ++ '\x7d' :: rest) =
      placeholder.map .char ++ pieces rest := by
  induction placeholder generalizing depth with
  | nil =>
    have hd : depth = 0 := of_decide_eq_true h
    subst hd
    rfl
  | cons c placeholder ih =>
    unfold closesBraces at h
    obtain ⟨hc, h⟩ := Bool.and_eq_true_iff.1 h
    have hdepth : deepen (depth + 1) c = deepen depth c + 1 := by
      simp only [Bool.or_eq_true, decide_eq_true_eq] at hc
      unfold deepen
      split
      · rfl
      · split
        · next hb =>
          have hpos : 0 < depth := hc.resolve_left fun hn => hn hb
          omega
        · rfl
    have hopen : ¬(c = '\x7d' ∧ depth + 1 ≤ 1) := by
      rintro ⟨rfl, hd⟩
      simp only [ne_eq, not_true_eq_false, decide_false, Bool.false_or, decide_eq_true_eq] at hc
      omega
    rw [List.cons_append, List.map_cons, List.cons_append, ← ih h, ← hdepth]
    simp only [piecesFrom, Bool.false_and, Bool.false_eq_true, if_false, Bool.and_eq_true, decide_eq_true_eq, hopen]

/-- **A tab stop is read as its number**, the greatest one standing for all beyond it, and its placeholder. -/
theorem pieces_writeStop {placeholder : Text} (h : closesBraces 0 placeholder = true) (number : Nat) (rest : Text) :
    pieces (writeStop number placeholder ++ rest) =
      .stop (min maxOffset number) :: (placeholder.map .char ++ pieces rest) := by
  have hdigit : ∀ c ∈ digitsOf number, c.isDigit = true := fun _ hc => isDigit_of_mem_digitsOf hc
  -- what follows the digits is the brace that closes the stop, or the colon in front of the placeholder
  have hread {behind : Text} (hb : ∀ c ∈ behind.head?, c.isDigit = false) :
      pieces ('$' :: '\x7b' :: (digitsOf number ++ behind)) =
        .stop (min maxOffset number) :: piecesFrom (.inside true 1) behind := by
    rw [← numberAt_digitsOf hb, ← piecesFrom_digits hdigit 1 behind]
    rfl
  unfold writeStop
  rw [List.cons_append, List.cons_append, List.append_assoc, List.append_assoc, hread]
  · by_cases hp : placeholder = []
    · subst hp
      rfl
    · rw [if_neg hp, ← piecesFrom_placeholder h rest]
      rfl
  · by_cases hp : placeholder = [] <;> simp [hp]

/-- **A template is read segment by segment.** -/
theorem pieces_write (t : Template) : pieces t.write = t.segments.flatMap Segment.pieces := by
  obtain ⟨segments, apart⟩ := t
  unfold Template.write
  dsimp only
  induction segments with
  | nil => rfl
  | cons s segments ih =>
    rw [List.isChain_cons] at apart
    obtain ⟨hs, happart⟩ := apart
    rw [List.flatMap_cons, List.flatMap_cons, ← ih happart]
    cases s with
    | literal text nonempty =>
      refine pieces_escapeDollars fun hb => ?_
      -- behind a backslash there is another literal, or nothing
      cases segments with
      | nil => simp
      | cons s' segments =>
        have hn : s'.number? = none := hs s' rfl hb
        cases s' with
        | stop => cases hn
        | literal text' nonempty' =>
          rw [List.flatMap_cons]
          exact fun hd => nonempty' (head?_escapeDollars_append hd).1
    | stop number placeholder numbered closed =>
      have hm : min maxOffset number = number := Nat.min_eq_right (Nat.le_of_lt numbered)
      have hr := pieces_writeStop closed number (segments.flatMap Segment.write)
      rw [hm] at hr
      exact hr

theorem textOf_map_char_append (t : Text) (ps : List Piece) : textOf (t.map .char ++ ps) = t ++ textOf ps := by
  induction t with
  | nil => rfl
  | cons c t ih =>
    rw [List.cons_append, ← ih]
    rfl

theorem textOf_segments (segments : List Segment) :
    textOf (segments.flatMap Segment.pieces) = textOfSegments segments := by
  unfold textOfSegments
  induction segments with
  | nil => rfl
  | cons s segments ih =>
    rw [List.flatMap_cons, List.flatMap_cons, ← ih]
    cases s with
    | literal text _ => exact textOf_map_char_append text _
    | stop _ placeholder _ _ => exact textOf_map_char_append placeholder _

/-! ## The stops of a template -/

/-- The number and the offset of each stop of segments that follow `offset` chars. -/
def stopsOf : Nat → List Segment → List (Nat × Nat)
  | _, [] => []
  | offset, .literal text _ :: segments => stopsOf (offset + text.length) segments
  | offset, .stop number placeholder _ _ :: segments =>
    (number, offset) :: stopsOf (offset + placeholder.length) segments

theorem stopsFrom_map_char_append (t : Text) (offset : Nat) (ps : List Piece) :
    stopsFrom offset (t.map .char ++ ps) = stopsFrom (offset + t.length) ps := by
  induction t generalizing offset with
  | nil => rfl
  | cons c t ih =>
    have ih := ih (offset + 1)
    rw [Nat.add_right_comm, Nat.add_assoc] at ih
    exact ih

theorem stopsFrom_segments (offset : Nat) (segments : List Segment) :
    stopsFrom offset (segments.flatMap Segment.pieces) = (stopsOf offset segments).map fun s => (rank s.1, s.2) := by
  induction segments generalizing offset with
  | nil => rfl
  | cons s segments ih =>
    rw [List.flatMap_cons]
    cases s with
    | literal text _ => exact (stopsFrom_map_char_append text offset _).trans (ih _)
    | stop number placeholder _ _ =>
      have hp := (stopsFrom_map_char_append placeholder offset _).trans (ih _)
      exact congrArg ((rank number, offset) :: ·) hp

theorem map_fst_stopsOf (offset : Nat) (segments : List Segment) :
    (stopsOf offset segments).map Prod.fst = numbersOf segments := by
  induction segments generalizing offset with
  | nil => rfl
  | cons s segments ih =>
    cases s with
    | literal text _ => exact ih _
    | stop number _ _ _ => exact congrArg (number :: ·) (ih _)

theorem length_textOfSegments_cons (s : Segment) (segments : List Segment) :
    (textOfSegments (s :: segments)).length = s.text.length + (textOfSegments segments).length := by
  simp [textOfSegments]

theorem stopsOf_cons_stop {s : Segment} {number : Nat} (h : s.number? = some number) (offset : Nat)
    (segments : List Segment) :
    stopsOf offset (s :: segments) = (number, offset) :: stopsOf (offset + s.text.length) segments := by
  cases s with
  | literal => cases h
  | stop =>
    cases h
    rfl

theorem stopsOf_append (offset : Nat) (before rest : List Segment) :
    stopsOf offset (before ++ rest) =
      stopsOf offset before ++ stopsOf (offset + (textOfSegments before).length) rest := by
  induction before generalizing offset with
  | nil => rfl
  | cons s before ih =>
    rw [length_textOfSegments_cons, ← Nat.add_assoc]
    cases s with
    | literal text _ => exact ih _
    | stop number placeholder _ _ => exact congrArg ((number, offset) :: ·) (ih _)

/-- A stop of a template belongs to one of its segments. -/
theorem exists_of_stopsOf_eq {offset number pos : Nat} {segments : List Segment} {xs ys : List (Nat × Nat)}
    (h : stopsOf offset segments = xs ++ (number, pos) :: ys) :
    ∃ before s behind, segments = before ++ s :: behind ∧ s.number? = some number ∧
      pos = offset + (textOfSegments before).length ∧ xs = stopsOf offset before ∧ ∃ o, ys = stopsOf o behind := by
  induction segments generalizing offset xs with
  | nil => simp [stopsOf] at h
  | cons s segments ih =>
    cases s with
    | literal text nonempty =>
      obtain ⟨before, s, behind, rfl, hn, rfl, hx, hy⟩ := ih h
      exact ⟨.literal text nonempty :: before, s, behind, rfl, hn,
        by rw [length_textOfSegments_cons, Nat.add_assoc]; rfl, hx, hy⟩
    | stop m placeholder numbered closed =>
      cases xs with
      | nil =>
        cases h
        exact ⟨[], .stop number placeholder numbered closed, segments, rfl, rfl, rfl, rfl, _, rfl⟩
      | cons x xs =>
        obtain ⟨rfl, hs⟩ := List.cons.inj h
        obtain ⟨before, s, behind, rfl, hn, rfl, rfl, hy⟩ := ih hs
        exact ⟨.stop m placeholder numbered closed :: before, s, behind, rfl, hn,
          by rw [length_textOfSegments_cons, Nat.add_assoc]; rfl, rfl, hy⟩

theorem forall_stopsOf {P : Nat → Prop} {offset : Nat} {segments : List Segment} :
    (∀ s ∈ (stopsOf offset segments).map fun s => (rank s.1, s.2), P s.1) ↔ ∀ m ∈ numbersOf segments, P (rank m) := by
  rw [← map_fst_stopsOf offset, List.forall_mem_map, List.forall_mem_map]

theorem rank_lt_rank_iff {m n : Nat} (hm : m < maxOffset) (hn : n < maxOffset) : rank m < rank n ↔ Precedes m n := by
  unfold rank Precedes
  split <;> split <;> omega

theorem Segment.number?_lt {s : Segment} {number : Nat} (h : s.number? = some number) : number < maxOffset := by
  cases s with
  | literal => cases h
  | stop m _ numbered _ =>
    cases h
    exact numbered

theorem lt_of_mem_numbersOf {segments : List Segment} {number : Nat} (h : number ∈ numbersOf segments) :
    number < maxOffset := by
  obtain ⟨s, -, hs⟩ := List.mem_filterMap.1 h
  exact s.number?_lt hs

/-- **Flattening what is written gives back what was meant**: the literals and the placeholders as they are, and for the
caret the place of the stop that is visited first, which of several with the same number is the first. -/
theorem flatten_write (t : Template) :
    (flatten t.write).text = textOfSegments t.segments ∧
    ((flatten t.write).caret = none ↔ numbersOf t.segments = []) ∧
    ∀ pos, (flatten t.write).caret = some pos ↔ ∃ before s number behind, t.segments = before ++ s :: behind ∧
      s.number? = some number ∧ pos = (textOfSegments before).length ∧
      (∀ m ∈ numbersOf before, Precedes number m) ∧ ∀ m ∈ numbersOf behind, ¬Precedes m number := by
  have hc : (flatten t.write).caret =
      (firstStop ((stopsOf 0 t.segments).map fun s => (rank s.1, s.2))).map Prod.snd := by
    unfold flatten
    rw [pieces_write, stopsFrom_segments]
  refine ⟨?_, ?_, fun pos => ?_⟩
  · unfold flatten
    rw [pieces_write, textOf_segments]
  · rw [hc, Option.map_eq_none_iff, firstStop_eq_none_iff, List.map_eq_nil_iff, ← map_fst_stopsOf 0,
      List.map_eq_nil_iff]
  · rw [hc, Option.map_eq_some_iff]
    constructor
    · rintro ⟨⟨r, p⟩, hf, rfl⟩
      obtain ⟨xs, ys, he, hx, hy⟩ := firstStop_eq_some_iff.1 hf
      obtain ⟨xs', rest, hsplit, rfl, hrest⟩ := List.map_eq_append_iff.1 he
      obtain ⟨⟨number, q⟩, ys', rfl, hs, rfl⟩ := List.map_eq_cons_iff.1 hrest
      cases hs
      obtain ⟨before, s, behind, hseg, hn, hp, rfl, o, rfl⟩ := exists_of_stopsOf_eq hsplit
      have hnumber := s.number?_lt hn
      refine ⟨before, s, number, behind, hseg, hn, by rw [hp, Nat.zero_add], fun m hm => ?_, fun m hm hlt => ?_⟩
      · have hr : rank number < rank m := forall_stopsOf.1 hx m hm
        exact (rank_lt_rank_iff hnumber (lt_of_mem_numbersOf hm)).1 hr
      · have hr : rank number ≤ rank m := forall_stopsOf.1 hy m hm
        exact Nat.not_lt.2 hr ((rank_lt_rank_iff (lt_of_mem_numbersOf hm) hnumber).2 hlt)
    · rintro ⟨before, s, number, behind, he, hn, rfl, hb, ha⟩
      have hnumber := s.number?_lt hn
      have hs : stopsOf 0 t.segments = stopsOf 0 before ++ (number, (textOfSegments before).length) ::
          stopsOf ((textOfSegments before).length + s.text.length) behind := by
        rw [he, stopsOf_append, stopsOf_cons_stop hn, Nat.zero_add]
      refine ⟨(rank number, (textOfSegments before).length), ?_, rfl⟩
      rw [hs, List.map_append, List.map_cons]
      refine firstStop_eq_some_iff.2 ⟨_, _, rfl, ?_, ?_⟩
      · exact forall_stopsOf.2 fun m hm => (rank_lt_rank_iff hnumber (lt_of_mem_numbersOf hm)).2 (hb m hm)
      · exact forall_stopsOf.2 fun m hm => Nat.not_lt.1 fun hlt =>
          ha m hm ((rank_lt_rank_iff (lt_of_mem_numbersOf hm) hnumber).1 hlt)

/-- An escaped dollar, a backslash in front of another literal, braces in placeholders, and two stops numbered 1 behind
the last and the second one: the caret goes to the first of the two. -/
theorem flatten_write_first_of_two :
    let before : List Segment := [.literal "a$".toList (by decide), .stop 0 "\x7bb\x7d".toList (by decide) rfl,
      .literal "c\\".toList (by decide), .literal "$d".toList (by decide), .stop 2 [] (by decide) rfl]
    let first : Segment := .stop 1 "e\x7bf\x7bg\x7d\x7d".toList (by decide) rfl
    let behind : List Segment := [.literal "h".toList (by decide), .stop 1 "i".toList (by decide) rfl]
    ∃ t : Template, t.segments = before ++ first :: behind ∧
      t.write = "a\\$$\x7b0:\x7bb\x7d\x7dc\\\\$d$\x7b2\x7d$\x7b1:e\x7bf\x7bg\x7d\x7d\x7dh$\x7b1:i\x7d".toList ∧
      (flatten t.write).text = "a$\x7bb\x7dc\\$de\x7bf\x7bg\x7d\x7dhi".toList ∧ (flatten t.write).caret = some 9 := by
  intro before first behind
  let t : Template := ⟨before ++ first :: behind, by decide⟩
  obtain ⟨htext, -, hcaret⟩ := flatten_write t
  exact ⟨t, rfl, by decide, htext, (hcaret 9).2 ⟨before, first, 1, behind, rfl, rfl, rfl, by decide, by decide⟩⟩

end Shorthand.Snippet
