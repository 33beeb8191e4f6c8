import Shorthand.Proofs.Abbreviation.Reading
/-!
# How far a reader looks

No reader looks further than at the first char that it leaves: whatever stands behind that char, the reader takes the
same and comes to the same (`Nearsighted`).  One that ends where it stands, one that takes a run of chars and one that
takes a closer are so, and one that goes on where another has left off is if both are (`Nearsighted.andThen`); all
readers are made of these.  So an error stays what it is and where it is, whatever the text behind it is replaced by
(`read_error_stays`).
-/
namespace Shorthand.Abbreviation

open Text (decimal)

variable {α β : Type} {f g : Nat → Text → Reads α} {s u left : Text} {c : Char}

/-! ## Looking at one char -/

/-- What a reader gives that comes to a thing or to a complaint and leaves `left`. -/
def ended : Except Complaint α → Text → Reads α
  | .ok a, left => .ok (a, left)
  | .error complaint, left => .error ⟨complaint, left⟩

/-- **The reader takes a part of `s` and looks at no more than the first char that it leaves**, as long as its bound is
not less than what it is given. -/
def Nearsighted (f : Nat → Text → Reads α) (s : Text) : Prop :=
  ∃ taken left outcome, s = taken ++ left ∧ ∀ left', left'.head? = left.head? → ∀ bound,
    (taken ++ left').length ≤ bound → f bound (taken ++ left') = ended outcome left'

theorem nearsighted_ended (outcome : Except Complaint α) (s : Text) : Nearsighted (fun _ s => ended outcome s) s :=
  ⟨[], s, outcome, rfl, fun _ _ _ _ => rfl⟩

theorem nearsighted_run (p : Char → Bool) (k : Text → α) (s : Text) :
    Nearsighted (fun _ s => .ok (k (s.takeWhile p), s.dropWhile p)) s := by
  obtain ⟨run, left, rfl, hp, -, hd⟩ := exists_run p s
  refine ⟨run, left, .ok (k run), rfl, fun left' hl _ _ => ?_⟩
  have hend : ∀ c ∈ left'.head?, p c = false := by
    intro c hc
    have hn := List.head?_dropWhile_not p (run ++ left)
    rw [hd, ← hl, Option.mem_def.1 hc] at hn
    simpa using hn
  dsimp only
  rw [takeWhile_run hp hend, dropWhile_run hp hend]
  rfl

namespace Nearsighted

/-- It is enough to know the reader on the texts that begin as `s` does. -/
theorem congr (hg : Nearsighted g s)
    (he : ∀ bound t, t.head? = s.head? → t.length ≤ bound → f bound t = g bound t) : Nearsighted f s := by
  obtain ⟨taken, left, outcome, rfl, hg⟩ := hg
  refine ⟨taken, left, outcome, rfl, fun left' hl bound hb => ?_⟩
  have hh : (taken ++ left').head? = (taken ++ left).head? := by rw [List.head?_append, List.head?_append, hl]
  rw [he bound _ hh hb, hg left' hl bound hb]

theorem congr_cons (hg : Nearsighted g (c :: s))
    (he : ∀ bound u, u.length ≤ bound → f (bound + 1) (c :: u) = g (bound + 1) (c :: u)) : Nearsighted f (c :: s) := by
  refine hg.congr fun bound t ht hb => ?_
  obtain ⟨u, rfl⟩ := List.head?_eq_some_iff.1 ht
  cases bound with
  | zero => simp at hb
  | succ bound => exact he bound u (Nat.le_of_succ_le_succ hb)

/-- A reader that takes one char and goes on as another one, with one less for its bound. -/
theorem cons {f : Nat → Text → Reads α} (hf : Nearsighted f s)
    (he : ∀ bound u, u.length ≤ bound → g (bound + 1) (c :: u) = f bound u) : Nearsighted g (c :: s) := by
  obtain ⟨taken, left, outcome, rfl, hf⟩ := hf
  refine ⟨c :: taken, left, outcome, rfl, fun left' hl bound hb => ?_⟩
  cases bound with
  | zero => simp at hb
  | succ bound =>
    have hb := Nat.le_of_succ_le_succ hb
    exact (he bound _ hb).trans (hf left' hl bound hb)

/-- At the end of the text there is nothing to look at. -/
theorem of_nil (outcome : Except Complaint α) (h : ∀ bound, f bound [] = ended outcome []) : Nearsighted f [] := by
  refine ⟨[], [], outcome, rfl, fun left' hl bound _ => ?_⟩
  rw [List.head?_eq_none_iff.1 hl]
  exact h bound

theorem succ (hf : Nearsighted f s) : Nearsighted (fun bound => f (bound + 1)) s := by
  obtain ⟨taken, left, outcome, rfl, hf⟩ := hf
  exact ⟨taken, left, outcome, rfl, fun left' hl bound hb => hf left' hl (bound + 1) (Nat.le_succ_of_le hb)⟩

/-- With all that it is given for its bound. -/
theorem exact (hf : Nearsighted f s) : Nearsighted (fun _ s => f s.length s) s := by
  obtain ⟨taken, left, outcome, rfl, hf⟩ := hf
  exact ⟨taken, left, outcome, rfl, fun left' hl _ _ => hf left' hl _ (Nat.le_refl _)⟩

/-- The bound does not matter. -/
theorem bound_eq (hf : Nearsighted f s) {bound bound' : Nat} (hb : s.length ≤ bound) (hb' : s.length ≤ bound') :
    f bound s = f bound' s := by
  obtain ⟨taken, left, outcome, rfl, hf⟩ := hf
  rw [hf left rfl bound hb, hf left rfl bound' hb']

theorem length_le (hf : Nearsighted f s) {bound : Nat} (hb : s.length ≤ bound) {read : α × Text}
    (h : f bound s = .ok read) : read.2.length ≤ s.length := by
  obtain ⟨taken, left, outcome, rfl, hf⟩ := hf
  rw [hf left rfl bound hb] at h
  cases outcome with
  | error complaint => cases h
  | ok a =>
    cases h
    simp

/-- **A reader that goes on where another has left off.** -/
theorem andThen {g : α → Nat → Text → Reads β} (hf : Nearsighted f s)
    (hg : ∀ a left, left.length ≤ s.length → Nearsighted (g a) left) :
    Nearsighted (fun bound s =>
      match f bound s with
      | .error stuck => .error stuck
      | .ok (a, left) => g a bound left) s := by
  obtain ⟨taken, left, outcome, rfl, hf⟩ := hf
  cases outcome with
  | error complaint =>
    refine ⟨taken, left, .error complaint, rfl, fun left' hl bound hb => ?_⟩
    dsimp only
    rw [hf left' hl bound hb]
    rfl
  | ok a =>
    obtain ⟨taken', left, outcome, rfl, hg'⟩ := hg a left (by simp)
    refine ⟨taken ++ taken', left, outcome, (List.append_assoc _ _ _).symm, fun left' hl bound hb => ?_⟩
    have hh : (taken' ++ left').head? = (taken' ++ left).head? := by rw [List.head?_append, List.head?_append, hl]
    rw [List.append_assoc] at hb ⊢
    have hb' : (taken' ++ left').length ≤ bound := by
      rw [List.length_append] at hb
      omega
    dsimp only
    rw [hf _ hh bound hb]
    exact hg' left' hl bound hb'

theorem map (hf : Nearsighted f s) (k : α → β) :
    Nearsighted (fun bound s =>
      match f bound s with
      | .error stuck => .error stuck
      | .ok (a, left) => .ok (k a, left)) s :=
  hf.andThen fun a left _ => nearsighted_ended (.ok (k a)) left

end Nearsighted

/-! ## Attributes -/

/-- Reads the char that closes a part. -/
def readCloser (closer : Char) (part : Part) (a : α) : Text → Reads α
  | [] => .error ⟨.unclosed part, []⟩
  | c :: left => if c = closer then .ok (a, left) else .error ⟨.unclosed part, left⟩

theorem readCloser_of_ne {closer : Char} {part : Part} {a : α} (hs : ∀ left, s ≠ closer :: left) :
    readCloser closer part a s = .error ⟨.unclosed part, s.tail⟩ := by
  cases s with
  | nil => rfl
  | cons c s => exact if_neg fun hc : c = closer => hs s (hc ▸ rfl)

theorem nearsighted_readCloser (closer : Char) (part : Part) (a : α) (s : Text) :
    Nearsighted (fun _ => readCloser closer part a) s := by
  cases s with
  | nil => exact .of_nil (.error (.unclosed part)) fun _ => rfl
  | cons c s =>
    by_cases hc : c = closer
    · exact (nearsighted_ended (.ok a) s).cons fun _ u _ => if_pos hc
    · exact (nearsighted_ended (.error (.unclosed part)) s).cons fun _ u _ => if_neg hc

theorem nearsighted_readValue (s : Text) : Nearsighted (fun _ => readValue) s := by
  cases s with
  | nil => exact .of_nil (.ok []) fun _ => rfl
  | cons q s =>
    by_cases hq : (q = '"' || q = '\'') = true
    · have hclosed := (nearsighted_run (fun c => c != q && c != '\n') id s).andThen fun value left _ =>
        nearsighted_readCloser q .attributeValue value left
      refine hclosed.cons fun _ u _ => ?_
      unfold readValue readCloser
      dsimp only
      rw [if_pos hq]
      rfl
    · refine (nearsighted_run isNameChar id (q :: s)).congr_cons fun _ u _ => ?_
      unfold readValue
      dsimp only
      rw [if_neg hq]
      rfl

theorem nearsighted_readValue? (s : Text) : Nearsighted (fun _ => readValue?) s := by
  cases s with
  | nil => exact .of_nil (.ok none) fun _ => rfl
  | cons c s =>
    by_cases hc : c = '='
    · subst hc
      refine ((nearsighted_readValue s).map some).cons fun _ u _ => ?_
      rw [readValue?]
      rcases readValue u with stuck | ⟨value, left⟩ <;> rfl
    · refine (nearsighted_ended (.ok none) (c :: s)).congr_cons fun _ u _ => ?_
      unfold readValue?
      split
      · next h => exact absurd (List.cons.inj h).1 hc
      · rfl

/-- Reads what comes behind an attribute. -/
def readNext (a : Attribute) (bound : Nat) (s : Text) : Reads (List Attribute) :=
  if s.head? = some ' ' || s.head? = some ']' then
    match readAttributes bound s with
    | .error stuck => .error stuck
    | .ok (more, left) => .ok (a :: more, left)
  else .error (.at s .attributeEnd)

theorem nearsighted_readNext (a : Attribute) (h : Nearsighted readAttributes s) : Nearsighted (readNext a) s := by
  by_cases hs : (s.head? = some ' ' || s.head? = some ']') = true
  · refine (h.map (a :: ·)).congr fun bound t ht _ => ?_
    unfold readNext
    rw [ht, if_pos hs]
    rcases readAttributes bound t with stuck | ⟨more, left⟩ <;> rfl
  · refine (nearsighted_ended (.error (.unmet .attributeEnd s.head?)) s).congr fun bound t ht _ => ?_
    unfold readNext Stuck.at
    rw [ht, if_neg hs]
    rfl

/-- A list of attributes goes on with one, which takes a char at least. -/
theorem readAttributes_of_name (hc : isNameChar c = true) (bound : Nat) (u : Text) :
    readAttributes (bound + 1) (c :: u) =
      match readValue? (afterName u) with
      | .error stuck => .error stuck
      | .ok (value, left) => readNext (c :: nameOf u, value) bound left := by
  have hspace : (c :: u).dropWhile (· = ' ') = c :: u :=
    List.dropWhile_cons_of_neg (by simpa using ne_of_isNameChar hc (by decide))
  have hname : nameOf (c :: u) = c :: nameOf u := List.takeWhile_cons_of_pos hc
  have hafter : afterName (c :: u) = afterName u := List.dropWhile_cons_of_pos hc
  unfold readAttributes
  rw [hspace]
  split
  · contradiction
  · next h =>
    cases h
    cases hc.symm.trans (by decide : isNameChar ']' = false)
  · rw [hname, hafter, if_neg (List.cons_ne_nil _ _)]
    rfl

theorem nearsighted_readAttributes (s : Text) : Nearsighted readAttributes s := by
  induction hn : s.length using Nat.strongRecOn generalizing s with
  | ind n ih =>
    subst hn
    cases s with
    | nil =>
      refine .of_nil (.error (.unclosed .attributeList)) fun bound => ?_
      cases bound <;> rfl
    | cons c s =>
      by_cases hspace : c = ' '
      · subst hspace
        exact (ih _ (Nat.lt_succ_self _) s rfl).succ.cons fun bound u _ => rfl
      by_cases hclose : c = ']'
      · subst hclose
        exact (nearsighted_ended (.ok []) s).cons fun bound u _ => rfl
      by_cases hname : isNameChar c = true
      · have hrest := (nearsighted_run isNameChar (c :: ·) s).andThen fun name left hl =>
          (nearsighted_readValue? left).andThen fun value left' hl' =>
            nearsighted_readNext (name, value) (ih _ (by simp only [List.length_cons]; omega) left' rfl)
        refine hrest.cons fun bound u _ => (readAttributes_of_name hname bound u).trans ?_
        unfold afterName
        dsimp only
        rcases readValue? (u.dropWhile isNameChar) with stuck | ⟨value, left⟩ <;> rfl
      · refine (nearsighted_ended (.error (.unmet .attributeName (some c))) (c :: s)).congr_cons fun bound u _ => ?_
        have hdrop : (c :: u).dropWhile (· = ' ') = c :: u := List.dropWhile_cons_of_neg (by simpa using hspace)
        have hn : nameOf (c :: u) = [] := List.takeWhile_cons_of_neg hname
        unfold readAttributes
        rw [hdrop]
        split
        · contradiction
        · next h => exact absurd (List.cons.inj h).1 hclose
        · rw [if_pos hn]
          rfl

/-! ## Elements -/

theorem nearsighted_readWaiting (need : Need) (s : Text) : Nearsighted (fun _ => readWaiting need) s := by
  cases s with
  | nil => exact .of_nil (.ok none) fun _ => rfl
  | cons c s =>
    by_cases hc : isNameChar c = true
    · refine (nearsighted_run isNameChar some (c :: s)).congr_cons fun _ u _ => ?_
      have hn : (c :: u).takeWhile isNameChar = c :: u.takeWhile isNameChar := List.takeWhile_cons_of_pos hc
      unfold readWaiting nameOf
      rw [hn]
      rfl
    · refine (nearsighted_ended (.error (.unmet need (some c))) (c :: s)).congr_cons fun _ u _ => ?_
      have hn : (c :: u).takeWhile isNameChar = [] := List.takeWhile_cons_of_neg hc
      unfold readWaiting nameOf
      rw [hn]
      rfl

theorem nearsighted_readText (s : Text) : Nearsighted (fun _ => readText) s := by
  have hclosed := (nearsighted_run (fun c => c != '\x7d' && c != '\n') id s).andThen fun text left _ =>
    nearsighted_readCloser '\x7d' .text text left
  refine hclosed.congr fun _ t _ _ => ?_
  unfold readText
  dsimp only
  split
  · next h =>
    rw [h]
    rfl
  · next hn => exact (readCloser_of_ne hn).symm

/-- `c` begins a part of an element. -/
def IsOpener (c : Char) : Prop := c = '.' ∨ c = '#' ∨ c = '[' ∨ c = '\x7b'

theorem readParts_of_not_isOpener (hc : ¬ IsOpener c) (bound : Nat) (e : Element) (u : Text) :
    readParts bound e (c :: u) = .ok (e, c :: u) := by
  simp only [IsOpener, not_or] at hc
  obtain ⟨h₁, h₂, h₃, h₄⟩ := hc
  cases bound with
  | zero => rfl
  | succ bound =>
    unfold readParts
    split
    · next h => exact absurd (List.cons.inj h).1 h₁
    · next h => exact absurd (List.cons.inj h).1 h₂
    · next h => exact absurd (List.cons.inj h).1 h₃
    · next h => exact absurd (List.cons.inj h).1 h₄
    · rfl

/-- Behind an opener the parts go on with what it opens, which takes the opener at least. -/
theorem exists_part (hc : IsOpener c) (e : Element) : ∃ f : Nat → Text → Reads Element,
    (∀ u, (∀ e left, left.length ≤ u.length → Nearsighted (fun bound => readParts bound e) left) → Nearsighted f u) ∧
      ∀ bound u, readParts (bound + 1) e (c :: u) = f bound u := by
  rcases hc with rfl | rfl | rfl | rfl
  · refine ⟨_, fun u more => (nearsighted_readWaiting .className u).andThen fun name? left hl =>
      more { e with classes := e.classes ++ name?.toList } left hl, fun bound u => ?_⟩
    rw [readParts]
    rcases readWaiting .className u with stuck | ⟨name?, left⟩ <;> rfl
  · refine ⟨_, fun u more => (nearsighted_readWaiting .id u).andThen fun name? left hl =>
      more { e with id := name?.or e.id } left hl, fun bound u => ?_⟩
    rw [readParts]
    rcases readWaiting .id u with stuck | ⟨name?, left⟩ <;> rfl
  · refine ⟨_, fun u more => (nearsighted_readAttributes u).exact.andThen fun attributes left hl =>
      more { e with attributes := e.attributes ++ attributes } left hl, fun bound u => ?_⟩
    rw [readParts]
    rcases readAttributes u.length u with stuck | ⟨attributes, left⟩ <;> rfl
  · refine ⟨_, fun u more => (nearsighted_readText u).andThen fun text left hl =>
      more { e with text := some text } left hl, fun bound u => ?_⟩
    rw [readParts]
    rcases readText u with stuck | ⟨text, left⟩ <;> rfl

theorem nearsighted_readParts (e : Element) (s : Text) : Nearsighted (fun bound => readParts bound e) s := by
  induction hn : s.length using Nat.strongRecOn generalizing e s with
  | ind n ih =>
    subst hn
    cases s with
    | nil => exact .of_nil (.ok e) fun bound => readParts_nil bound e
    | cons c s =>
      by_cases hc : IsOpener c
      · obtain ⟨f, hf, he⟩ := exists_part hc e
        have hs : Nearsighted f s := hf s fun e left hl => ih _ (Nat.lt_succ_of_le hl) e left rfl
        exact hs.cons fun bound u _ => he bound u
      · exact (nearsighted_ended (.ok e) (c :: s)).congr_cons fun bound u _ =>
          readParts_of_not_isOpener hc (bound + 1) e u

/-- An element that begins with an opener has no name, and takes something. -/
theorem readElement_of_isOpener (hc : IsOpener c) {bound : Nat} (hb : u.length ≤ bound) :
    readElement (c :: u) = readParts (bound + 1) { name := [] } (c :: u) := by
  have hn : isNameChar c = false := by rcases hc with rfl | rfl | rfl | rfl <;> decide
  have hname : nameOf (c :: u) = [] := List.takeWhile_cons_of_neg (by rw [hn]; exact Bool.false_ne_true)
  have hafter : afterName (c :: u) = c :: u := List.dropWhile_cons_of_neg (by rw [hn]; exact Bool.false_ne_true)
  obtain ⟨f, hf, he⟩ := exists_part hc { name := [] }
  have hf : Nearsighted f u := hf u fun e left _ => nearsighted_readParts e left
  have hu : readParts (c :: u).length { name := [] } (c :: u) = f u.length u := he u.length u
  unfold readElement
  rw [hname, hafter, hu, he bound u, hf.bound_eq hb (Nat.le_refl _)]
  cases hr : f u.length u with
  | error stuck => rfl
  | ok read =>
    have hl := hf.length_le (Nat.le_refl _) hr
    exact if_neg (by simp only [List.length_cons]; omega)

/-- An element that begins with a name takes something. -/
theorem readElement_of_name (hc : isNameChar c = true) {bound : Nat} (hb : u.length ≤ bound) :
    readElement (c :: u) = readParts bound { name := c :: nameOf u } (afterName u) := by
  have hname : nameOf (c :: u) = c :: nameOf u := List.takeWhile_cons_of_pos hc
  have hafter : afterName (c :: u) = afterName u := List.dropWhile_cons_of_pos hc
  have hle : (afterName u).length ≤ u.length := (List.dropWhile_sublist isNameChar (l := u)).length_le
  have hf := nearsighted_readParts { name := c :: nameOf u } (afterName u)
  have hb' : (afterName u).length ≤ (c :: u).length := Nat.le_succ_of_le hle
  unfold readElement
  rw [hname, hafter, hf.bound_eq hb' (Nat.le_trans hle hb)]
  cases hr : readParts bound { name := c :: nameOf u } (afterName u) with
  | error stuck => rfl
  | ok read =>
    -- the name has been taken, so that the element is not refused for taking nothing
    have hl := hf.length_le (Nat.le_trans hle hb) hr
    exact if_neg (by simp only [List.length_cons]; omega)

theorem nearsighted_readElement (s : Text) : Nearsighted (fun _ => readElement) s := by
  cases s with
  | nil => exact .of_nil (.error (.unmet .element none)) fun _ => rfl
  | cons c s =>
    by_cases hname : isNameChar c = true
    · have hparts := (nearsighted_run isNameChar (c :: ·) s).andThen fun name left _ =>
        nearsighted_readParts { name } left
      exact hparts.cons fun bound u hb => readElement_of_name hname hb
    by_cases hopen : IsOpener c
    · exact (nearsighted_readParts { name := [] } (c :: s)).congr_cons fun bound u hb =>
        readElement_of_isOpener hopen hb
    · refine (nearsighted_ended (.error (.unmet .element (some c))) (c :: s)).congr_cons fun bound u _ => ?_
      have hn : nameOf (c :: u) = [] := List.takeWhile_cons_of_neg hname
      have ha : afterName (c :: u) = c :: u := List.dropWhile_cons_of_neg hname
      unfold readElement
      rw [hn, ha, readParts_of_not_isOpener hopen]
      exact if_pos rfl

/-! ## Terms and chains -/

/-- Checks a count that has been read. -/
def readCounted (count : Nat) (s : Text) : Reads Nat :=
  if 0 < count && count ≤ maxOffset then .ok (count, s) else .error (.at s .count)

theorem nearsighted_readCounted (count : Nat) (s : Text) : Nearsighted (fun _ => readCounted count) s := by
  by_cases hc : (0 < count && count ≤ maxOffset) = true
  · exact (nearsighted_ended (.ok count) s).congr fun _ t _ _ => if_pos hc
  · refine (nearsighted_ended (.error (.unmet .count s.head?)) s).congr fun _ t ht _ => ?_
    unfold readCounted Stuck.at
    rw [if_neg hc, ht]
    rfl

theorem nearsighted_readCount (s : Text) : Nearsighted (fun _ => readCount) s := by
  cases s with
  | nil => exact .of_nil (.ok 1) fun _ => rfl
  | cons c s =>
    by_cases hc : c = '*'
    · subst hc
      have hcount := (nearsighted_run Char.isDigit decimal s).andThen fun count left _ =>
        nearsighted_readCounted count left
      exact hcount.cons fun _ u _ => rfl
    · refine (nearsighted_ended (.ok 1) (c :: s)).congr_cons fun _ u _ => ?_
      unfold readCount
      split
      · next h => exact absurd (List.cons.inj h).1 hc
      · rfl

/-- Reads a group, from behind its `(`, and its closer. -/
def readGroup (readInner : Text → Reads Chain) : Text → Reads (Nat → Node)
  | ')' :: left => .ok (fun count => .group [] count [], left)
  | s =>
    match readInner s with
    | .error stuck => .error stuck
    | .ok (chain, left) => readCloser ')' .group (fun count => .group chain.assemble count []) left

theorem readGroup_of_ne {readInner : Text → Reads Chain} (hs : ∀ left, s ≠ ')' :: left) :
    readGroup readInner s =
      match readInner s with
      | .error stuck => .error stuck
      | .ok (chain, left) => readCloser ')' .group (fun count => .group chain.assemble count []) left := by
  unfold readGroup
  split
  · next left => exact absurd rfl (hs left)
  · rfl

theorem nearsighted_readGroup (hs : Nearsighted readChain s) :
    Nearsighted (fun bound => readGroup (readChain bound)) s := by
  by_cases hc : s.head? = some ')'
  · obtain ⟨left, rfl⟩ := List.head?_eq_some_iff.1 hc
    exact (nearsighted_ended (.ok fun count => .group [] count []) left).cons fun _ u _ => rfl
  · have hclosed := hs.andThen fun chain left _ =>
      nearsighted_readCloser ')' .group (fun count => Node.group chain.assemble count []) left
    refine hclosed.congr fun bound t ht _ => (readGroup_of_ne ?_).trans ?_
    · rintro left rfl
      exact hc ht.symm
    · rcases readChain bound t with stuck | ⟨chain, left⟩ <;> rfl

/-- Reads a group or an element, without its count. -/
def readItem (readInner : Text → Reads Chain) : Text → Reads (Nat → Node)
  | '(' :: s => readGroup readInner s
  | s =>
    match readElement s with
    | .error stuck => .error stuck
    | .ok (e, left) => .ok (fun count => .element e count [], left)

theorem readItem_of_ne {readInner : Text → Reads Chain} (hs : ∀ left, s ≠ '(' :: left) :
    readItem readInner s =
      match readElement s with
      | .error stuck => .error stuck
      | .ok (e, left) => .ok (fun count => .element e count [], left) := by
  unfold readItem
  split
  · next left => exact absurd rfl (hs left)
  · rfl

theorem nearsighted_readItem (hs : ∀ u, u.length < s.length → Nearsighted readChain u) :
    Nearsighted (fun bound => readItem (readChain (bound - 1))) s := by
  by_cases hc : s.head? = some '('
  · obtain ⟨left, rfl⟩ := List.head?_eq_some_iff.1 hc
    exact (nearsighted_readGroup (hs left (Nat.lt_succ_self _))).cons fun _ u _ => rfl
  · have helement := (nearsighted_readElement s).map fun e count => Node.element e count []
    refine helement.congr fun bound t ht _ => (readItem_of_ne ?_).trans ?_
    · rintro left rfl
      exact hc ht.symm
    · rcases readElement t with stuck | ⟨e, left⟩ <;> rfl

/-- A term is what is read without its count, with its count. -/
theorem readTerm_eq (readInner : Text → Reads Chain) (s : Text) : readTerm readInner s =
    match readItem readInner s with
    | .error stuck => .error stuck
    | .ok (node, left) =>
      match readCount left with
      | .error stuck => .error stuck
      | .ok (count, left') => .ok (node count, left') := by
  unfold readTerm
  dsimp only
  congr 1
  split
  · rfl
  · next s hs =>
    refine Eq.trans ?_ (readGroup_of_ne hs).symm
    split
    · next h => rw [h]
    · next h =>
      rw [h]
      rfl
    · next hl h =>
      rw [h]
      exact (readCloser_of_ne hl).symm
  · next hs => exact (readItem_of_ne hs).symm

theorem nearsighted_readTerm (hs : ∀ u, u.length < s.length → Nearsighted readChain u) :
    Nearsighted (fun bound => readTerm (readChain (bound - 1))) s := by
  have hterm := (nearsighted_readItem hs).andThen fun node left _ => (nearsighted_readCount left).map node
  refine hterm.congr fun bound t _ _ => (readTerm_eq _ t).trans ?_
  rcases readItem (readChain (bound - 1)) t with stuck | ⟨node, left⟩
  · rfl
  · dsimp only
    rcases readCount left with stuck | ⟨count, left'⟩ <;> rfl

/-- Reads what comes behind a term and an operator. -/
def readMore (node : Node) (operator : Operator) (bound : Nat) (s : Text) : Reads Chain :=
  match readChain bound s with
  | .error stuck => .error stuck
  | .ok (chain, left) => .ok (⟨node, (operator, chain.first) :: chain.rest⟩, left)

theorem nearsighted_readMore (node : Node) (operator : Operator) (hs : Nearsighted readChain s) :
    Nearsighted (readMore node operator) s := by
  have hmore := hs.map fun chain => (⟨node, (operator, chain.first) :: chain.rest⟩ : Chain)
  refine hmore.congr fun bound t _ _ => ?_
  unfold readMore
  rcases readChain bound t with stuck | ⟨chain, left⟩ <;> rfl

/-- Reads what comes behind a term. -/
def readRest (node : Node) (bound : Nat) (s : Text) : Reads Chain :=
  match readOperator? s with
  | .error stuck => .error stuck
  | .ok (none, left) => .ok (⟨node, []⟩, left)
  | .ok (some operator, left) => readMore node operator bound left

theorem nearsighted_readRest (node : Node) (hs : ∀ u, u.length < s.length → Nearsighted readChain u) :
    Nearsighted (fun bound => readRest node (bound - 1)) s := by
  cases s with
  | nil => exact .of_nil (.ok ⟨node, []⟩) fun _ => rfl
  | cons c s =>
    have hmore (operator : Operator) {u : Text} (hu : u.length ≤ s.length) : Nearsighted (readMore node operator) u :=
      nearsighted_readMore node operator (hs u (Nat.lt_succ_of_le hu))
    by_cases hclose : c = ')'
    · subst hclose
      exact (nearsighted_ended (.ok ⟨node, []⟩) (')' :: s)).congr_cons fun _ u _ => rfl
    by_cases hplus : c = '+'
    · subst hplus
      exact (hmore .sibling (Nat.le_refl _)).cons fun _ u _ => rfl
    by_cases hin : c = '>'
    · subst hin
      exact (hmore .child (Nat.le_refl _)).cons fun _ u _ => rfl
    by_cases hup : c = '^'
    · subst hup
      have hclimb := (nearsighted_run (· = '^') (·.length + 1) s).andThen fun height left hl =>
        hmore (.climb height) hl
      exact hclimb.cons fun _ u _ => rfl
    · refine (nearsighted_ended (.error (.unmet .operator (some c))) (c :: s)).congr_cons fun _ u _ => ?_
      have hnone : readOperator? (c :: u) = .error (.at (c :: u) .operator) := by
        unfold readOperator?
        split
        · contradiction
        · next h => exact absurd (List.cons.inj h).1 hclose
        · next h => exact absurd (List.cons.inj h).1 hplus
        · next h => exact absurd (List.cons.inj h).1 hin
        · next h => exact absurd (List.cons.inj h).1 hup
        · rfl
      unfold readRest
      rw [hnone]
      rfl

theorem nearsighted_readChain (s : Text) : Nearsighted readChain s := by
  -- both a group and what comes behind an operator are read from a shorter text
  induction hn : s.length using Nat.strongRecOn generalizing s with
  | ind n ih =>
    subst hn
    have hs : ∀ u, u.length < s.length → Nearsighted readChain u := fun u hu => ih _ hu u rfl
    have hchain := (nearsighted_readTerm hs).andThen fun node left hl =>
      nearsighted_readRest node fun u hu => hs u (Nat.lt_of_lt_of_le hu hl)
    refine hchain.congr fun bound t _ hb => ?_
    cases bound with
    | zero =>
      rw [List.length_eq_zero_iff.1 (Nat.le_zero.1 hb)]
      rfl
    | succ bound =>
      rw [readChain, Nat.add_sub_cancel]
      rcases readTerm (readChain bound) t with stuck | ⟨node, left⟩ <;> rfl

/-! ## The whole abbreviation -/

/-- Checks that a chain ends with the text. -/
def readEnd (chain : Chain) : Text → Reads (List Node)
  | [] => .ok (chain.assemble, [])
  | c :: left => .error (.at (c :: left) .noCloser)

theorem nearsighted_readEnd (chain : Chain) (s : Text) : Nearsighted (fun _ => readEnd chain) s := by
  cases s with
  | nil => exact .of_nil (.ok chain.assemble) fun _ => rfl
  | cons c s => exact (nearsighted_ended (.error (.unmet .noCloser (some c))) (c :: s)).congr_cons fun _ _ _ => rfl

/-- Reads a chain and the end of the text. -/
def readWhole (s : Text) : Reads (List Node) :=
  match readChain s.length s with
  | .error stuck => .error stuck
  | .ok (chain, left) => readEnd chain left

theorem nearsighted_readWhole (s : Text) : Nearsighted (fun _ => readWhole) s := by
  have hwhole := (nearsighted_readChain s).exact.andThen fun chain left _ => nearsighted_readEnd chain left
  refine hwhole.congr fun _ t _ _ => ?_
  unfold readWhole
  rcases readChain t.length t with stuck | ⟨chain, left⟩ <;> rfl

/-- An error stands where the reader got stuck. -/
theorem read_eq (s : Text) : read s =
    match readWhole s with
    | .error stuck => .error ⟨stuck.complaint, s.length - stuck.left.length⟩
    | .ok (nodes, _) => .ok nodes := by
  unfold read readWhole
  rcases readChain s.length s with stuck | ⟨chain, left⟩
  · rfl
  · cases left <;> rfl

/-- A text is read by a part of it and the first char behind that part, if there is one. -/
theorem exists_taken (s : Text) : ∃ taken left, ∃ outcome : Except Complaint (List Node), s = taken ++ left ∧
    ∀ left', left'.head? = left.head? → read (taken ++ left') = outcome.mapError (⟨·, taken.length⟩) := by
  obtain ⟨taken, left, outcome, rfl, hs⟩ := nearsighted_readWhole s
  refine ⟨taken, left, outcome, rfl, fun left' hl => ?_⟩
  have hwhole : readWhole (taken ++ left') = ended outcome left' := hs left' hl _ (Nat.le_refl _)
  rw [read_eq, hwhole]
  cases outcome with
  | ok nodes => rfl
  | error complaint =>
    have hpos : (taken ++ left').length - left'.length = taken.length := by
      rw [List.length_append, Nat.add_sub_cancel]
    exact congrArg (fun pos => Except.error (ReadError.mk complaint pos)) hpos

/-- **An error stays what it is and where it is**, whatever the text behind it is replaced by. -/
theorem read_error_stays {a : Text} {e : ReadError} (h : read a = .error e) :
    e.pos ≤ a.length ∧
      ∀ b : Text, e.pos < a.length → b.take (e.pos + 1) = a.take (e.pos + 1) → read b = .error e := by
  obtain ⟨taken, left, outcome, rfl, hread⟩ := exists_taken a
  have ha := (hread left rfl).symm.trans h
  cases outcome with
  | ok nodes => cases ha
  | error complaint =>
    cases ha
    refine ⟨by simp, fun b hlt hb => ?_⟩
    cases left with
    | nil => simp at hlt
    | cons c left =>
      have htake : (taken ++ c :: left).take (taken.length + 1) = taken ++ [c] := by
        rw [List.append_cons]
        exact List.take_left' (by simp)
      have hsplit := List.take_append_drop (taken.length + 1) b
      rw [hb.trans htake, List.append_assoc] at hsplit
      rw [← hsplit]
      exact hread _ rfl

theorem read_error_stays_attributes :
    read "ul>li[a;b]>p".toList = .error ⟨.unmet .attributeEnd (some ';'), 7⟩ ∧
      read "ul>li[a;".toList = .error ⟨.unmet .attributeEnd (some ';'), 7⟩ :=
  have h : read "ul>li[a;b]>p".toList = .error ⟨.unmet .attributeEnd (some ';'), 7⟩ := rfl
  ⟨h, (read_error_stays h).2 "ul>li[a;".toList (by decide) (by decide)⟩

end Shorthand.Abbreviation
