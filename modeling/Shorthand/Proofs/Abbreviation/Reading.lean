import Shorthand.Proofs.Abbreviation.Grammar
/-!
# Reading follows the grammar

Each reader gives what the text spells and what is left behind it (`spells_readElement` and those beside it), and gives
whatever the text spells if what is left cannot go on with it (`SpellsElement.reads` and those beside it).  So a text is
read as the nodes that it spells (`read_eq_ok_iff`), and is read at all just when it derives from the grammar
(`read_isOk_iff`).
-/
namespace Shorthand.Abbreviation

open Text (decimal)

variable {s s' left name value : Text} {bound : Nat}

/-! ## Runs of chars -/

theorem takeWhile_run {p : Char → Bool} {run : Text} (h : ∀ c ∈ run, p c = true) (hs : ∀ c ∈ s.head?, p c = false) :
    (run ++ s).takeWhile p = run := by
  rw [List.takeWhile_append_of_pos h]
  cases s with
  | nil => simp
  | cons c s => rw [List.takeWhile_cons_of_neg (by rw [hs c rfl]; decide), List.append_nil]

theorem dropWhile_run {p : Char → Bool} {run : Text} (h : ∀ c ∈ run, p c = true) (hs : ∀ c ∈ s.head?, p c = false) :
    (run ++ s).dropWhile p = s := by
  rw [List.dropWhile_append_of_pos h]
  cases s with
  | nil => rfl
  | cons c s => rw [List.dropWhile_cons_of_neg (by rw [hs c rfl]; decide)]

/-- A text is a run and what is left behind it. -/
theorem exists_run (p : Char → Bool) (s : Text) : ∃ run left, s = run ++ left ∧ (∀ c ∈ run, p c = true) ∧
    s.takeWhile p = run ∧ s.dropWhile p = left :=
  ⟨_, _, List.takeWhile_append_dropWhile.symm, List.all_eq_true.1 List.all_takeWhile, rfl, rfl⟩

/-- `s` does not go on with a name char. -/
def EndsRun (s : Text) : Prop := ∀ c ∈ s.head?, isNameChar c = false

theorem nameOf_run (h : IsRun name) (hs : EndsRun s) : nameOf (name ++ s) = name := takeWhile_run h hs

theorem afterName_run (h : IsRun name) (hs : EndsRun s) : afterName (name ++ s) = s := dropWhile_run h hs

theorem ne_of_isNameChar {c d : Char} (h : isNameChar c = true) (hd : isNameChar d = false) : c ≠ d := by
  rintro rfl
  rw [hd] at h
  cases h

/-! ## Attributes -/

theorem spells_readValue (h : readValue s = .ok (value, left)) : SpellsValue s value left := by
  unfold readValue at h
  split at h
  · cases h
    have he : SpellsValue ([] ++ []) [] [] := .run nofun
    exact he
  next q s =>
  split at h
  · next hq =>
    obtain ⟨run, rest, rfl, hp, ht, hd⟩ := exists_run (fun c => c != q && c != '\n') s
    rw [hd, ht] at h
    split at h
    · cases h
    next c left' =>
    split at h
    · next hc =>
      cases h
      subst hc
      exact .quoted (by simpa using hq) (by simpa using hp)
    · cases h
  · obtain ⟨run, rest, hs, hp, ht, hd⟩ := exists_run isNameChar (q :: s)
    unfold nameOf afterName at h
    rw [hd, ht] at h
    cases h
    rw [hs]
    exact .run hp

theorem spells_readValue? {value : Option Text} (hr : IsRun name) (hn : name ≠ [])
    (h : readValue? s = .ok (value, left)) : SpellsAttribute (name ++ s) (name, value) left := by
  unfold readValue? at h
  split at h
  · next s =>
    cases hv : readValue s with
    | error => rw [hv] at h; cases h
    | ok read =>
      rw [hv] at h
      cases h
      exact .valued hr hn (spells_readValue hv)
  · cases h
    exact .bare hr hn

theorem SpellsAttributes.of_dropWhile {as : List Attribute} (h : SpellsAttributes (s.dropWhile (· = ' ')) as left) :
    SpellsAttributes s as left := by
  induction s with
  | nil => exact h
  | cons c s ih =>
    rw [List.dropWhile_cons] at h
    split at h
    · next hc =>
      rw [of_decide_eq_true hc]
      exact .space (ih h)
    · exact h

theorem spells_readAttributes {as : List Attribute} (h : readAttributes bound s = .ok (as, left)) :
    SpellsAttributes s as left := by
  induction bound generalizing s as with
  | zero => cases h
  | succ bound ih =>
    apply SpellsAttributes.of_dropWhile
    unfold readAttributes at h
    generalize s.dropWhile (· = ' ') = t at h ⊢
    split at h
    · cases h
    · cases h
      exact .close
    split at h
    · cases h
    next hn =>
    obtain ⟨name, rest, hs, hp, ht, hd⟩ := exists_run isNameChar t
    unfold nameOf afterName at *
    rw [ht, hd] at h
    rw [ht] at hn
    split at h
    · cases h
    next value left' hv =>
    split at h
    · next hc =>
      split at h
      · cases h
      next more left'' hm =>
      cases h
      rw [hs]
      cases left' with
      | nil => cases hc
      | cons c left' => exact .cons (spells_readValue? hp hn hv) (by simpa using hc) (ih hm)
    · cases h

/-! ## Elements -/

/-- A name is read, or is still to come at the end of the text. -/
theorem readWaiting_cases {need : Need} {name? : Option Text} (h : readWaiting need s = .ok (name?, left)) :
    (s = [] ∧ left = [] ∧ name? = none) ∨ ∃ name, IsRun name ∧ name ≠ [] ∧ s = name ++ left ∧ name? = some name := by
  obtain ⟨name, rest, hs, hp, ht, hd⟩ := exists_run isNameChar s
  unfold readWaiting nameOf at h
  rw [ht] at h
  split at h
  · cases h
    exact .inl ⟨rfl, rfl, rfl⟩
  · cases h
  · next hn hn' =>
    cases h
    refine .inr ⟨name, hp, ?_, hs.trans (congrArg _ hd.symm), rfl⟩
    rintro rfl
    cases s with
    | nil => exact hn rfl rfl
    | cons c s => exact hn' c s rfl rfl

theorem readParts_nil (bound : Nat) (e : Element) : readParts bound e [] = .ok (e, []) := by
  cases bound <;> rfl

theorem spells_readParts {e e' : Element} (h : readParts bound e s = .ok (e', left)) : SpellsParts e s e' left := by
  induction bound generalizing e s with
  | zero =>
    cases h
    exact .done
  | succ bound ih =>
    unfold readParts at h
    split at h
    · split at h
      · cases h
      next name? rest hw =>
      rcases readWaiting_cases hw with ⟨rfl, rfl, rfl⟩ | ⟨name, hr, hn, rfl, rfl⟩
      · rw [readParts_nil, Option.toList_none, List.append_nil] at h
        cases h
        exact .waiting (.inl rfl)
      · exact .className hr hn (ih h)
    · split at h
      · cases h
      next name? rest hw =>
      rcases readWaiting_cases hw with ⟨rfl, rfl, rfl⟩ | ⟨name, hr, hn, rfl, rfl⟩
      · rw [readParts_nil, Option.none_or] at h
        cases h
        exact .waiting (.inr rfl)
      · exact .id hr hn (ih h)
    · split at h
      · cases h
      next as rest ha => exact .attributes (spells_readAttributes ha) (ih h)
    · next s =>
      split at h
      · cases h
      next text rest ht =>
      obtain ⟨run, rest', rfl, hp, hr, hd⟩ := exists_run (fun c => c != '\x7d' && c != '\n') s
      unfold readText at ht
      rw [hd, hr] at ht
      split at ht
      · cases ht
        exact .text (by simpa using hp) (ih h)
      · cases ht
    · cases h
      exact .done

theorem spells_readElement {e : Element} (h : readElement s = .ok (e, left)) : SpellsElement s e left := by
  obtain ⟨name, rest, rfl, hp, ht, hd⟩ := exists_run isNameChar s
  unfold readElement nameOf afterName at h
  rw [ht, hd] at h
  split at h
  · cases h
  next e' left' hr =>
  split at h
  · cases h
  next hl =>
  cases h
  refine .parts hp (spells_readParts hr) ?_
  by_cases hn : name = []
  · right
    rintro rfl
    exact hl (by rw [hn, List.nil_append])
  · exact .inl hn

/-! ## Terms and chains -/

theorem spells_readCount {count : Nat} (h : readCount s = .ok (count, left)) : SpellsCount s count left := by
  unfold readCount at h
  split at h
  · next s =>
    obtain ⟨digits, rest, rfl, hp, ht, hd⟩ := exists_run Char.isDigit s
    rw [ht, hd] at h
    dsimp only at h
    split at h
    · next hc =>
      cases h
      simp only [Bool.and_eq_true, decide_eq_true_eq] at hc
      exact .times hp hc.1 hc.2
    · cases h
  · cases h
    exact .once

/-- Either an operator is read, or the chain ends here. -/
theorem readOperator?_cases {operator : Option Operator} (h : readOperator? s = .ok (operator, left)) :
    (operator = none ∧ left = s) ∨ ∃ o, operator = some o ∧ SpellsOperator s o left := by
  unfold readOperator? at h
  split at h
  · cases h
    exact .inl ⟨rfl, rfl⟩
  · cases h
    exact .inl ⟨rfl, rfl⟩
  · cases h
    exact .inr ⟨_, rfl, .sibling⟩
  · cases h
    exact .inr ⟨_, rfl, .child⟩
  · next s =>
    obtain ⟨run, rest, rfl, hp, ht, hd⟩ := exists_run (· = '^') s
    rw [ht, hd] at h
    cases h
    refine .inr ⟨_, rfl, ?_⟩
    have hr : run = List.replicate run.length '^' := List.eq_replicate_iff.2 ⟨rfl, by simpa using hp⟩
    have ho : SpellsOperator (List.replicate (run.length + 1) '^' ++ left) (.climb (run.length + 1)) left :=
      .climb _ (Nat.succ_pos _)
    rwa [List.replicate_succ, ← hr] at ho
  · cases h

theorem spells_readTerm {readInner : Text → Reads Chain} {node : Node}
    (hi : ∀ {s left c}, readInner s = .ok (c, left) → Spells (.chain c) s left)
    (h : readTerm readInner s = .ok (node, left)) : Spells (.term node) s left := by
  unfold readTerm at h
  dsimp only at h
  split at h
  · cases h
  next build rest hb =>
  split at h
  · cases h
  next count rest' hc =>
  cases h
  have ht := spells_readCount hc
  split at hb
  · cases hb
    exact .emptyGroup ht
  · split at hb
    · cases hb
    · next hc =>
      cases hb
      exact .group (hi hc) ht
    · cases hb
  · split at hb
    · cases hb
    · next he =>
      cases hb
      exact .element (spells_readElement he) ht

theorem spells_readChain {c : Chain} (h : readChain bound s = .ok (c, left)) : Spells (.chain c) s left := by
  induction bound generalizing s left c with
  | zero => cases h
  | succ bound ih =>
    unfold readChain at h
    split at h
    · cases h
    next node rest ht =>
    have hn := spells_readTerm ih ht
    split at h
    · cases h
    · next ho =>
      cases h
      rcases readOperator?_cases ho with ⟨-, rfl⟩ | ⟨_, he, -⟩
      · exact .chain hn .stay
      · cases he
    · next o rest' ho =>
      split at h
      · cases h
      next chain left' hc =>
      cases h
      rcases readOperator?_cases ho with ⟨he, -⟩ | ⟨_, he, ho⟩
      · cases he
      · cases he
        cases ih hc with
        | chain first more => exact .chain hn (.step ho first more)

/-! ## What is spelled is read -/

theorem endsRun_cons {c : Char} (h : isNameChar c = false) (s : Text) : EndsRun (c :: s) := by
  rintro _ ⟨⟩
  exact h

theorem SpellsValue.reads {c : Char} (h : SpellsValue s value (c :: left)) (hc : c = ' ' ∨ c = ']') :
    readValue s = .ok (value, c :: left) := by
  cases h with
  | run hr =>
    have he : EndsRun (c :: left) := endsRun_cons (by rcases hc with rfl | rfl <;> decide) left
    -- neither a name char nor what follows the value is a quote
    have hq : ∀ q ∈ (value ++ c :: left).head?, q ≠ '"' ∧ q ≠ '\'' := by
      rintro q hq
      cases value with
      | nil =>
        cases hq
        rcases hc with rfl | rfl <;> decide
      | cons d value =>
        cases hq
        have hd : isNameChar q = true := hr q List.mem_cons_self
        exact ⟨ne_of_isNameChar hd (by decide), ne_of_isNameChar hd (by decide)⟩
    have hv := nameOf_run hr he
    have hl := afterName_run hr he
    generalize value ++ c :: left = t at hq hv hl
    cases t with
    | nil =>
      rw [← hv, ← hl]
      rfl
    | cons q t =>
      unfold readValue
      dsimp only
      rw [if_neg (by simpa using hq q rfl), hv, hl]
  | @quoted q _ _ quote inside =>
    have hp : ∀ d ∈ value, (d != q && d != '\n') = true := by simpa using inside
    have hq : ∀ d ∈ (q :: c :: left).head?, (d != q && d != '\n') = false := by
      rintro _ ⟨⟩
      simp
    unfold readValue
    dsimp only
    rw [if_pos (by simpa using quote), dropWhile_run hp hq, takeWhile_run hp hq]
    exact if_pos rfl

theorem SpellsAttribute.reads {a : Attribute} {c : Char} (h : SpellsAttribute s a (c :: left))
    (hc : c = ' ' ∨ c = ']') :
    nameOf s = a.1 ∧ readValue? (afterName s) = .ok (a.2, c :: left) ∧ ∃ d ∈ s.head?, isNameChar d = true := by
  have hn : isNameChar c = false := by rcases hc with rfl | rfl <;> decide
  have head {name t : Text} (run : IsRun name) (named : name ≠ []) : ∃ d ∈ (name ++ t).head?, isNameChar d = true := by
    obtain ⟨d, name, rfl⟩ := List.exists_cons_of_ne_nil named
    exact ⟨d, rfl, run d List.mem_cons_self⟩
  cases h with
  | bare run named =>
    have he := endsRun_cons hn left
    refine ⟨nameOf_run run he, ?_, head run named⟩
    rw [afterName_run run he]
    rcases hc with rfl | rfl <;> rfl
  | valued run named spelled =>
    refine ⟨nameOf_run run (endsRun_cons (by decide) _), ?_, head run named⟩
    rw [afterName_run run (endsRun_cons (by decide) _)]
    simp only [readValue?, spelled.reads hc]

theorem SpellsAttributes.reads {as : List Attribute} (h : SpellsAttributes s as left) (hb : s.length ≤ bound) :
    readAttributes bound s = .ok (as, left) := by
  induction h generalizing bound with
  | close =>
    cases bound with
    | zero => simp at hb
    | succ bound => rfl
  | space _ ih =>
    cases bound with
    | zero => simp at hb
    | succ bound =>
      rw [← ih (Nat.le_of_succ_le hb)]
      rfl
  | @cons s s' _ c a _ first apart rest ih =>
    cases bound with
    | zero =>
      have := first.length_lt
      omega
    | succ bound =>
      obtain ⟨hn, hv, d, hd, hd'⟩ := first.reads apart
      obtain ⟨t, rfl⟩ := List.head?_eq_some_iff.1 hd
      have hlt := first.length_lt
      have hs : (d :: t).dropWhile (· = ' ') = d :: t :=
        List.dropWhile_cons_of_neg (by simpa using ne_of_isNameChar hd' (by decide))
      have hn' : nameOf (d :: t) ≠ [] := by
        unfold nameOf
        rw [List.takeWhile_cons_of_pos hd']
        exact List.cons_ne_nil _ _
      unfold readAttributes
      rw [hs]
      split
      · contradiction
      · next h =>
        cases h
        cases hd'.symm.trans (by decide : isNameChar ']' = false)
      rw [if_neg hn', hv]
      have hc : ((c :: s').head? = some ' ' || (c :: s').head? = some ']') = true := by simpa using apart
      dsimp only
      rw [if_pos hc, ih (by omega), hn]

/-- `s` does not go on with the element in front of it. -/
def EndsElement (s : Text) : Prop :=
  ∀ c ∈ s.head?, isNameChar c = false ∧ c ≠ '.' ∧ c ≠ '#' ∧ c ≠ '[' ∧ c ≠ '\x7b'

theorem EndsElement.endsRun (h : EndsElement s) : EndsRun s := fun c hc => (h c hc).1

/-- The parts of an element stand apart from a name in front of them. -/
theorem SpellsParts.endsRun {e e' : Element} (h : SpellsParts e s e' left) (he : EndsElement left) : EndsRun s := by
  cases h with
  | done => exact he.endsRun
  | waiting opener => exact endsRun_cons (by rcases opener with rfl | rfl <;> decide) _
  | className | id | attributes | text => exact endsRun_cons (by decide) _

theorem readWaiting_run (need : Need) (hr : IsRun name) (hn : name ≠ []) (hs : EndsRun s) :
    readWaiting need (name ++ s) = .ok (some name, s) := by
  obtain ⟨c, name, rfl⟩ := List.exists_cons_of_ne_nil hn
  unfold readWaiting
  rw [nameOf_run hr hs]
  change Except.ok (some (c :: name), afterName (c :: name ++ s)) = _
  rw [afterName_run hr hs]

theorem SpellsParts.reads {e e' : Element} (h : SpellsParts e s e' left) (he : EndsElement left)
    (hb : s.length ≤ bound) : readParts bound e s = .ok (e', left) := by
  induction h generalizing bound with
  | @done e s =>
    cases bound with
    | zero => rfl
    | succ bound =>
      unfold readParts
      split
      · exact absurd rfl (he '.' rfl).2.1
      · exact absurd rfl (he '#' rfl).2.2.1
      · exact absurd rfl (he '[' rfl).2.2.2.1
      · exact absurd rfl (he '\x7b' rfl).2.2.2.2
      · rfl
  | waiting opener =>
    cases bound with
    | zero => simp at hb
    | succ bound =>
      rcases opener with rfl | rfl
      · simp [readParts, readWaiting, nameOf, readParts_nil]
      · simp [readParts, readWaiting, nameOf, readParts_nil]
  | className run named rest ih =>
    cases bound with
    | zero => simp at hb
    | succ bound =>
      simp only [List.length_cons, List.length_append] at hb
      simp only [readParts, readWaiting_run _ run named (rest.endsRun he), Option.toList_some]
      exact ih he (by omega)
  | id run named rest ih =>
    cases bound with
    | zero => simp at hb
    | succ bound =>
      simp only [List.length_cons, List.length_append] at hb
      simp only [readParts, readWaiting_run _ run named (rest.endsRun he), Option.some_or]
      exact ih he (by omega)
  | attributes list _ ih =>
    cases bound with
    | zero => simp at hb
    | succ bound =>
      have hl := list.length_lt
      simp only [List.length_cons] at hb
      simp only [readParts, list.reads (Nat.le_refl _)]
      exact ih he (by omega)
  | @text _ _ text s _ inside _ ih =>
    cases bound with
    | zero => simp at hb
    | succ bound =>
      have hp : ∀ c ∈ text, (c != '\x7d' && c != '\n') = true := by simpa using inside
      have hq : ∀ c ∈ ('\x7d' :: s).head?, (c != '\x7d' && c != '\n') = false := by
        rintro _ ⟨⟩
        decide
      simp only [List.length_cons, List.length_append] at hb
      simp only [readParts, readText, dropWhile_run hp hq, takeWhile_run hp hq]
      exact ih he (by omega)

theorem SpellsElement.reads {e : Element} (h : SpellsElement s e left) (he : EndsElement left) :
    readElement s = .ok (e, left) := by
  have hl := h.length_lt
  cases h with
  | @parts name rest _ _ run parts _ =>
    have hr := parts.endsRun he
    have hb : rest.length ≤ (name ++ rest).length := by simp
    unfold readElement
    rw [nameOf_run run hr, afterName_run run hr, parts.reads he hb]
    exact if_neg (Nat.ne_of_lt hl)

/-- `s` does not go on with the term in front of it. -/
def EndsTerm (s : Text) : Prop := ∀ c ∈ s.head?, c = '+' ∨ c = '>' ∨ c = '^' ∨ c = ')'

theorem EndsTerm.endsElement (h : EndsTerm s) : EndsElement s := by
  intro c hc
  rcases h c hc with rfl | rfl | rfl | rfl <;> decide

theorem SpellsCount.endsElement {n : Nat} (h : SpellsCount s n left) (he : EndsTerm left) : EndsElement s := by
  cases h with
  | once => exact he.endsElement
  | times =>
    rintro _ ⟨⟩
    decide

theorem SpellsCount.reads {n : Nat} (h : SpellsCount s n left) (he : EndsTerm left) :
    readCount s = .ok (n, left) := by
  cases h with
  | once =>
    unfold readCount
    split
    · rcases he '*' rfl with h | h | h | h <;> cases h
    · rfl
  | times digit positive bounded =>
    have hd : ∀ c ∈ left.head?, c.isDigit = false := by
      intro c hc
      rcases he c hc with rfl | rfl | rfl | rfl <;> decide
    simp only [readCount, takeWhile_run digit hd, dropWhile_run digit hd]
    exact if_pos (by simpa using ⟨positive, bounded⟩)

theorem SpellsOperator.endsTerm {o : Operator} (h : SpellsOperator s o left) : EndsTerm s := by
  cases h with
  | sibling | child =>
    rintro _ ⟨⟩
    simp
  | climb levels up =>
    obtain ⟨n, rfl⟩ := Nat.exists_eq_succ_of_ne_zero (Nat.ne_of_gt up)
    rintro _ ⟨⟩
    simp

theorem SpellsOperator.reads {o : Operator} (h : SpellsOperator s o left) (hl : left.head? ≠ some '^') :
    readOperator? s = .ok (some o, left) := by
  cases h with
  | sibling | child => rfl
  | climb levels up =>
    obtain ⟨n, rfl⟩ := Nat.exists_eq_succ_of_ne_zero (Nat.ne_of_gt up)
    have hp : ∀ c ∈ List.replicate n '^', decide (c = '^') = true := by simp
    have hq : ∀ c ∈ left.head?, decide (c = '^') = false := by
      rintro c hc
      simp only [decide_eq_false_iff_not]
      rintro rfl
      exact hl hc
    rw [List.replicate_succ, List.cons_append]
    simp only [readOperator?, takeWhile_run hp hq, dropWhile_run hp hq, List.length_replicate]

/-- The chars that an element can begin with. -/
def StartsElement (c : Char) : Prop := isNameChar c = true ∨ c = '.' ∨ c = '#' ∨ c = '[' ∨ c = '\x7b'

theorem StartsElement.ne {c d : Char} (h : StartsElement c) (hd : EndsElement [d]) : c ≠ d := by
  rintro rfl
  obtain ⟨h₁, h₂, h₃, h₄, h₅⟩ := hd c rfl
  rcases h with h | h | h | h | h
  · rw [h₁] at h
    cases h
  · exact h₂ h
  · exact h₃ h
  · exact h₄ h
  · exact h₅ h

theorem SpellsElement.head {e : Element} (h : SpellsElement s e left) : ∃ c ∈ s.head?, StartsElement c := by
  cases h with
  | @parts name rest _ _ run parts nonempty =>
    cases name with
    | cons c name => exact ⟨c, rfl, .inl (run c List.mem_cons_self)⟩
    | nil =>
      cases parts with
      | done => exact absurd rfl (nonempty.resolve_left (· rfl))
      | className => exact ⟨'.', rfl, by simp [StartsElement]⟩
      | id => exact ⟨'#', rfl, by simp [StartsElement]⟩
      | waiting opener => exact ⟨_, rfl, by rcases opener with rfl | rfl <;> simp [StartsElement]⟩
      | attributes => exact ⟨'[', rfl, by simp [StartsElement]⟩
      | text => exact ⟨'\x7b', rfl, by simp [StartsElement]⟩

theorem SpellsElement.head?_ne {e : Element} {c : Char} (h : SpellsElement s e left) (hc : EndsElement [c]) :
    s.head? ≠ some c := by
  obtain ⟨d, hd, hs⟩ := h.head
  rw [Option.mem_def] at hd
  rw [hd]
  exact fun he => hs.ne hc (Option.some.inj he)

/-- What ends an element begins no term, an opening parenthesis apart. -/
theorem Spells.head?_ne {node : Node} {c : Char} (h : Spells (.term node) s left) (hc : EndsElement [c])
    (hp : c ≠ '(') : s.head? ≠ some c := by
  cases h with
  | element element _ => exact element.head?_ne hc
  | emptyGroup | group => exact fun he => hp (Option.some.inj he).symm

/-- `s` does not go on with the chain in front of it. -/
def EndsChain (s : Text) : Prop := ∀ c ∈ s.head?, c = ')'

theorem EndsChain.endsTerm (h : EndsChain s) : EndsTerm s := fun c hc => .inr (.inr (.inr (h c hc)))

theorem EndsChain.readOperator?_eq (h : EndsChain s) : readOperator? s = .ok (none, s) := by
  cases s with
  | nil => rfl
  | cons c s =>
    cases h c rfl
    rfl

/-- **What reading makes of a phrase** when what is left behind it cannot go on with it: a term is read as a term, steps
are what a chain goes on with behind any term, a chain is read as a chain. -/
def Phrase.ReadsTo : Phrase → Text → Text → Prop
  | .term node, s, left =>
    EndsTerm left → ∀ bound, s.length ≤ bound + 1 → readTerm (readChain bound) s = .ok (node, left)
  | .steps more, s, left =>
    EndsChain left → EndsTerm s ∧ ∀ bound t node, s.length ≤ bound →
      readTerm (readChain bound) t = .ok (node, s) → readChain (bound + 1) t = .ok (⟨node, more⟩, left)
  | .chain c, s, left => EndsChain left → ∀ bound, s.length ≤ bound → readChain bound s = .ok (c, left)

theorem readTerm_element (readInner : Text → Reads Chain) {e : Element} {count : Nat} (h : SpellsElement s e s')
    (ht : SpellsCount s' count left) (he : EndsTerm left) :
    readTerm readInner s = .ok (.element e count [], left) := by
  have hr := h.reads (ht.endsElement he)
  have hn : s.head? ≠ some '(' := h.head?_ne (by rintro _ ⟨⟩; decide)
  unfold readTerm
  split
  · exact absurd rfl hn
  · exact absurd rfl hn
  · rw [hr]
    dsimp only
    rw [ht.reads he]

theorem readTerm_emptyGroup (readInner : Text → Reads Chain) {count : Nat} (ht : SpellsCount s count left)
    (he : EndsTerm left) : readTerm readInner ('(' :: ')' :: s) = .ok (.group [] count [], left) := by
  simp only [readTerm, ht.reads he]

theorem readTerm_group {readInner : Text → Reads Chain} {c : Chain} {count : Nat} (hn : s.head? ≠ some ')')
    (hi : readInner s = .ok (c, ')' :: s')) (ht : SpellsCount s' count left) (he : EndsTerm left) :
    readTerm readInner ('(' :: s) = .ok (.group c.assemble count [], left) := by
  unfold readTerm
  split
  · next hs =>
    cases hs
    exact absurd rfl hn
  · next hs =>
    cases hs
    simp only [hi, ht.reads he]
  · next hs => exact absurd rfl (hs s)

/-- **What a text spells is read.** -/
theorem Spells.readsTo {phrase : Phrase} (h : Spells phrase s left) : phrase.ReadsTo s left := by
  induction h with
  | element element times => exact fun he _ _ => readTerm_element _ element times he
  | emptyGroup times => exact fun he _ _ => readTerm_emptyGroup _ times he
  | @group c _ s s' _ items times ih =>
    intro he bound hb
    have hn : s.head? ≠ some ')' := by
      cases items with
      | chain first _ => exact first.head?_ne (by rintro _ ⟨⟩; decide) (by decide)
    have hc : EndsChain (')' :: s') := by
      rintro _ ⟨⟩
      rfl
    exact readTerm_group hn (ih hc bound (Nat.le_of_succ_le_succ hb)) times he
  | stay =>
    intro he
    refine ⟨he.endsTerm, fun bound t node _ ht => ?_⟩
    simp only [readChain, ht, he.readOperator?_eq]
  | @step o node' steps s s' s'' left operator term _ ih ih' =>
    intro he
    obtain ⟨hs, hmore⟩ := ih' he
    refine ⟨operator.endsTerm, fun bound t node hb ht => ?_⟩
    have hl := operator.length_lt
    have hl' := term.length_lt
    have ho : readOperator? s = .ok (some o, s') := operator.reads (term.head?_ne (by rintro _ ⟨⟩; decide) (by decide))
    cases bound with
    | zero => omega
    | succ bound =>
      have hc : readChain (bound + 1) s' = .ok (⟨node', steps⟩, left) :=
        hmore bound s' node' (by omega) (ih hs bound (by omega))
      unfold readChain
      simp only [ht, ho, hc]
  | chain first _ ih ih' =>
    intro he bound hb
    obtain ⟨hs, hmore⟩ := ih' he
    have hl := first.length_lt
    cases bound with
    | zero => omega
    | succ bound => exact hmore bound _ _ (by omega) (ih hs bound hb)

/-! ## Abbreviations -/

/-- **A text is read as the nodes of the chain that it spells.** -/
theorem read_eq_ok_iff {a : Text} {nodes : List Node} :
    read a = .ok nodes ↔ ∃ c, Spells (.chain c) a [] ∧ c.assemble = nodes := by
  constructor
  · intro h
    unfold read at h
    split at h
    · cases h
    · next c hc =>
      cases h
      exact ⟨c, spells_readChain hc, rfl⟩
    · cases h
  · rintro ⟨c, hc, rfl⟩
    have hr : readChain a.length a = .ok (c, []) := hc.readsTo nofun a.length (Nat.le_refl _)
    simp only [read, hr]

/-- **The texts that are read are those that derive from the grammar.** -/
theorem read_isOk_iff (a : Text) : (∃ nodes, read a = .ok nodes) ↔ IsAbbreviation a := by
  constructor
  · rintro ⟨nodes, h⟩
    obtain ⟨c, hc, -⟩ := read_eq_ok_iff.1 h
    exact ⟨c, hc⟩
  · rintro ⟨c, hc⟩
    exact ⟨c.assemble, read_eq_ok_iff.2 ⟨c, hc, rfl⟩⟩

end Shorthand.Abbreviation
