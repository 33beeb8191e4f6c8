import Shorthand.Abbreviation.Reader
/-!
# The grammar of abbreviations

What a text spells.  `SpellsElement s e left` says that the text `s` spells the element `e` as far as `left`, which is
the end of `s` that comes after it; the other relations are read alike.  The grammar itself chooses nothing: where a
phrase ends is for what follows it to tell.

- A chain is a term and any number of steps, each an operator and a term; an operator is `+`, `>` or some `^`.
- A term is an element, or parentheses around a chain or around nothing, and then maybe `*` and a count in digits.
- An element is a name, which may be empty, and parts, the two not both missing.
- A part is `.` or `#` and a name, attributes in brackets, or a text in braces; a `.` or `#` without a name is the end
  of the whole abbreviation.
- Attributes stand apart by spaces and may have more of them around; each is a name, alone or with `=` and a value,
  which is a run of name chars, maybe none, or a text in quotes.

`Spells` says this of terms, steps and chains, `IsAbbreviation` of a whole text.
-/
namespace Shorthand.Abbreviation

open Text (decimal)

variable {s s' s'' left name : Text}

/-- `t` is made of name chars. -/
def IsRun (t : Text) : Prop := ∀ c ∈ t, isNameChar c = true

/-! ## Attributes -/

inductive SpellsValue : Text → Text → Text → Prop
  | run {value left : Text} (run : IsRun value) : SpellsValue (value ++ left) value left
  | quoted {q : Char} {value left : Text} (quote : q = '"' ∨ q = '\'') (inside : ∀ c ∈ value, c ≠ q ∧ c ≠ '\n') :
      SpellsValue (q :: (value ++ q :: left)) value left

inductive SpellsAttribute : Text → Attribute → Text → Prop
  | bare {name left : Text} (run : IsRun name) (named : name ≠ []) : SpellsAttribute (name ++ left) (name, none) left
  | valued {name s value left : Text} (run : IsRun name) (named : name ≠ []) (spelled : SpellsValue s value left) :
      SpellsAttribute (name ++ '=' :: s) (name, some value) left

/-- A list of attributes, from behind its `[`, and its `]`. -/
inductive SpellsAttributes : Text → List Attribute → Text → Prop
  | close {left : Text} : SpellsAttributes (']' :: left) [] left
  | space {s left : Text} {as : List Attribute} (rest : SpellsAttributes s as left) :
      SpellsAttributes (' ' :: s) as left
  | cons {s s' left : Text} {c : Char} {a : Attribute} {as : List Attribute}
      (first : SpellsAttribute s a (c :: s')) (apart : c = ' ' ∨ c = ']') (rest : SpellsAttributes (c :: s') as left) :
      SpellsAttributes s (a :: as) left

/-! ## Elements -/

/-- Parts that make an element, as far as it has been read, another one. -/
inductive SpellsParts : Element → Text → Element → Text → Prop
  | done {e : Element} {s : Text} : SpellsParts e s e s
  | className {e e' : Element} {name s left : Text} (run : IsRun name) (named : name ≠ [])
      (rest : SpellsParts { e with classes := e.classes ++ [name] } s e' left) :
      SpellsParts e ('.' :: (name ++ s)) e' left
  | id {e e' : Element} {name s left : Text} (run : IsRun name) (named : name ≠ [])
      (rest : SpellsParts { e with id := some name } s e' left) : SpellsParts e ('#' :: (name ++ s)) e' left
  /-- A name is still to come. -/
  | waiting {e : Element} {c : Char} (opener : c = '.' ∨ c = '#') : SpellsParts e [c] e []
  | attributes {e e' : Element} {s s' left : Text} {as : List Attribute} (list : SpellsAttributes s as s')
      (rest : SpellsParts { e with attributes := e.attributes ++ as } s' e' left) : SpellsParts e ('[' :: s) e' left
  | text {e e' : Element} {text s left : Text} (inside : ∀ c ∈ text, c ≠ '\x7d' ∧ c ≠ '\n')
      (rest : SpellsParts { e with text := some text } s e' left) :
      SpellsParts e ('\x7b' :: (text ++ '\x7d' :: s)) e' left

inductive SpellsElement : Text → Element → Text → Prop
  | parts {name s left : Text} {e : Element} (run : IsRun name) (parts : SpellsParts { name } s e left)
      (nonempty : name ≠ [] ∨ s ≠ left) : SpellsElement (name ++ s) e left

/-! ## Terms and chains -/

inductive SpellsCount : Text → Nat → Text → Prop
  | once {s : Text} : SpellsCount s 1 s
  | times {digits left : Text} (digit : ∀ c ∈ digits, c.isDigit = true) (positive : 0 < decimal digits)
      (bounded : decimal digits ≤ maxOffset) : SpellsCount ('*' :: (digits ++ left)) (decimal digits) left

inductive SpellsOperator : Text → Operator → Text → Prop
  | sibling {left : Text} : SpellsOperator ('+' :: left) .sibling left
  | child {left : Text} : SpellsOperator ('>' :: left) .child left
  | climb {left : Text} (levels : Nat) (up : 0 < levels) :
      SpellsOperator (List.replicate levels '^' ++ left) (.climb levels) left

/-- What a stretch of an abbreviation can spell: a term, the steps behind one, or a chain. -/
inductive Phrase where
  | term (node : Node)
  | steps (steps : List (Operator × Node))
  | chain (c : Chain)

inductive Spells : Phrase → Text → Text → Prop
  | element {e : Element} {count : Nat} {s s' left : Text} (element : SpellsElement s e s')
      (times : SpellsCount s' count left) : Spells (.term (.element e count [])) s left
  | emptyGroup {count : Nat} {s left : Text} (times : SpellsCount s count left) :
      Spells (.term (.group [] count [])) ('(' :: ')' :: s) left
  | group {c : Chain} {count : Nat} {s s' left : Text} (items : Spells (.chain c) s (')' :: s'))
      (times : SpellsCount s' count left) : Spells (.term (.group c.assemble count [])) ('(' :: s) left
  | stay {s : Text} : Spells (.steps []) s s
  | step {o : Operator} {node : Node} {steps : List (Operator × Node)} {s s' s'' left : Text}
      (operator : SpellsOperator s o s') (term : Spells (.term node) s' s'') (more : Spells (.steps steps) s'' left) :
      Spells (.steps ((o, node) :: steps)) s left
  | chain {node : Node} {steps : List (Operator × Node)} {s s' left : Text} (first : Spells (.term node) s s')
      (more : Spells (.steps steps) s' left) : Spells (.chain ⟨node, steps⟩) s left

/-- **The text derives from the grammar** as a chain. -/
def IsAbbreviation (a : Text) : Prop := ∃ c, Spells (.chain c) a []

/-! ## How much of a text a phrase takes -/

theorem SpellsValue.length_le {value : Text} (h : SpellsValue s value left) : left.length ≤ s.length := by
  cases h with
  | run => simp
  | quoted => simp; omega

theorem SpellsAttribute.length_lt {a : Attribute} (h : SpellsAttribute s a left) : left.length < s.length := by
  cases h with
  | bare _ named =>
    have := List.length_pos_iff.2 named
    simp only [List.length_append]
    omega
  | valued _ _ spelled =>
    have := spelled.length_le
    simp only [List.length_append, List.length_cons]
    omega

theorem SpellsAttributes.length_lt {as : List Attribute} (h : SpellsAttributes s as left) : left.length < s.length := by
  induction h with
  | close => simp
  | space _ ih => exact Nat.lt_succ_of_lt ih
  | cons first _ _ ih => exact Nat.lt_trans ih first.length_lt

/-- Parts take something of the text, or there are none. -/
theorem SpellsParts.eq_or_length_lt {e e' : Element} (h : SpellsParts e s e' left) :
    s = left ∨ left.length < s.length := by
  induction h with
  | done => exact .inl rfl
  | className _ _ _ ih | id _ _ _ ih =>
    right
    rcases ih with rfl | ih <;> simp only [List.length_cons, List.length_append] <;> omega
  | waiting => right; simp
  | attributes list _ ih =>
    have hl := list.length_lt
    right
    rcases ih with rfl | ih <;> simp only [List.length_cons] <;> omega
  | text _ _ ih =>
    right
    rcases ih with rfl | ih <;> simp only [List.length_cons, List.length_append] <;> omega

theorem SpellsElement.length_lt {e : Element} (h : SpellsElement s e left) : left.length < s.length := by
  cases h with
  | parts _ parts nonempty =>
    rw [List.length_append]
    rcases nonempty with hn | hs
    · have := List.length_pos_iff.2 hn
      rcases parts.eq_or_length_lt with rfl | h <;> omega
    · have := parts.eq_or_length_lt.resolve_left hs
      omega

theorem SpellsCount.length_le {n : Nat} (h : SpellsCount s n left) : left.length ≤ s.length := by
  cases h with
  | once => exact Nat.le_refl _
  | times => simp only [List.length_cons, List.length_append]; omega

theorem SpellsOperator.length_lt {o : Operator} (h : SpellsOperator s o left) : left.length < s.length := by
  cases h with
  | sibling | child => simp
  | climb levels up => simp only [List.length_append, List.length_replicate]; omega

theorem Spells.length_le {phrase : Phrase} (h : Spells phrase s left) : left.length ≤ s.length := by
  induction h with
  | element element times =>
    have := element.length_lt
    have := times.length_le
    omega
  | emptyGroup times =>
    have := times.length_le
    simp only [List.length_cons]
    omega
  | group _ times ih =>
    have := times.length_le
    simp only [List.length_cons] at *
    omega
  | stay => exact Nat.le_refl _
  | step operator _ _ ih ih' =>
    have := operator.length_lt
    omega
  | chain _ _ ih ih' => exact Nat.le_trans ih' ih

theorem Spells.length_lt {node : Node} (h : Spells (.term node) s left) : left.length < s.length := by
  cases h with
  | element element times => exact Nat.lt_of_le_of_lt times.length_le element.length_lt
  | emptyGroup times =>
    have := times.length_le
    simp only [List.length_cons]
    omega
  | group items times =>
    have := items.length_le
    have := times.length_le
    simp only [List.length_cons] at *
    omega

end Shorthand.Abbreviation
