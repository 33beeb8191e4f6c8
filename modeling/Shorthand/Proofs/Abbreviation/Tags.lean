import Mathlib.Data.List.TakeWhile
import Shorthand.Abbreviation.Enclosing
import Shorthand.Proofs.Text.Words
/-!
# Tags as they are written

A tag is found where it stands whole between its angle brackets, and nowhere else (`tags_bracketed_append`,
`tags_take_bracketed`).  A tag that is written as tags are, its name and its attributes parted by blank chars, is read
as what was written (`opened?_print`): it opens an element with those attributes in their order unless its name is void,
and none with a slash at its end.  A closing tag closes the innermost element if that has its name (`afterTag_closing`).
-/
namespace Shorthand.Abbreviation

open Text (isBlank trimBlank words)

variable {t body : Text} {openElements : List Context}

/-! ## Finding tags -/

theorem tags_append_of_plain (h : '<' ∉ t) (behind : Text) : tags (t ++ behind) = tags behind := by
  induction t with
  | nil => rfl
  | cons c t ih =>
    rw [List.mem_cons, not_or] at h
    obtain ⟨hc, ht⟩ := h
    conv => lhs; unfold tags
    rw [List.cons_append, tagsFrom, if_neg (Ne.symm hc)]
    exact ih ht

theorem tags_of_plain (h : '<' ∉ t) : tags t = [] := by
  have hnone := tags_append_of_plain h []
  rwa [List.append_nil] at hnone

theorem tagsFrom_append (h : '>' ∉ t) (read behind : Text) :
    tagsFrom (some read) (t ++ behind) = tagsFrom (some (t.reverse ++ read)) behind := by
  induction t generalizing read with
  | nil => rfl
  | cons c t ih =>
    rw [List.mem_cons, not_or] at h
    obtain ⟨hc, ht⟩ := h
    rw [List.cons_append, tagsFrom, if_neg (Ne.symm hc), ih ht, List.reverse_cons, List.append_assoc]
    rfl

/-- A tag with its angle brackets. -/
def bracketed (body : Text) : Text := '<' :: (body ++ ['>'])

theorem length_bracketed (body : Text) : (bracketed body).length = body.length + 2 := by
  simp [bracketed]

/-- **A tag is what stands between angle brackets.** -/
theorem tags_bracketed_append (h : '>' ∉ body) (behind : Text) :
    tags (bracketed body ++ behind) = body :: tags behind := by
  unfold tags bracketed
  rw [List.cons_append, tagsFrom, if_pos rfl, List.append_assoc, tagsFrom_append h, List.append_nil]
  rw [List.singleton_append, tagsFrom, if_pos rfl, List.reverse_reverse]

theorem tags_bracketed (h : '>' ∉ body) : tags (bracketed body) = [body] := by
  have hone := tags_bracketed_append h []
  rwa [List.append_nil] at hone

/-- A tag that is cut off is none. -/
theorem tags_take_bracketed (h : '>' ∉ body) {k : Nat} (hk : k < (bracketed body).length) :
    tags ((bracketed body).take k) = [] := by
  rw [length_bracketed] at hk
  cases k with
  | zero => rfl
  | succ k =>
    have hcut : (bracketed body).take (k + 1) = '<' :: (body.take k ++ []) := by
      unfold bracketed
      rw [List.take_succ_cons, List.take_append_of_le_length (by omega), List.append_nil]
    have hn : '>' ∉ body.take k := fun hm => h (List.mem_of_mem_take hm)
    rw [hcut]
    unfold tags
    rw [tagsFrom, if_pos rfl, tagsFrom_append hn]
    rfl

/-! ## Taking off what stands at the ends -/

theorem dropWhile_eq_self {p : Char → Bool} (h : ∀ c ∈ t.head?, p c = false) : t.dropWhile p = t := by
  cases t with
  | nil => rfl
  | cons c t => exact List.dropWhile_cons_of_neg (by rw [h c rfl]; exact Bool.false_ne_true)

theorem dropEnd_eq_self {p : Char → Bool} (h : ∀ c ∈ t.getLast?, p c = false) : dropEnd p t = t := by
  unfold dropEnd
  rw [dropWhile_eq_self (by rwa [List.head?_reverse]), List.reverse_reverse]

theorem dropEnd_append {p : Char → Bool} (behind : Text) (hb : ∀ c ∈ behind, p c = true)
    (h : ∀ c ∈ t.getLast?, p c = false) : dropEnd p (t ++ behind) = t := by
  unfold dropEnd
  rw [List.reverse_append, List.dropWhile_append_of_pos fun c hc => hb c (List.mem_reverse.1 hc)]
  exact dropEnd_eq_self h

/-! ## Attributes -/

/-- A char of the name of an attribute. -/
def isAttributeChar (c : Char) : Bool :=
  !isBlank c && c != '"' && c != '\'' && c != '=' && c != '<' && c != '>' && c != '/'

/-- A char of a quoted value. -/
def isValueChar (c : Char) : Bool := !isBlank c && c != '"' && c != '\'' && c != '<' && c != '>'

/-- **An attribute as it is written** in a tag: blank chars, a name and maybe a value in quotes. -/
structure WrittenAttribute where
  gap : Text
  name : Text
  value : Option Text
  blank : ∀ c ∈ gap, isBlank c = true
  parted : gap ≠ []
  plain : ∀ c ∈ name, isAttributeChar c = true
  named : name ≠ []
  valued : ∀ v ∈ value, ∀ c ∈ v, isValueChar c = true

namespace WrittenAttribute

variable (a : WrittenAttribute)

/-- The word that the attribute is written as. -/
def word : Text :=
  match a.value with
  | none => a.name
  | some v => a.name ++ '=' :: '"' :: (v ++ ['"'])

def print : Text := a.gap ++ a.word

def toAttribute : Attribute := (a.name, a.value)

/-- The chars of the word: those of the name, those of the value, the sign between them and the quotes. -/
theorem mem_word {c : Char} (hc : c ∈ a.word) :
    isAttributeChar c = true ∨ isValueChar c = true ∨ c = '=' ∨ c = '"' := by
  unfold word at hc
  cases hv : a.value with
  | none =>
    rw [hv] at hc
    exact .inl (a.plain c hc)
  | some v =>
    rw [hv] at hc
    simp only [List.mem_append, List.mem_cons, List.not_mem_nil, or_false] at hc
    rcases hc with hc | hc | hc | hc | hc
    · exact .inl (a.plain c hc)
    · exact .inr (.inr (.inl hc))
    · exact .inr (.inr (.inr hc))
    · exact .inr (.inl (a.valued v hv c hc))
    · exact .inr (.inr (.inr hc))

theorem not_isBlank_word : ∀ c ∈ a.word, isBlank c = false := by
  intro c hc
  rcases a.mem_word hc with h | h | rfl | rfl
  · simp only [isAttributeChar, Bool.and_eq_true, Bool.not_eq_true'] at h
    simp [h]
  · simp only [isValueChar, Bool.and_eq_true, Bool.not_eq_true'] at h
    simp [h]
  · rfl
  · rfl

theorem word_ne_nil : a.word ≠ [] := by
  unfold word
  cases a.value with
  | none => exact a.named
  | some v => exact List.append_ne_nil_of_left_ne_nil a.named _

theorem getLast?_word : a.word.getLast? ≠ some '/' := by
  intro h
  unfold word at h
  cases hv : a.value with
  | none =>
    rw [hv] at h
    exact absurd (a.plain '/' (List.mem_of_getLast? h)) (by decide)
  | some v =>
    have hq : a.name ++ '=' :: '"' :: (v ++ ['"']) = (a.name ++ '=' :: '"' :: v) ++ ['"'] := by simp
    rw [hv] at h
    dsimp only at h
    rw [hq, List.getLast?_append] at h
    cases h

theorem not_mem_print : '>' ∉ a.print := by
  intro h
  rcases List.mem_append.1 h with h | h
  · exact absurd (a.blank '>' h) (by decide)
  · rcases a.mem_word h with h | h | h | h <;> exact absurd h (by decide)

theorem unquoted_quoted {v : Text} (h : ∀ c ∈ v, isValueChar c = true) : unquoted ('"' :: (v ++ ['"'])) = v := by
  have hq : ∀ c ∈ v, (decide (c = '"') || decide (c = '\'')) = false := by
    intro c hc
    have hv := h c hc
    simp only [isValueChar, Bool.and_eq_true, bne_iff_ne] at hv
    simp [hv]
  unfold unquoted
  rw [List.dropWhile_cons_of_pos (by decide)]
  cases v with
  | nil => rfl
  | cons c v =>
    rw [dropWhile_eq_self fun d hd => hq d (by simp_all)]
    exact dropEnd_append ['"'] (by simp) fun d hd => hq d (List.mem_of_getLast? hd)

/-- **The word is read as the attribute.** -/
theorem attributeOf_word : attributeOf a.word = a.toAttribute := by
  have hn : ∀ c ∈ a.name, (c != '=') = true := by
    intro c hc
    have h := a.plain c hc
    simp only [isAttributeChar, Bool.and_eq_true] at h
    exact h.1.1.1.2
  unfold attributeOf word toAttribute
  cases hv : a.value with
  | none =>
    dsimp only
    rw [List.dropWhile_eq_nil_iff.2 hn]
  | some v =>
    dsimp only
    rw [List.dropWhile_append_of_pos hn, List.takeWhile_append_of_pos hn, List.dropWhile_cons_of_neg (by decide),
      List.takeWhile_cons_of_neg (by decide), List.append_nil]
    dsimp only
    rw [unquoted_quoted (a.valued v hv)]

end WrittenAttribute

/-! ## Opening tags -/

/-- A char of the name of an element. -/
def isTagChar (c : Char) : Bool := !isBlank c && c != '<' && c != '>' && c != '/'

/-- **An opening tag as it is written**, without its angle brackets: a name, attributes and maybe blank chars. -/
structure WrittenTag where
  name : Text
  attributes : List WrittenAttribute
  gap : Text
  plain : ∀ c ∈ name, isTagChar c = true
  named : name ≠ []
  blank : ∀ c ∈ gap, isBlank c = true

namespace WrittenTag

variable (tag : WrittenTag)

def print : Text := tag.name ++ (tag.attributes.flatMap WrittenAttribute.print ++ tag.gap)

/-- The closing tag of the element, without its angle brackets. -/
def closing (gap : Text) : Text := '/' :: (tag.name ++ gap)

/-- The element that the tag opens. -/
def context : Context := ⟨tag.name, tag.attributes.map WrittenAttribute.toAttribute⟩

theorem not_isBlank_name : ∀ c ∈ tag.name, isBlank c = false := by
  intro c hc
  have h := tag.plain c hc
  simp only [isTagChar, Bool.and_eq_true, Bool.not_eq_true'] at h
  exact h.1.1.1

theorem head?_print_append (behind : Text) : (tag.print ++ behind).head? ≠ some '/' := by
  obtain ⟨c, name, hn⟩ := List.exists_cons_of_ne_nil tag.named
  unfold print
  rw [hn]
  rintro ⟨⟩
  exact absurd (tag.plain '/' (hn ▸ List.mem_cons_self)) (by decide)

theorem not_mem_print : '>' ∉ tag.print := by
  intro h
  rcases List.mem_append.1 h with h | h
  · exact absurd (tag.plain '>' h) (by decide)
  rcases List.mem_append.1 h with h | h
  · obtain ⟨a, -, h⟩ := List.mem_flatMap.1 h
    exact a.not_mem_print h
  · exact absurd (tag.blank '>' h) (by decide)

theorem not_mem_print_slash : '>' ∉ tag.print ++ ['/'] := by
  intro h
  rcases List.mem_append.1 h with h | h
  · exact tag.not_mem_print h
  · exact absurd h (by decide)

theorem not_mem_closing {gap : Text} (hg : ∀ c ∈ gap, isBlank c = true) : '>' ∉ tag.closing gap := by
  intro h
  rcases List.mem_cons.1 h with h | h
  · exact absurd h (by decide)
  rcases List.mem_append.1 h with h | h
  · exact absurd (tag.plain '>' h) (by decide)
  · exact absurd (hg '>' h) (by decide)

theorem getLast?_attributes : ∀ (as : List WrittenAttribute) {t : Text}, t.getLast? ≠ some '/' →
    (t ++ as.flatMap WrittenAttribute.print).getLast? ≠ some '/'
  | [], t, h => by rwa [List.flatMap_nil, List.append_nil]
  | a :: as, t, h => by
    rw [List.flatMap_cons, ← List.append_assoc]
    refine getLast?_attributes as ?_
    obtain ⟨c, hc⟩ := Option.ne_none_iff_exists'.1 fun hn => a.word_ne_nil (List.getLast?_eq_none_iff.1 hn)
    have hlast := a.getLast?_word
    unfold WrittenAttribute.print
    rw [List.getLast?_append, List.getLast?_append, hc]
    rwa [hc] at hlast

theorem getLast?_print : tag.print.getLast? ≠ some '/' := by
  have hname : tag.name.getLast? ≠ some '/' := fun h =>
    absurd (tag.plain '/' (List.mem_of_getLast? h)) (by decide)
  have hall := getLast?_attributes tag.attributes hname
  unfold print
  rw [← List.append_assoc, List.getLast?_append]
  cases hg : tag.gap.getLast? with
  | none => exact hall
  | some c =>
    rintro ⟨⟩
    exact absurd (tag.blank '/' (List.mem_of_getLast? hg)) (by decide)

theorem words_attributes : ∀ (as : List WrittenAttribute) (t : Text) {gap : Text}, (∀ c ∈ gap, isBlank c = true) →
    words (t ++ (as.flatMap WrittenAttribute.print ++ gap)) = words t ++ as.map WrittenAttribute.word
  | [], t, gap, hg => by
    rw [List.flatMap_nil, List.nil_append, Text.words_append_blank hg, List.map_nil, List.append_nil]
  | a :: as, t, gap, hg => by
    rw [List.flatMap_cons, WrittenAttribute.print, List.append_assoc, List.append_assoc,
      Text.words_append_gap a.blank a.parted, words_attributes as a.word hg,
      Text.words_eq_singleton a.word_ne_nil a.not_isBlank_word]
    rfl

/-- **The words of a tag are its name and its attributes.** -/
theorem words_print : words tag.print = tag.name :: tag.attributes.map WrittenAttribute.word := by
  unfold print
  rw [words_attributes tag.attributes tag.name tag.blank, Text.words_eq_singleton tag.named tag.not_isBlank_name]
  rfl

/-- **A tag opens its element**, unless nothing can be in that. -/
theorem opened?_print : opened? tag.print = if isVoid tag.name then none else some tag.context := by
  have hlast := tag.getLast?_print
  have hend : dropEnd (· = '/') tag.print = tag.print :=
    dropEnd_eq_self fun c hc => decide_eq_false fun he => hlast (he ▸ hc)
  have hattributes : (tag.attributes.map WrittenAttribute.word).map attributeOf =
      tag.attributes.map WrittenAttribute.toAttribute := by
    rw [List.map_map]
    exact List.map_congr_left fun a _ => a.attributeOf_word
  unfold opened?
  rw [hend, words_print]
  dsimp only
  rw [decide_eq_false hlast, Bool.false_or, hattributes]
  rfl

/-- With a slash at its end it opens none. -/
theorem opened?_slash (t : Text) : opened? (t ++ ['/']) = none := by
  unfold opened?
  rw [List.getLast?_append]
  cases words (dropEnd (· = '/') (t ++ ['/'])) <;> rfl

end WrittenTag

/-! ## What tags open and close -/

theorem afterTag_of_opening {tag : Text} (h : tag.head? ≠ some '/') :
    afterTag openElements tag = (opened? tag).toList ++ openElements := by
  unfold afterTag
  split
  · exact absurd rfl h
  · rfl

namespace WrittenTag

variable (tag : WrittenTag)

theorem afterTag_print : afterTag openElements tag.print =
    if isVoid tag.name then openElements else tag.context :: openElements := by
  have hhead := tag.head?_print_append []
  rw [List.append_nil] at hhead
  rw [afterTag_of_opening hhead, opened?_print]
  cases isVoid tag.name <;> rfl

theorem afterTag_slash : afterTag openElements (tag.print ++ ['/']) = openElements := by
  rw [afterTag_of_opening (tag.head?_print_append ['/']), opened?_slash]
  rfl

/-- **A closing tag closes the innermost element**, if that has its name. -/
theorem afterTag_closing {gap : Text} (hg : ∀ c ∈ gap, isBlank c = true) :
    afterTag (tag.context :: openElements) (tag.closing gap) = openElements := by
  have hname : trimBlank (tag.name ++ gap) = tag.name := by
    obtain ⟨c, name, hn⟩ := List.exists_cons_of_ne_nil tag.named
    have hc : isBlank c = false := tag.not_isBlank_name c (hn ▸ List.mem_cons_self)
    have hfront : (tag.name ++ gap).dropWhile isBlank = tag.name ++ gap :=
      dropWhile_eq_self fun d hd => by
        rw [hn] at hd
        cases hd
        exact hc
    unfold trimBlank
    rw [hfront]
    exact dropEnd_append gap hg fun d hd => tag.not_isBlank_name d (List.mem_of_getLast? hd)
  rw [closing, afterTag, hname, List.dropWhile_cons_of_neg (by simp [context])]

end WrittenTag
end Shorthand.Abbreviation
