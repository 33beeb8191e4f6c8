import Shorthand.Proofs.Abbreviation.Tags
/-!
# The enclosing element is the innermost open one

A document is written as markup: texts, tags without content and elements, each between its two tags with other markup
in it (`Markup`).  The scan of the tags in front of an offset comes to the elements that are open there, those whose
opening tag ends at the offset or before and whose closing tag does not (`scan_printAll`): an element is put on top of
the open ones behind its opening tag, what is in it has been taken off again where its closing tag ends, and that takes
the element itself off.  So what is found is the innermost of them (`enclosing?_markup`), wherever the offset is.
-/
namespace Shorthand.Abbreviation

open Text (isBlank)

/-! ## Markup -/

/-- **A piece of well-nested markup**: text, a tag that is void or closed by a slash, or an element. -/
inductive Markup where
  | text (t : Text) (plain : '<' ∉ t)
  | single (tag : WrittenTag) (slash : Bool) (childless : slash = true ∨ isVoid tag.name = true)
  | element (tag : WrittenTag) (content : List Markup) (gap : Text) (filled : isVoid tag.name = false)
      (blank : ∀ c ∈ gap, isBlank c = true)

mutual

def Markup.print : Markup → Text
  | .text t _ => t
  | .single tag slash _ => bracketed (if slash then tag.print ++ ['/'] else tag.print)
  | .element tag content gap _ _ => bracketed tag.print ++ (printAll content ++ bracketed (tag.closing gap))

def printAll : List Markup → Text
  | [] => []
  | m :: ms => m.print ++ printAll ms

end

theorem length_element (tag : WrittenTag) (content : List Markup) {gap : Text} (filled : isVoid tag.name = false)
    (blank : ∀ c ∈ gap, isBlank c = true) : (Markup.element tag content gap filled blank).print.length =
      (bracketed tag.print).length + ((printAll content).length + (bracketed (tag.closing gap)).length) := by
  rw [Markup.print, List.length_append, List.length_append]

/-! ## Where elements are -/

/-- An element of a document: its opening tag ends at `opened`, its closing tag at `closed`. -/
structure Placed where
  context : Context
  opened : Nat
  closed : Nat
  deriving DecidableEq, Repr

namespace Placed

/-- The element is open at `pos`: its opening tag ends there or before, and its closing tag does not. -/
def isOpenAt (e : Placed) (pos : Nat) : Bool := e.opened ≤ pos && pos < e.closed

/-- `e'` is within `e`. -/
def Encloses (e e' : Placed) : Prop := e.opened ≤ e'.opened ∧ e'.closed ≤ e.closed

instance (e e' : Placed) : Decidable (e.Encloses e') :=
  inferInstanceAs (Decidable (e.opened ≤ e'.opened ∧ e'.closed ≤ e.closed))

/-- `e` opens before `e'`, which is within it or behind it. -/
def Precedes (e e' : Placed) : Prop := e.opened < e'.opened ∧ (e'.closed ≤ e.closed ∨ e.closed ≤ e'.opened)

end Placed

mutual

/-- The elements of a piece of markup that stands at an offset, in the order of their opening tags. -/
def Markup.placed : Nat → Markup → List Placed
  | _, .text .. => []
  | _, .single .. => []
  | start, .element tag content gap filled blank =>
    let opened := start + (bracketed tag.print).length
    ⟨tag.context, opened, start + (Markup.element tag content gap filled blank).print.length⟩ ::
      placedAll opened content

def placedAll : Nat → List Markup → List Placed
  | _, [] => []
  | start, m :: ms => m.placed start ++ placedAll (start + m.print.length) ms

end

/-- **`e` is the innermost of the elements open at `pos`.** -/
def Innermost (es : List Placed) (pos : Nat) (e : Placed) : Prop :=
  e ∈ es ∧ e.isOpenAt pos = true ∧ ∀ e' ∈ es, e'.isOpenAt pos = true → e'.Encloses e

instance (es : List Placed) (pos : Nat) (e : Placed) : Decidable (Innermost es pos e) :=
  inferInstanceAs (Decidable (e ∈ es ∧ e.isOpenAt pos = true ∧ ∀ e' ∈ es, e'.isOpenAt pos = true → e'.Encloses e))

variable {a body : Text} {start pos : Nat} {es es' : List Placed} {e : Placed}

/-! ## In front of, within and behind -/

mutual

theorem Markup.within_of_mem_placed : ∀ {start : Nat} {m : Markup}, e ∈ m.placed start →
    start < e.opened ∧ e.opened < e.closed ∧ e.closed ≤ start + m.print.length
  | _, .text .., h => nomatch h
  | _, .single .., h => nomatch h
  | start, .element tag content gap filled blank, h => by
    have hlen := length_element tag content filled blank
    rw [length_bracketed, length_bracketed] at hlen
    rcases List.mem_cons.1 h with rfl | h
    · dsimp only
      rw [length_bracketed]
      omega
    · have hin := within_of_mem_placedAll h
      rw [length_bracketed] at hin
      omega

/-- **The elements of a document lie in it.** -/
theorem within_of_mem_placedAll : ∀ {start : Nat} {ms : List Markup}, e ∈ placedAll start ms →
    start < e.opened ∧ e.opened < e.closed ∧ e.closed ≤ start + (printAll ms).length
  | _, [], h => nomatch h
  | start, m :: ms, h => by
    have hlen : (printAll (m :: ms)).length = m.print.length + (printAll ms).length := by
      rw [printAll, List.length_append]
    rcases List.mem_append.1 h with h | h
    · have hin := m.within_of_mem_placed h
      omega
    · have hin := within_of_mem_placedAll h
      omega

end

mutual

theorem Markup.pairwise_placed : ∀ (start : Nat) (m : Markup), (m.placed start).Pairwise Placed.Precedes
  | _, .text .. => .nil
  | _, .single .. => .nil
  | start, .element tag content gap filled blank => by
    refine .cons (fun e he => ?_) (pairwise_placedAll _ content)
    have hin := within_of_mem_placedAll he
    have hlen := length_element tag content filled blank
    exact ⟨hin.1, .inl (by dsimp only; omega)⟩

/-- **Of two elements one is within the other or behind it.** -/
theorem pairwise_placedAll : ∀ (start : Nat) (ms : List Markup), (placedAll start ms).Pairwise Placed.Precedes
  | _, [] => .nil
  | start, m :: ms => by
    refine List.pairwise_append.2 ⟨m.pairwise_placed start, pairwise_placedAll _ ms, fun e he e' he' => ?_⟩
    have hin := m.within_of_mem_placed he
    have hin' := within_of_mem_placedAll he'
    exact ⟨by omega, .inr (by omega)⟩

end

/-- Of two elements open at the same place one is within the other. -/
theorem Placed.Precedes.encloses {e' : Placed} (h : e.Precedes e') (ho : e.isOpenAt pos = true)
    (ho' : e'.isOpenAt pos = true) : e.Encloses e' := by
  obtain ⟨hlt, hle⟩ := h
  simp only [isOpenAt, Bool.and_eq_true, decide_eq_true_eq] at ho ho'
  exact ⟨Nat.le_of_lt hlt, hle.resolve_right (by omega)⟩

/-- The open element that opens last is within all that are open. -/
theorem innermost_of_getLast? (h : es.Pairwise Placed.Precedes)
    (hl : (es.filter (·.isOpenAt pos)).getLast? = some e) : Innermost es pos e := by
  obtain ⟨outer, ho⟩ := List.getLast?_eq_some_iff.1 hl
  have hp := h.filter (·.isOpenAt pos)
  rw [ho] at hp
  obtain ⟨hmem, hopen⟩ := List.mem_filter.1 (List.mem_of_getLast? hl)
  refine ⟨hmem, hopen, fun e' he' hopen' => ?_⟩
  have hin : e' ∈ outer ++ [e] := ho ▸ List.mem_filter.2 ⟨he', hopen'⟩
  rcases List.mem_append.1 hin with hin | hin
  · exact ((List.pairwise_append.1 hp).2.2 e' hin e List.mem_cons_self).encloses hopen' hopen
  · rw [List.mem_singleton.1 hin]
    exact ⟨Nat.le_refl _, Nat.le_refl _⟩

/-- **The innermost of the open elements is the one that opens last.** -/
theorem getLast?_open_iff (h : es.Pairwise Placed.Precedes) :
    (es.filter (·.isOpenAt pos)).getLast? = some e ↔ Innermost es pos e := by
  refine ⟨innermost_of_getLast? h, fun ⟨hmem, hopen, hall⟩ => ?_⟩
  have hin : e ∈ es.filter (·.isOpenAt pos) := List.mem_filter.2 ⟨hmem, hopen⟩
  obtain ⟨e', hl⟩ := Option.ne_none_iff_exists'.1 fun hn => List.ne_nil_of_mem hin (List.getLast?_eq_none_iff.1 hn)
  obtain ⟨outer, ho⟩ := List.getLast?_eq_some_iff.1 hl
  have hp := h.filter (·.isOpenAt pos)
  rw [ho] at hin hp
  rcases List.mem_append.1 hin with hin | hin
  · -- the one that opens last is within `e`, so that `e` does not open before it
    have hlt := ((List.pairwise_append.1 hp).2.2 e hin e' List.mem_cons_self).1
    obtain ⟨hmem', hopen', -⟩ := innermost_of_getLast? h hl
    have hle := (hall e' hmem' hopen').1
    omega
  · rw [hl, List.mem_singleton.1 hin]

/-! ## Scanning -/

/-- The elements open behind `t`, the innermost first, where `openElements` are open in front of it. -/
def scan (openElements : List Context) (t : Text) : List Context := (tags t).foldl afterTag openElements

/-- `t` ends outside of any tag: what is behind it is scanned as if it stood alone. -/
def Complete (t : Text) : Prop := ∀ behind, tags (t ++ behind) = tags t ++ tags behind

theorem complete_bracketed (h : '>' ∉ body) : Complete (bracketed body) := by
  intro behind
  rw [tags_bracketed_append h, tags_bracketed h]
  rfl

theorem complete_plain (h : '<' ∉ a) : Complete a := by
  intro behind
  rw [tags_append_of_plain h, tags_of_plain h]
  rfl

theorem Complete.append {b : Text} (ha : Complete a) (hb : Complete b) : Complete (a ++ b) := by
  intro behind
  rw [List.append_assoc, ha, hb, ha, List.append_assoc]

mutual

theorem Markup.complete_print : ∀ m : Markup, Complete m.print
  | .text t plain => complete_plain plain
  | .single tag slash _ => by
    refine complete_bracketed ?_
    cases slash with
    | true => exact tag.not_mem_print_slash
    | false => exact tag.not_mem_print
  | .element tag content gap _ blank =>
    (complete_bracketed tag.not_mem_print).append
      ((complete_printAll content).append (complete_bracketed (tag.not_mem_closing blank)))

theorem complete_printAll : ∀ ms : List Markup, Complete (printAll ms)
  | [] => complete_plain List.not_mem_nil
  | m :: ms => m.complete_print.append (complete_printAll ms)

end

/-- A text cut off within its second part is scanned part by part. -/
theorem scan_take_append (ha : Complete a) (openElements : List Context) (b : Text) (k : Nat) :
    scan openElements ((a ++ b).take k) = scan (scan openElements (a.take k)) (b.take (k - a.length)) := by
  rw [List.take_append]
  by_cases hk : k ≤ a.length
  · rw [Nat.sub_eq_zero_of_le hk, List.take_zero, List.append_nil]
    rfl
  · rw [List.take_of_length_le (Nat.le_of_not_le hk)]
    unfold scan
    rw [ha, List.foldl_append]

/-- A tag counts once it is there as a whole. -/
theorem scan_take_bracketed (h : '>' ∉ body) (openElements : List Context) (k : Nat) :
    scan openElements ((bracketed body).take k) =
      if (bracketed body).length ≤ k then afterTag openElements body else openElements := by
  unfold scan
  split
  · next hk =>
    rw [List.take_of_length_le hk, tags_bracketed h]
    rfl
  · next hk =>
    rw [tags_take_bracketed h (Nat.lt_of_not_le hk)]
    rfl

/-- The elements open at `pos`, innermost first. -/
def openAt (pos : Nat) (es : List Placed) : List Context := ((es.filter (·.isOpenAt pos)).map (·.context)).reverse

theorem openAt_append (pos : Nat) (es es' : List Placed) :
    openAt pos (es ++ es') = openAt pos es' ++ openAt pos es := by
  unfold openAt
  rw [List.filter_append, List.map_append, List.reverse_append]

theorem openAt_cons (pos : Nat) (e : Placed) (es : List Placed) :
    openAt pos (e :: es) = openAt pos es ++ if e.isOpenAt pos then [e.context] else [] := by
  rw [← List.singleton_append, openAt_append]
  unfold openAt
  cases h : e.isOpenAt pos <;> simp [h]

/-- No element is open behind the document. -/
theorem openAt_of_length_le {ms : List Markup} (h : start + (printAll ms).length ≤ pos) :
    openAt pos (placedAll start ms) = [] := by
  have hnone : (placedAll start ms).filter (·.isOpenAt pos) = [] := by
    rw [List.filter_eq_nil_iff]
    intro e he ho
    have hin := within_of_mem_placedAll he
    simp only [Placed.isOpenAt, Bool.and_eq_true, decide_eq_true_eq] at ho
    omega
  unfold openAt
  rw [hnone]
  rfl

mutual

/-- The scan of a piece of markup up to `pos`: an element comes on top of the open ones with its opening tag and goes
with its closing tag, the elements in it having gone before. -/
theorem Markup.scan_print (pos : Nat) : ∀ (start : Nat) (m : Markup) (openElements : List Context),
    scan openElements (m.print.take (pos - start)) = openAt pos (m.placed start) ++ openElements
  | start, .text t plain, openElements => by
    rw [Markup.print]
    unfold scan
    rw [tags_of_plain fun h => plain (List.mem_of_mem_take h)]
    rfl
  | start, .single tag slash childless, openElements => by
    rw [Markup.print]
    cases slash with
    | true =>
      rw [if_pos rfl, scan_take_bracketed tag.not_mem_print_slash, tag.afterTag_slash, ite_self]
      rfl
    | false =>
      have hvoid := childless.resolve_left Bool.false_ne_true
      rw [if_neg Bool.false_ne_true, scan_take_bracketed tag.not_mem_print, tag.afterTag_print, if_pos hvoid, ite_self]
      rfl
  | start, .element tag content gap filled blank, openElements => by
    have hcontent := scan_printAll pos (start + (bracketed tag.print).length) content
    rw [← Nat.sub_sub] at hcontent
    rw [Markup.placed, openAt_cons, length_element, Markup.print,
      scan_take_append (complete_bracketed tag.not_mem_print), scan_take_append (complete_printAll content),
      scan_take_bracketed tag.not_mem_print, hcontent, scan_take_bracketed (tag.not_mem_closing blank),
      tag.afterTag_print, filled]
    unfold Placed.isOpenAt
    have hopening := length_bracketed tag.print
    have hclosing := length_bracketed (tag.closing gap)
    dsimp only
    by_cases hopened : start + (bracketed tag.print).length ≤ pos
    · rw [if_pos (show (bracketed tag.print).length ≤ pos - start by omega), if_neg Bool.false_ne_true,
        decide_eq_true hopened, Bool.true_and]
      by_cases hclosed : pos < start + ((bracketed tag.print).length +
          ((printAll content).length + (bracketed (tag.closing gap)).length))
      · rw [if_neg (by omega), if_pos (decide_eq_true hclosed), List.append_assoc, List.singleton_append]
      · -- nothing in the element is open any more where it is closed
        rw [if_pos (by omega), openAt_of_length_le (by omega), List.nil_append, tag.afterTag_closing blank,
          if_neg (by simpa using hclosed)]
        rfl
    · rw [if_neg (show ¬ (bracketed tag.print).length ≤ pos - start by omega), if_neg (by omega),
        decide_eq_false hopened, Bool.false_and, if_neg Bool.false_ne_true, List.append_nil]

/-- **The scan of a document up to `pos` comes to the elements open there.** -/
theorem scan_printAll (pos : Nat) : ∀ (start : Nat) (ms : List Markup) (openElements : List Context),
    scan openElements ((printAll ms).take (pos - start)) = openAt pos (placedAll start ms) ++ openElements
  | start, [], openElements => by
    rw [printAll, List.take_nil]
    rfl
  | start, m :: ms, openElements => by
    rw [printAll, scan_take_append m.complete_print, m.scan_print pos start, Nat.sub_sub, scan_printAll pos _ ms,
      placedAll, openAt_append, List.append_assoc]

end

theorem innermost?_take_printAll (doc : List Markup) (pos : Nat) : innermost? ((printAll doc).take pos) =
    ((placedAll 0 doc).filter (·.isOpenAt pos)).getLast?.map (·.context) := by
  have hscan := scan_printAll pos 0 doc []
  rw [Nat.sub_zero, List.append_nil] at hscan
  change (scan [] ((printAll doc).take pos)).head? = _
  rw [hscan]
  unfold openAt
  rw [List.head?_reverse, List.getLast?_map]

/-- **The enclosing element is the innermost of those open at the offset**, and there is none where none is open. -/
theorem enclosing?_markup (doc : List Markup) (pos : Nat) (dialect : String) :
    if dialect ∈ ["css", "scss", "less"] then enclosing? (printAll doc) pos dialect = none
    else
      (∀ c, enclosing? (printAll doc) pos dialect = some c ↔
        ∃ e, Innermost (placedAll 0 doc) pos e ∧ e.context = c) ∧
      (enclosing? (printAll doc) pos dialect = none ↔ ∀ e ∈ placedAll 0 doc, e.isOpenAt pos = false) := by
  unfold enclosing?
  by_cases hd : dialect ∈ ["css", "scss", "less"]
  · rw [if_pos hd]
    exact if_pos (List.contains_iff_mem.2 hd)
  have hplain : ¬ plainDialects.contains dialect = true := fun h => hd (List.contains_iff_mem.1 h)
  rw [if_neg hd, if_neg hplain, innermost?_take_printAll]
  constructor
  · intro c
    simp only [Option.map_eq_some_iff, getLast?_open_iff (pairwise_placedAll 0 doc)]
  · rw [Option.map_eq_none_iff, List.getLast?_eq_none_iff, List.filter_eq_nil_iff]
    simp only [Bool.not_eq_true]

/-- In an item with an attribute, behind a stray bracket and a void tag; and in front of where the list opens. -/
theorem enclosing?_markup_in_item :
    let id : WrittenAttribute := ⟨[' '], "id".toList, some "a".toList, List.all_eq_true.1 rfl, nofun,
      List.all_eq_true.1 rfl, nofun, fun | _, rfl => List.all_eq_true.1 rfl⟩
    let br : WrittenTag := ⟨"br".toList, [], [], List.all_eq_true.1 rfl, nofun, nofun⟩
    let li : WrittenTag := ⟨"li".toList, [id], [], List.all_eq_true.1 rfl, nofun, nofun⟩
    let ul : WrittenTag := ⟨"ul".toList, [], [], List.all_eq_true.1 rfl, nofun, nofun⟩
    let item : Markup := .element li [.text "x> y".toList (by decide), .single br false (.inr rfl)] [' '] rfl
      (List.all_eq_true.1 rfl)
    let doc : List Markup := [.element ul [item] [] rfl nofun]
    printAll doc = "<ul><li id=\"a\">x> y<br></li ></ul>".toList ∧
      enclosing? (printAll doc) 23 "html" = some ⟨"li".toList, [("id".toList, some "a".toList)]⟩ ∧
      enclosing? (printAll doc) 3 "html" = none := by
  intro id br li ul item doc
  have hin : Innermost (placedAll 0 doc) 23 ⟨li.context, 15, 29⟩ := by decide +kernel
  have hout : ∀ e ∈ placedAll 0 doc, e.isOpenAt 3 = false := by decide +kernel
  have hitem := enclosing?_markup doc 23 "html"
  have hfront := enclosing?_markup doc 3 "html"
  rw [if_neg (by decide)] at hitem hfront
  exact ⟨by decide +kernel, (hitem.1 _).2 ⟨_, hin, rfl⟩, hfront.2.2 hout⟩

end Shorthand.Abbreviation
