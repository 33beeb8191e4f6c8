import Shorthand.Abbreviation.Reader
import Shorthand.Proofs.Abbreviation.Resolved
/-!
# What an abbreviation says reaches the document

Expanding writes the names, the values and the texts of an abbreviation into a snippet as they are, between angle
brackets, quotes and spaces, which are fences.  So when the snippet is read they come out as they are if each of them does
so by itself (`expand_verbatim`).  Dollars are not escaped: one in front of a digit or an opening brace becomes a tab stop,
and a backslash in front of one is lost (`expand_not_verbatim`).
-/
namespace Shorthand.Abbreviation

open Snippet (Slot Verbatim)
open Snippet.Slot (Apart IsFence isChain_map_char)

/-! ## What is written -/

/-- The name of an element, and the names and the values of its attributes. -/
def Tag.literals (tag : Tag) : List Text := tag.name :: tag.attributes.flatMap fun a => a.1 :: a.2.toList

mutual

/-- All names, values and texts of an element and of what is in it. -/
def Tree.literals : Tree → List Text
  | .void tag => tag.literals
  | .blank tag => tag.literals
  | .filled tag text content => tag.literals ++ text :: treesLiterals content

def treesLiterals : List Tree → List Text
  | [] => []
  | t :: ts => t.literals ++ treesLiterals ts

end

/-! ## What stands between fences -/

section

variable (slots rest : List Slot)

theorem isFence_space : IsFence ' ' := by decide

theorem isFence_equals : IsFence '=' := by decide

theorem isFence_quote : IsFence '"' := by decide

theorem isFence_less : IsFence '<' := by decide

theorem isFence_slash : IsFence '/' := by decide

theorem isFence_greater : IsFence '>' := by decide

theorem isChain_value (value : Option Text) :
    (value.elim [Slot.stop] (·.map .char)).IsChain Apart ↔ ∀ t ∈ value.toList, Verbatim t := by
  cases value with
  | none => exact ⟨fun _ => nofun, fun _ => .singleton _⟩
  | some value =>
    rw [Option.toList_some, List.forall_mem_singleton]
    exact isChain_map_char

theorem isChain_attribute (a : Attribute) : (slots ++ (attributeSlots a ++ rest)).IsChain Apart ↔
    slots.IsChain Apart ∧ (∀ t ∈ a.1 :: a.2.toList, Verbatim t) ∧ rest.IsChain Apart := by
  unfold attributeSlots
  rw [List.cons_append, isFence_space.isChain_append, List.append_assoc, List.cons_append,
    isFence_equals.isChain_append, List.cons_append, isFence_quote.isChain_cons, List.append_assoc,
    List.singleton_append, isFence_quote.isChain_append, isChain_map_char, isChain_value, List.forall_mem_cons, and_assoc]

theorem isChain_attributes (as : List Attribute) :
    (slots ++ (as.flatMap attributeSlots ++ .char '>' :: rest)).IsChain Apart ↔
      slots.IsChain Apart ∧ (∀ t ∈ as.flatMap fun a => a.1 :: a.2.toList, Verbatim t) ∧ rest.IsChain Apart := by
  induction as generalizing slots with
  | nil =>
    rw [List.flatMap_nil, List.flatMap_nil, List.nil_append, isFence_greater.isChain_append]
    simp
  | cons a as ih =>
    have ih := ih []
    rw [List.nil_append] at ih
    rw [List.flatMap_cons, List.flatMap_cons, List.append_assoc, isChain_attribute, ih, List.forall_mem_append]
    simp only [List.isChain_nil, true_and, and_assoc]

theorem isChain_opening (tag : Tag) : (slots ++ (tag.opening ++ rest)).IsChain Apart ↔
    slots.IsChain Apart ∧ (∀ t ∈ tag.literals, Verbatim t) ∧ rest.IsChain Apart := by
  unfold Tag.opening Tag.literals
  rw [List.cons_append, isFence_less.isChain_append, List.append_assoc, List.append_assoc, List.singleton_append,
    isChain_attributes, isChain_map_char, List.forall_mem_cons, and_assoc]

theorem isChain_closing (tag : Tag) : (slots ++ (tag.closing ++ rest)).IsChain Apart ↔
    slots.IsChain Apart ∧ Verbatim tag.name ∧ rest.IsChain Apart := by
  unfold Tag.closing
  rw [List.cons_append, isFence_less.isChain_append, List.cons_append, isFence_slash.isChain_cons, List.append_assoc,
    List.singleton_append, isFence_greater.isChain_append, isChain_map_char]

/-! ## Elements -/

/-- Whatever stands in front of `rest` is kept apart from it. -/
def Walled (rest : List Slot) : Prop :=
  ∀ slots : List Slot, (slots ++ rest).IsChain Apart ↔ slots.IsChain Apart ∧ rest.IsChain Apart

theorem walled_nil : Walled [] := fun slots => by simp

theorem walled_closing (tag : Tag) (rest : List Slot) : Walled (tag.closing ++ rest) := by
  have hc := isChain_closing [] rest tag
  rw [List.nil_append] at hc
  intro slots
  rw [isChain_closing, hc, and_iff_right List.isChain_nil]

mutual

theorem Tree.isChain_slots : ∀ (t : Tree) (slots rest : List Slot), (slots ++ (t.slots ++ rest)).IsChain Apart ↔
    slots.IsChain Apart ∧ (∀ l ∈ t.literals, Verbatim l) ∧ rest.IsChain Apart
  | .void tag, _, _ => by
    rw [Tree.slots, Tree.literals, isChain_opening]
  | .blank tag, _, _ => by
    rw [Tree.slots, Tree.literals, List.append_assoc, isChain_opening, List.cons_append,
      ← List.singleton_append, isChain_closing, and_iff_right (List.isChain_singleton _)]
    constructor
    · exact fun ⟨hs, hl, _, hr⟩ => ⟨hs, hl, hr⟩
    · exact fun ⟨hs, hl, hr⟩ => ⟨hs, hl, hl _ List.mem_cons_self, hr⟩
  | .filled tag text content, _, rest => by
    have hc := isChain_closing [] rest tag
    rw [List.nil_append] at hc
    rw [Tree.slots, Tree.literals, List.append_assoc, isChain_opening, List.append_assoc, List.append_assoc,
      isChain_treesSlots content _ (walled_closing tag rest), hc, isChain_map_char, List.forall_mem_append,
      List.forall_mem_cons]
    constructor
    · exact fun ⟨hs, hl, ht, hn, _, _, hr⟩ => ⟨hs, ⟨hl, ht, hn⟩, hr⟩
    · exact fun ⟨hs, ⟨hl, ht, hn⟩, hr⟩ => ⟨hs, hl, ht, hn, .nil, hl _ List.mem_cons_self, hr⟩

theorem isChain_treesSlots : ∀ (ts : List Tree) (slots : List Slot) {rest : List Slot}, Walled rest →
    ((slots ++ (treesSlots ts ++ rest)).IsChain Apart ↔
      slots.IsChain Apart ∧ (∀ l ∈ treesLiterals ts, Verbatim l) ∧ rest.IsChain Apart)
  | [], slots, _, hr => by
    rw [treesSlots, treesLiterals, List.nil_append, hr slots]
    simp
  | t :: ts, _, rest, hr => by
    have ih := isChain_treesSlots ts [] hr
    rw [List.nil_append, and_iff_right List.isChain_nil] at ih
    rw [treesSlots, treesLiterals, List.append_assoc, Tree.isChain_slots t, ih, List.forall_mem_append, and_assoc]

end

end

/-! ## What expanding writes -/

/-- **What is written for elements is read as it is meant just if every name, value and text of them is, by itself.** -/
theorem pieces_treesSlots_iff (ts : List Tree) :
    Snippet.pieces (Slot.write 1 (treesSlots ts)) = Slot.pieces 1 (treesSlots ts) ↔
      ∀ l ∈ treesLiterals ts, Verbatim l := by
  have hc := isChain_treesSlots ts [] walled_nil
  rw [List.nil_append, List.append_nil, and_iff_right List.isChain_nil, and_iff_left List.isChain_nil] at hc
  rw [Slot.pieces_write_iff, hc]

theorem expand_eq_write {nodes : List Node} {o : Options} {snippet : Text} (h : expand nodes o = .ok snippet) :
    snippet = Slot.write 1 (treesSlots (resolveNodes (o.context.map (·.name)) nodes)) := by
  unfold expand at h
  rw [nodesOutput_eq_ofSlots] at h
  split at h
  · cases h
  · exact (Except.ok.inj h).symm

/-- **What an abbreviation says reaches the document as it is.**  The snippet that nodes expand to is read as the markup
of the elements that they denote just if each name, value and text of these can be written into a snippet as it is; and
then flattening it leaves that markup without its stops, and the caret where the first stop was. -/
theorem expand_verbatim {nodes : List Node} {o : Options} {snippet : Text} (h : expand nodes o = .ok snippet) :
    let elements := resolveNodes (o.context.map (·.name)) nodes
    (Snippet.pieces snippet = Slot.pieces 1 (treesSlots elements) ↔ ∀ l ∈ treesLiterals elements, Verbatim l) ∧
      ((∀ l ∈ treesLiterals elements, Verbatim l) →
        Snippet.flatten snippet = ⟨Slot.text (treesSlots elements), Slot.caret? (treesSlots elements)⟩) := by
  intro elements
  rw [expand_eq_write h]
  refine ⟨pieces_treesSlots_iff elements, fun hl => ?_⟩
  exact Slot.flatten_write_of_apart ((Slot.pieces_write_iff 1 _).1 ((pieces_treesSlots_iff elements).2 hl))

/-- A value and a text with dollars that are no stops, and two stops, of which the one in the opening tag comes first. -/
theorem expand_verbatim_with_dollars :
    let nodes := [Node.element
      { name := "ul".toList, classes := ["a".toList, "b".toList],
        attributes := [("t".toList, some "$x".toList), ("u".toList, none)] } 1
      [.group [.element { name := "li".toList, text := some "$ 5".toList } 2 []] 1 [],
        .element { name := [], classes := ["$".toList] } 1 []]]
    read "ul.a.b[t=\"$x\" u]>(li{$ 5}*2)+.$".toList = .ok nodes ∧
      ∃ snippet, expand nodes {} = .ok snippet ∧ (∀ l ∈ treesLiterals (resolveNodes none nodes), Verbatim l) ∧
        Snippet.flatten snippet = ⟨Slot.text (treesSlots (resolveNodes none nodes)), some 26⟩ ∧
        Slot.text (treesSlots (resolveNodes none nodes)) =
          "<ul class=\"a b\" t=\"$x\" u=\"\"><li>$ 5</li><li>$ 5</li><li class=\"$\"></li></ul>".toList := by
  intro nodes
  have he : expand nodes {} = .ok (nodesOutput none nodes 1).1 := by rfl
  have hl : ∀ l ∈ treesLiterals (resolveNodes none nodes), Verbatim l := by decide +kernel
  have hf := (expand_verbatim he).2 hl
  have hc : Slot.caret? (treesSlots (resolveNodes none nodes)) = some 26 := by decide +kernel
  refine ⟨by rfl, _, he, hl, ?_, by decide +kernel⟩
  rw [← hc]
  exact hf

/-- **A dollar of a text may become a tab stop**: the text `$5` is no text of the markup but a place in it. -/
theorem expand_not_verbatim :
    ¬ ∀ (a : Text) (nodes : List Node) (o : Options) (snippet : Text), read a = .ok nodes →
      expand nodes o = .ok snippet →
        let elements := resolveNodes (o.context.map (·.name)) nodes
        Snippet.flatten snippet = ⟨Slot.text (treesSlots elements), Slot.caret? (treesSlots elements)⟩ := by
  intro h
  have hf := h "p{$5}".toList [.element { name := "p".toList, text := some "$5".toList } 1 []] {}
    "<p>$5</p>".toList (by rfl) (by rfl)
  revert hf
  decide +kernel

end Shorthand.Abbreviation
