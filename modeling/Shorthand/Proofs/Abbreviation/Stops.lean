import Shorthand.Proofs.Abbreviation.Chars
import Shorthand.Proofs.Abbreviation.Parent
import Shorthand.Proofs.Snippet.Guarded
/-!
# Where markup has its stops

A tab stop of markup is the value of an attribute, behind its opening quote, or the content of an element, behind its
opening tag; and markup ends in a tag.  So the snippet that nodes expand to is guarded, if no dollar is in them
(`guarded_expand`).
-/
namespace Shorthand.Abbreviation

open Snippet (Guarded IsGuard writeStop)
open Text (digitsOf)

/-! ## Output -/

namespace Output

variable {a b : Output} {c : Char}

/-- The output can go behind any char. -/
def Continues (a : Output) : Prop := ∀ last stop, ∃ last', Guarded last (a stop).1 last'

/-- The output can go behind any char, and ends in `c`. -/
def EndsIn (c : Char) (a : Output) : Prop := ∀ last stop, Guarded last (a stop).1 (some c)

/-- There is no output, or it can go behind any char and ends in a tag. -/
def IsMarkup (a : Output) : Prop := ∀ stop, (a stop).1 = [] ∨ ∀ last, Guarded last (a stop).1 (some '>')

theorem append_fst (a b : Output) (stop : Nat) : ((a ++ b) stop).1 = (a stop).1 ++ (b (a stop).2).1 := rfl

theorem EndsIn.continues (h : a.EndsIn c) : a.Continues := fun last stop => ⟨_, h last stop⟩

theorem EndsIn.isMarkup (h : a.EndsIn '>') : a.IsMarkup := fun stop => .inr fun last => h last stop

theorem IsMarkup.continues (h : a.IsMarkup) : a.Continues := by
  intro last stop
  rcases h stop with hn | hg
  · rw [hn]
    exact ⟨last, .nil⟩
  · exact ⟨_, hg last⟩

theorem continues_text {t : Text} (h : '$' ∉ t) : (text t).Continues := fun last _ => Guarded.of_plain h last

theorem Continues.append (h : a.Continues) (h' : b.Continues) : (a ++ b).Continues := by
  intro last stop
  obtain ⟨mid, ha⟩ := h last stop
  obtain ⟨last', hb⟩ := h' mid (a stop).2
  exact ⟨last', ha.append hb⟩

theorem Continues.endsIn (h : a.Continues) (h' : b.EndsIn c) : (a ++ b).EndsIn c := by
  intro last stop
  obtain ⟨mid, ha⟩ := h last stop
  exact ha.append (h' mid (a stop).2)

theorem endsIn_text (h : c ≠ '$') : (text [c]).EndsIn c := fun _ _ => .char h .nil

theorem endsIn_text_concat {t : Text} (ht : '$' ∉ t) (hc : c ≠ '$') : (text (t ++ [c])).EndsIn c := by
  intro last stop
  obtain ⟨mid, h⟩ := Guarded.of_plain ht last
  exact h.append (.char hc .nil)

/-- A stop can go behind a guard. -/
theorem EndsIn.append_stop (h : a.EndsIn c) (hc : IsGuard c) : (a ++ .stop).EndsIn c := by
  intro last n
  have hs : Guarded (some c) (writeStop (a n).2 [] ++ []) (some c) := .stop hc .nil
  rw [List.append_nil] at hs
  exact (h last n).append hs

theorem continues_concat : ∀ {as : List Output}, (∀ a ∈ as, a.Continues) → (concat as).Continues
  | [], _ => continues_text List.not_mem_nil
  | _ :: _, h =>
    have ⟨ha, has⟩ := List.forall_mem_cons.1 h
    ha.append (continues_concat has)

theorem isMarkup_nil : (text []).IsMarkup := fun _ => .inl rfl

theorem IsMarkup.append (h : a.IsMarkup) (h' : b.IsMarkup) : (a ++ b).IsMarkup := by
  intro stop
  rw [append_fst]
  rcases h' (a stop).2 with hb | hb
  · rw [hb, List.append_nil]
    exact h stop
  · right
    intro last
    obtain ⟨mid, ha⟩ := h.continues last stop
    exact ha.append (hb mid)

theorem IsMarkup.times (h : a.IsMarkup) : ∀ n, (times n a).IsMarkup
  | 0 => isMarkup_nil
  | n + 1 => h.append (times h n)

end Output

/-! ## Elements -/

open Output

/-- An attribute ends in its closing quote, if its value can go behind the opening one. -/
theorem endsIn_attributeOutput {name : Text} (hn : '$' ∉ name) {value : Output}
    (hv : ∀ {a : Output}, a.EndsIn '"' → (a ++ value).Continues) : (attributeOutput name value).EndsIn '"' := by
  have hopen : (Output.text (' ' :: (name ++ ['=', '"']))).EndsIn '"' := by
    have ht := endsIn_text_concat (t := ' ' :: (name ++ ['='])) (c := '"') (by simp [hn]) (by decide)
    simpa using ht
  exact (hv hopen).endsIn (endsIn_text (by decide))

theorem endsIn_attributeOutput_text {name value : Text} (hn : '$' ∉ name) (hv : '$' ∉ value) :
    (attributeOutput name (.text value)).EndsIn '"' :=
  endsIn_attributeOutput hn fun ha => ha.continues.append (continues_text hv)

theorem endsIn_attributeOutput_stop {name : Text} (hn : '$' ∉ name) : (attributeOutput name .stop).EndsIn '"' :=
  endsIn_attributeOutput hn fun ha => (ha.append_stop (.inl rfl)).continues

theorem not_mem_flatten_intersperse {c : Char} {between : Text} (hb : c ∉ between) :
    ∀ {ts : List Text}, c ∉ ts.flatten → c ∉ (ts.intersperse between).flatten
  | [], _ => List.not_mem_nil
  | [t], h => h
  | t :: t' :: ts, h => by
    rw [List.flatten_cons, List.mem_append, not_or] at h
    have ih := not_mem_flatten_intersperse hb h.2
    simp only [List.intersperse_cons_cons, List.flatten_cons, List.mem_append, not_or]
    exact ⟨h.1, hb, ih⟩

theorem continues_classOutput {classes : List Text} (h : '$' ∉ classes.flatten) : (classOutput classes).Continues := by
  unfold classOutput
  split
  · exact continues_text List.not_mem_nil
  · exact (endsIn_attributeOutput_text (by decide) (not_mem_flatten_intersperse (by decide) h)).continues

theorem endsIn_openingTag {name : Text} {e : Element} (hn : '$' ∉ name) (he : '$' ∉ e.chars) :
    (openingTag name e).EndsIn '>' := by
  simp only [Element.chars, List.mem_append, not_or] at he
  obtain ⟨-, hid, hclasses, hattributes, -⟩ := he
  have hi : (concat (e.id.toList.map fun id => attributeOutput "id".toList (.text id))).Continues := by
    refine continues_concat fun a ha => ?_
    obtain ⟨id, hm, rfl⟩ := List.mem_map.1 ha
    rw [Option.mem_toList] at hm
    rw [hm] at hid
    exact (endsIn_attributeOutput_text (by decide) hid).continues
  have ha : (concat (e.attributes.map fun a => attributeOutput a.1 (a.2.elim .stop .text))).Continues := by
    refine continues_concat fun a ha => ?_
    obtain ⟨⟨name, value⟩, hm, rfl⟩ := List.mem_map.1 ha
    have hm : '$' ∉ name ++ value.getD [] := fun hc => hattributes (List.mem_flatMap.2 ⟨_, hm, hc⟩)
    rw [List.mem_append, not_or] at hm
    cases value with
    | none => exact (endsIn_attributeOutput_stop hm.1).continues
    | some value => exact (endsIn_attributeOutput_text hm.1 hm.2).continues
  have ho : (Output.text ('<' :: name)).Continues := continues_text (by simp [hn])
  exact (((ho.append hi).append (continues_classOutput hclasses)).append ha).endsIn (endsIn_text (by decide))

theorem endsIn_closingTag {name : Text} (hn : '$' ∉ name) : (closingTag name).EndsIn '>' := by
  have ht := endsIn_text_concat (t := '<' :: '/' :: name) (c := '>') (by simp [hn]) (by decide)
  exact ht

/-- An element ends in a tag; a stop in it stands right behind its opening tag. -/
theorem endsIn_elementOutput {name : Text} {e : Element} (hn : '$' ∉ name) (he : '$' ∉ e.chars) (childless : Bool)
    {content : Output} (hc : content.Continues) : (elementOutput name e childless content).EndsIn '>' := by
  have hopen := endsIn_openingTag hn he
  have htext : '$' ∉ e.text.getD [] := by
    simp only [Element.chars, List.mem_append, not_or] at he
    exact he.2.2.2.2
  have hbehind := hopen.continues.append (continues_text htext)
  unfold elementOutput
  split
  · exact hopen
  refine Continues.endsIn ?_ (endsIn_closingTag hn)
  split
  · split
    · next ht =>
      rw [ht]
      have hopen' : (openingTag name e ++ Output.text []).EndsIn '>' := by
        intro last stop
        rw [append_fst]
        exact (List.append_nil _).symm ▸ hopen last stop
      exact (hopen'.append_stop (.inr rfl)).continues
    · exact hbehind.append (continues_text List.not_mem_nil)
  · exact hbehind.append hc

theorem not_mem_usualChild (parent : Option Text) : '$' ∉ usualChild parent := by
  have h : ∀ name ∈ usualChildren, '$' ∉ name := by decide
  exact h _ (usualChild_mem parent)

theorem not_mem_nameIn {e : Element} (he : '$' ∉ e.chars) (parent : Option Text) : '$' ∉ e.nameIn parent := by
  simp only [Element.chars, List.mem_append, not_or] at he
  unfold Element.nameIn
  split
  · exact not_mem_usualChild parent
  · exact he.1

/-! ## Nodes -/

mutual

theorem Node.isMarkup_output (parent : Option Text) : ∀ {n : Node}, '$' ∉ n.chars → (n.output parent).IsMarkup
  | .element e count children, h => by
    simp only [Node.chars, List.mem_append, not_or] at h
    obtain ⟨he, hc⟩ := h
    have hn := not_mem_nameIn he parent
    have hcontent := isMarkup_nodesOutput (some (e.nameIn parent)) hc
    rw [Node.output]
    exact (endsIn_elementOutput hn he _ hcontent.continues).isMarkup.times count
  | .group items count children, h => by
    simp only [Node.chars, List.mem_append, not_or] at h
    rw [Node.output]
    exact ((isMarkup_nodesOutput parent h.1).append (isMarkup_nodesOutput parent h.2)).times count

theorem isMarkup_nodesOutput (parent : Option Text) : ∀ {ns : List Node}, '$' ∉ nodesChars ns →
    (nodesOutput parent ns).IsMarkup
  | [], _ => by
    rw [nodesOutput]
    exact isMarkup_nil
  | n :: ns, h => by
    simp only [nodesChars, List.mem_append, not_or] at h
    rw [nodesOutput]
    exact (Node.isMarkup_output parent h.1).append (isMarkup_nodesOutput parent h.2)

end

/-- **What nodes without a dollar expand to has a guard before each stop and at its end.** -/
theorem guarded_expand {nodes : List Node} {o : Options} {snippet : Text} (h : '$' ∉ nodesChars nodes)
    (he : expand nodes o = .ok snippet) : Guarded none snippet (some '>') := by
  unfold expand at he
  split at he
  · cases he
  · next hn =>
    cases he
    rcases isMarkup_nodesOutput (o.context.map (·.name)) h 1 with hnil | hg
    · exact absurd hnil hn
    · exact hg none

end Shorthand.Abbreviation
