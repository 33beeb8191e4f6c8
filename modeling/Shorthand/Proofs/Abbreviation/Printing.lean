import Shorthand.Proofs.Abbreviation.Chain
import Shorthand.Proofs.Abbreviation.Reading
/-!
# Printing abbreviations

`print` writes the nodes of a tree out as an abbreviation, each with its count, the attribute values in quotes and the
operators as `Chain.ofNodes` has them.  Nothing is lost in it: reading gives the nodes back, if they are `WellFormed`,
and whatever is read is (`read_print`).
-/
namespace Shorthand.Abbreviation

open Text (decimal digitsOf decimal_digitsOf isDigit_of_mem_digitsOf)

variable {s s' left : Text}

/-! ## Printing -/

/-- The quotes for an attribute value. -/
def quoteOf (value : Text) : Char := if '"' ∈ value then '\'' else '"'

def printAttribute : Attribute → Text
  | (name, none) => name
  | (name, some value) => name ++ '=' :: quoteOf value :: (value ++ [quoteOf value])

/-- The attributes and the bracket that closes their list. -/
def printAttributes : List Attribute → Text
  | [] => [']']
  | [a] => printAttribute a ++ [']']
  | a :: as => printAttribute a ++ ' ' :: printAttributes as

namespace Element

def printId (id : Option Text) : Text := id.elim [] ('#' :: ·)

def printClasses (classes : List Text) : Text := classes.flatMap ('.' :: ·)

/-- The attributes in brackets, which stand alone for an element that has nothing. -/
def printList (e : Element) : Text :=
  if e.attributes = [] ∧ e ≠ { name := [] } then [] else '[' :: printAttributes e.attributes

def printText (text : Option Text) : Text := text.elim [] fun t => '\x7b' :: (t ++ ['\x7d'])

def printParts (e : Element) : Text := printId e.id ++ (printClasses e.classes ++ (e.printList ++ printText e.text))

def print (e : Element) : Text := e.name ++ e.printParts

end Element

def Operator.print : Operator → Text
  | .sibling => ['+']
  | .child => ['>']
  | .climb levels => List.replicate levels '^'

def printCount (count : Nat) : Text := '*' :: digitsOf count

mutual

def Node.print : Node → Text
  | .element e count children => e.print ++ (printCount count ++ printSteps .child children)
  | .group items count children => '(' :: (print items ++ ')' :: (printCount count ++ printSteps .child children))

/-- Siblings, with the operator leading to the first. -/
def printSteps : Operator → List Node → Text
  | _, [] => []
  | o, n :: ns => o.print ++ (n.print ++ printSteps n.next ns)

/-- **Nodes printed** as an abbreviation. -/
def print : List Node → Text
  | [] => []
  | n :: ns => n.print ++ printSteps n.next ns

end

/-! ## Well-formed trees -/

/-- `t` can be the name of something. -/
def IsWord (t : Text) : Prop := IsRun t ∧ t ≠ []

/-- `value` can be in quotes. -/
def IsQuotable (value : Text) : Prop := '\n' ∉ value ∧ ¬('"' ∈ value ∧ '\'' ∈ value)

structure Element.WellFormed (e : Element) : Prop where
  name : IsRun e.name
  id : ∀ id ∈ e.id, IsWord id
  classes : ∀ name ∈ e.classes, IsWord name
  attributes : ∀ a ∈ e.attributes, IsWord a.1 ∧ ∀ value ∈ a.2, IsQuotable value
  text : ∀ text ∈ e.text, '\x7d' ∉ text ∧ '\n' ∉ text

inductive Node.WellFormed : Node → Prop
  | element {e : Element} {count : Nat} {children : List Node} (element : e.WellFormed) (positive : 0 < count)
      (bounded : count ≤ maxOffset) (below : ∀ n ∈ children, n.WellFormed) : WellFormed (.element e count children)
  | group {items : List Node} {count : Nat} {children : List Node} (inside : ∀ n ∈ items, n.WellFormed)
      (positive : 0 < count) (bounded : count ≤ maxOffset) (below : ∀ n ∈ children, n.WellFormed) :
      WellFormed (.group items count children)

/-- **There is something, and every node can be printed.** -/
def WellFormed (nodes : List Node) : Prop := nodes ≠ [] ∧ ∀ n ∈ nodes, n.WellFormed

/-! ## What is printed spells what was printed -/

theorem IsQuotable.spells {value : Text} (h : IsQuotable value) (left : Text) :
    SpellsValue (quoteOf value :: (value ++ quoteOf value :: left)) value left := by
  unfold quoteOf
  split
  · next hd =>
    refine .quoted (.inr rfl) fun c hc => ⟨?_, ?_⟩ <;> rintro rfl
    · exact h.2 ⟨hd, hc⟩
    · exact h.1 hc
  · next hd =>
    refine .quoted (.inl rfl) fun c hc => ⟨?_, ?_⟩ <;> rintro rfl
    · exact hd hc
    · exact h.1 hc

theorem spells_printAttribute {a : Attribute} (hn : IsWord a.1) (hv : ∀ value ∈ a.2, IsQuotable value) (left : Text) :
    SpellsAttribute (printAttribute a ++ left) a left := by
  rcases a with ⟨name, _ | value⟩
  · exact .bare hn.1 hn.2
  · have h := (hv value rfl).spells left
    simpa [printAttribute] using SpellsAttribute.valued hn.1 hn.2 h

theorem spells_printAttributes {as : List Attribute}
    (h : ∀ a ∈ as, IsWord a.1 ∧ ∀ value ∈ a.2, IsQuotable value) (left : Text) :
    SpellsAttributes (printAttributes as ++ left) as left := by
  induction as with
  | nil => exact .close
  | cons a as ih =>
    obtain ⟨hn, hv⟩ := h a List.mem_cons_self
    have ih := ih fun b hb => h b (List.mem_cons_of_mem a hb)
    cases as with
    | nil =>
      have ha := spells_printAttribute hn hv (']' :: left)
      simpa [printAttributes] using SpellsAttributes.cons ha (.inr rfl) .close
    | cons b as =>
      have ha := spells_printAttribute hn hv (' ' :: (printAttributes (b :: as) ++ left))
      simpa [printAttributes] using SpellsAttributes.cons ha (.inl rfl) ih.space

namespace SpellsParts

variable {e e' : Element}

theorem printId {id : Option Text} (h : ∀ name ∈ id, IsWord name)
    (rest : SpellsParts { e with id := id.or e.id } s e' left) : SpellsParts e (Element.printId id ++ s) e' left := by
  cases id with
  | none => exact rest
  | some name => exact .id (h name rfl).1 (h name rfl).2 rest

theorem printClasses {names : List Text} (h : ∀ name ∈ names, IsWord name)
    (rest : SpellsParts { e with classes := e.classes ++ names } s e' left) :
    SpellsParts e (Element.printClasses names ++ s) e' left := by
  induction names generalizing e with
  | nil =>
    rw [List.append_nil] at rest
    exact rest
  | cons name names ih =>
    obtain ⟨hr, hn⟩ := h name List.mem_cons_self
    have hrest := ih (e := { e with classes := e.classes ++ [name] }) (fun n hm => h n (List.mem_cons_of_mem name hm))
      (by simpa using rest)
    simpa [Element.printClasses] using className hr hn hrest

theorem printList {d : Element} (h : ∀ a ∈ d.attributes, IsWord a.1 ∧ ∀ value ∈ a.2, IsQuotable value)
    (rest : SpellsParts { e with attributes := e.attributes ++ d.attributes } s e' left) :
    SpellsParts e (d.printList ++ s) e' left := by
  unfold Element.printList
  split
  · next hd =>
    rw [hd.1, List.append_nil] at rest
    exact rest
  · exact .attributes (spells_printAttributes h s) rest

theorem printText {text : Option Text} (h : ∀ t ∈ text, '\x7d' ∉ t ∧ '\n' ∉ t)
    (rest : SpellsParts { e with text := text.or e.text } s e' left) :
    SpellsParts e (Element.printText text ++ s) e' left := by
  cases text with
  | none => exact rest
  | some t =>
    obtain ⟨hb, hl⟩ := h t rfl
    have inside : ∀ c ∈ t, c ≠ '\x7d' ∧ c ≠ '\n' := fun c hc => ⟨fun he => hb (he ▸ hc), fun he => hl (he ▸ hc)⟩
    simpa [Element.printText] using SpellsParts.text inside rest

end SpellsParts

/-- An element is printed as something, one without anything as brackets. -/
theorem Element.print_ne_nil (e : Element) : e.print ≠ [] := by
  intro h
  simp only [print, printParts, List.append_eq_nil_iff] at h
  obtain ⟨name, id, classes, attributes, text⟩ := e
  obtain ⟨hn, hi, hc, hl, ht⟩ := h
  cases id with
  | some id => cases hi
  | none =>
    cases classes with
    | cons name classes => cases hc
    | nil =>
      cases text with
      | some text => cases ht
      | none =>
        unfold printList at hl
        split at hl
        · next hd =>
          cases hd.1
          cases hn
          exact hd.2 rfl
        · cases hl

theorem Element.WellFormed.spells {e : Element} (h : e.WellFormed) (s : Text) : SpellsElement (e.print ++ s) e s := by
  have he : SpellsParts { name := e.name } (e.printParts ++ s) e s := by
    unfold Element.printParts
    simp only [List.append_assoc]
    refine .printId h.id (.printClasses h.classes (.printList h.attributes (.printText h.text ?_)))
    simp only [Option.or_none, List.nil_append]
    exact .done
  have hs : e.name ≠ [] ∨ e.printParts ++ s ≠ s := by
    have hne := e.print_ne_nil
    rw [Element.print, Ne, List.append_eq_nil_iff, Decidable.not_and_iff_or_not] at hne
    exact hne.imp_right fun hp he => hp (List.append_left_eq_self.1 he)
  simpa [Element.print] using SpellsElement.parts h.name he hs

theorem spells_printCount {count : Nat} (hp : 0 < count) (hb : count ≤ maxOffset) (s : Text) :
    SpellsCount (printCount count ++ s) count s := by
  have hd : ∀ c ∈ digitsOf count, c.isDigit = true := fun _ hc => isDigit_of_mem_digitsOf hc
  have h : SpellsCount (printCount count ++ s) (decimal (digitsOf count)) s :=
    .times hd (by rwa [decimal_digitsOf]) (by rwa [decimal_digitsOf])
  rwa [decimal_digitsOf] at h

theorem Node.spells_next (n : Node) (s : Text) : SpellsOperator (n.next.print ++ s) n.next s := by
  unfold Node.next
  split
  · exact .sibling
  · exact .climb _ (by omega)

/-- **Printed in front of steps, the node and what is below it come before them**; their operators tell where, whatever
the levels that are left open. -/
def Node.Prints (n : Node) : Prop := ∀ {more : List (Operator × Node)} {s left : Text}, Spells (.steps more) s left →
  Spells (.chain ⟨n.alone, n.descent ++ more⟩) (n.print ++ s) left

/-- Printed siblings spell the steps through them, if all of them print well and the operator does. -/
theorem spells_printSteps {o : Operator} {ns : List Node} (ho : ∀ s, SpellsOperator (o.print ++ s) o s)
    (h : ∀ n ∈ ns, n.Prints) {more : List (Operator × Node)} (hs : Spells (.steps more) s left) :
    Spells (.steps (Node.stepsThrough o ns ++ more)) (printSteps o ns ++ s) left := by
  induction ns generalizing o with
  | nil => simpa [Node.stepsThrough, printSteps] using hs
  | cons n ns ih =>
    have hn := h n List.mem_cons_self (ih n.spells_next fun m hm => h m (List.mem_cons_of_mem n hm))
    cases hn with
    | chain first more =>
      simpa [Node.stepsThrough, printSteps] using Spells.step (ho _) first more

theorem spells_print {n : Node} {ns : List Node} (h : ∀ m ∈ n :: ns, m.Prints) (s : Text) :
    Spells (.chain (.ofNodes n ns)) (print (n :: ns) ++ s) s := by
  have hs := spells_printSteps n.spells_next (fun m hm => h m (List.mem_cons_of_mem n hm)) (.stay (s := s))
  simpa [print, Chain.ofNodes] using h n List.mem_cons_self hs

theorem Node.WellFormed.prints {n : Node} (h : n.WellFormed) : n.Prints := by
  induction h with
  | @element e count children element positive bounded _ ih =>
    intro more s left hs
    have hb := spells_printSteps (o := .child) (fun _ => .child) ih hs
    have hn := Spells.element (element.spells _) (spells_printCount positive bounded (printSteps .child children ++ s))
    simpa [Node.print, Node.alone, Node.descent] using hn.chain hb
  | @group items count children _ positive bounded _ inside ih =>
    intro more s left hs
    have hb := spells_printSteps (o := .child) (fun _ => .child) ih hs
    have hc := spells_printCount positive bounded (printSteps .child children ++ s)
    have hn : Spells (.term (.group items count [])) ('(' :: (Abbreviation.print items ++ ')' ::
        (printCount count ++ (printSteps .child children ++ s)))) (printSteps .child children ++ s) := by
      cases items with
      | nil => exact .emptyGroup hc
      | cons n ns =>
        have hg := Spells.group (spells_print inside _) hc
        rwa [Chain.assemble_ofNodes] at hg
    simpa [Node.print, Node.alone, Node.descent] using hn.chain hb

/-- Well-formed nodes are read back from what they are printed as. -/
theorem WellFormed.read_back {nodes : List Node} (h : WellFormed nodes) : read (print nodes) = .ok nodes := by
  obtain ⟨hne, hwf⟩ := h
  obtain ⟨n, ns, rfl⟩ := List.exists_cons_of_ne_nil hne
  have hs := spells_print (fun m hm => (hwf m hm).prints) []
  rw [List.append_nil] at hs
  exact read_eq_ok_iff.2 ⟨_, hs, Chain.assemble_ofNodes n ns⟩

/-! ## What is spelled is well formed -/

theorem SpellsValue.isQuotable {value : Text} (h : SpellsValue s value left) : IsQuotable value := by
  cases h with
  | run run =>
    refine ⟨fun hl => ?_, fun hq => ?_⟩
    · exact ne_of_isNameChar (run _ hl) (by decide) rfl
    · exact ne_of_isNameChar (run _ hq.1) (by decide) rfl
  | quoted quote inside =>
    refine ⟨fun hl => (inside _ hl).2 rfl, fun hq => ?_⟩
    rcases quote with rfl | rfl
    · exact (inside _ hq.1).1 rfl
    · exact (inside _ hq.2).1 rfl

theorem SpellsAttribute.wellFormed {a : Attribute} (h : SpellsAttribute s a left) :
    IsWord a.1 ∧ ∀ value ∈ a.2, IsQuotable value := by
  cases h with
  | bare run named => exact ⟨⟨run, named⟩, nofun⟩
  | valued run named spelled =>
    refine ⟨⟨run, named⟩, ?_⟩
    rintro _ ⟨⟩
    exact spelled.isQuotable

theorem SpellsAttributes.wellFormed {as : List Attribute} (h : SpellsAttributes s as left) :
    ∀ a ∈ as, IsWord a.1 ∧ ∀ value ∈ a.2, IsQuotable value := by
  induction h with
  | close => exact nofun
  | space _ ih => exact ih
  | cons first _ _ ih => exact List.forall_mem_cons.2 ⟨first.wellFormed, ih⟩

theorem SpellsParts.wellFormed {e e' : Element} (h : SpellsParts e s e' left) (he : e.WellFormed) : e'.WellFormed := by
  induction h with
  | done | waiting => exact he
  | @className _ _ name _ _ run named _ ih =>
    refine ih { he with classes := fun n hn => ?_ }
    rcases List.mem_append.1 hn with hn | hn
    · exact he.classes n hn
    · cases List.mem_singleton.1 hn
      exact ⟨run, named⟩
  | id run named _ ih =>
    refine ih { he with id := ?_ }
    rintro _ ⟨⟩
    exact ⟨run, named⟩
  | attributes list _ ih =>
    refine ih { he with attributes := fun a ha => ?_ }
    rcases List.mem_append.1 ha with ha | ha
    · exact he.attributes a ha
    · exact list.wellFormed a ha
  | text inside _ ih =>
    refine ih { he with text := ?_ }
    rintro _ ⟨⟩
    exact ⟨fun hb => (inside _ hb).1 rfl, fun hl => (inside _ hl).2 rfl⟩

theorem SpellsElement.wellFormed {e : Element} (h : SpellsElement s e left) : e.WellFormed := by
  cases h with
  | parts run parts _ => exact parts.wellFormed ⟨run, nofun, nofun, nofun, nofun⟩

theorem SpellsCount.bounds {count : Nat} (h : SpellsCount s count left) : 0 < count ∧ count ≤ maxOffset := by
  cases h with
  | once => decide
  | times _ positive bounded => exact ⟨positive, bounded⟩

theorem Node.WellFormed.adopt {n : Node} {more : List Node} (h : n.WellFormed) (hm : ∀ m ∈ more, m.WellFormed) :
    (n.adopt more).WellFormed := by
  cases h with
  | element element positive bounded below =>
    exact .element element positive bounded (List.forall_mem_append.2 ⟨below, hm⟩)
  | group inside positive bounded below =>
    exact .group inside positive bounded (List.forall_mem_append.2 ⟨below, hm⟩)

namespace Chain

def WellFormed (c : Chain) : Prop := c.first.WellFormed ∧ ∀ step ∈ c.rest, step.2.WellFormed

theorem WellFormed.assemble {c : Chain} (h : c.WellFormed) : Abbreviation.WellFormed c.assemble :=
  assemble_forall Node.WellFormed.adopt h.1 h.2

end Chain

def Phrase.WellFormed : Phrase → Prop
  | .term node => node.WellFormed
  | .steps more => ∀ step ∈ more, step.2.WellFormed
  | .chain c => c.WellFormed

theorem Spells.wellFormed {phrase : Phrase} (h : Spells phrase s left) : phrase.WellFormed := by
  induction h with
  | element element times => exact Node.WellFormed.element element.wellFormed times.bounds.1 times.bounds.2 nofun
  | emptyGroup times => exact Node.WellFormed.group nofun times.bounds.1 times.bounds.2 nofun
  | group _ times ih => exact Node.WellFormed.group ih.assemble.2 times.bounds.1 times.bounds.2 nofun
  | stay => exact nofun
  | step _ _ _ hn hs => exact List.forall_mem_cons.2 ⟨hn, hs⟩
  | chain _ _ hn hs => exact ⟨hn, hs⟩

theorem wellFormed_of_read {a : Text} {nodes : List Node} (h : read a = .ok nodes) : WellFormed nodes := by
  obtain ⟨c, hc, rfl⟩ := read_eq_ok_iff.1 h
  exact Chain.WellFormed.assemble hc.wellFormed

/-- **Reading undoes printing.**  Well-formed nodes are read back from what they are printed as, and whatever is read is
well formed, so that it can be printed and read again. -/
theorem read_print :
    (∀ nodes, WellFormed nodes → read (print nodes) = .ok nodes) ∧
      ∀ a nodes, read a = .ok nodes → WellFormed nodes ∧ read (print nodes) = .ok nodes :=
  ⟨fun _ h => h.read_back, fun _ _ h => ⟨wellFormed_of_read h, (wellFormed_of_read h).read_back⟩⟩

/-- `ul>li*2>b[t=x]^^(p+#q)>i` is read as two nodes that are two levels apart, and read again from what they are printed
as. -/
theorem read_print_climbing :
    let nodes := [
      Node.element { name := "ul".toList } 1 [
        .element { name := "li".toList } 2 [
          .element { name := "b".toList, attributes := [("t".toList, some "x".toList)] } 1 []]],
      .group [.element { name := "p".toList } 1 [], .element { name := [], id := some "q".toList } 1 []] 1 [
        .element { name := "i".toList } 1 []]]
    read "ul>li*2>b[t=x]^^(p+#q)>i".toList = .ok nodes ∧ WellFormed nodes ∧
      print nodes = "ul*1>li*2>b[t=\"x\"]*1^^(p*1+#q*1)*1>i*1".toList ∧ read (print nodes) = .ok nodes := by
  intro nodes
  have hr : read "ul>li*2>b[t=x]^^(p+#q)>i".toList = .ok nodes := by rfl
  have hw : WellFormed nodes := (read_print.2 _ nodes hr).1
  exact ⟨hr, hw, by rfl, read_print.1 nodes hw⟩

end Shorthand.Abbreviation
