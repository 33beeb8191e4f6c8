import Shorthand.Proofs.Abbreviation.Chain
import Shorthand.Proofs.Abbreviation.Reading
/-!
# The chars of a tree

Reading makes nothing up: every char of a name, a value or a text in the nodes that an abbreviation is read as stands in
the abbreviation (`chars_of_read`).
-/
namespace Shorthand.Abbreviation

variable {s left : Text}

/-- The chars of all names, values and texts of an element. -/
def Element.chars (e : Element) : Text :=
  e.name ++ (e.id.getD [] ++ (e.classes.flatten ++
    (e.attributes.flatMap (fun a => a.1 ++ a.2.getD []) ++ e.text.getD [])))

mutual

/-- The chars of a node and of all that is in it and below it. -/
def Node.chars : Node → Text
  | .element e _ children => e.chars ++ nodesChars children
  | .group items _ children => nodesChars items ++ nodesChars children

def nodesChars : List Node → Text
  | [] => []
  | n :: ns => n.chars ++ nodesChars ns

end

theorem nodesChars_eq_flatMap (ns : List Node) : nodesChars ns = ns.flatMap Node.chars := by
  induction ns with
  | nil => simp [nodesChars]
  | cons n ns ih => rw [nodesChars, ih, List.flatMap_cons]

theorem nodesChars_subset {ns : List Node} {a : Text} : nodesChars ns ⊆ a ↔ ∀ n ∈ ns, n.chars ⊆ a := by
  rw [nodesChars_eq_flatMap]
  constructor
  · intro h n hn c hc
    exact h (List.mem_flatMap.2 ⟨n, hn, hc⟩)
  · intro h c hc
    obtain ⟨n, hn, hc⟩ := List.mem_flatMap.1 hc
    exact h n hn hc

theorem Node.chars_adopt (n : Node) (more : List Node) : (n.adopt more).chars ⊆ n.chars ++ nodesChars more := by
  cases n <;> simp [Node.adopt, Node.chars, nodesChars_eq_flatMap]

/-! ## What a phrase takes from the text -/

theorem SpellsValue.subset {value : Text} (h : SpellsValue s value left) : value ⊆ s ∧ left ⊆ s := by
  cases h with
  | run => simp
  | quoted => constructor <;> intro c hc <;> simp [hc]

theorem SpellsAttribute.subset {a : Attribute} (h : SpellsAttribute s a left) :
    a.1 ++ a.2.getD [] ⊆ s ∧ left ⊆ s := by
  cases h with
  | bare => simp
  | valued _ _ spelled =>
    obtain ⟨hv, hl⟩ := spelled.subset
    constructor
    · intro c hc
      rcases List.mem_append.1 hc with hc | hc
      · simp [hc]
      · simp [hv hc]
    · intro c hc
      simp [hl hc]

theorem SpellsAttributes.subset {as : List Attribute} (h : SpellsAttributes s as left) :
    (as.flatMap fun a => a.1 ++ a.2.getD []) ⊆ s ∧ left ⊆ s := by
  induction h with
  | close => simp
  | space _ ih => exact ⟨fun c hc => List.mem_cons_of_mem _ (ih.1 hc), fun c hc => List.mem_cons_of_mem _ (ih.2 hc)⟩
  | cons first _ _ ih =>
    obtain ⟨ha, hs⟩ := first.subset
    refine ⟨?_, fun c hc => hs (ih.2 hc)⟩
    rw [List.flatMap_cons, List.append_subset]
    exact ⟨ha, fun c hc => hs (ih.1 hc)⟩

/-- Parts bring in nothing but their chars. -/
theorem SpellsParts.subset {e e' : Element} (h : SpellsParts e s e' left) :
    e'.chars ⊆ e.chars ++ s ∧ left ⊆ s := by
  induction h with
  | done => simp
  | waiting => simp
  | className _ _ _ ih =>
    refine ⟨fun c hc => ?_, fun c hc => by simp [ih.2 hc]⟩
    have h := ih.1 hc
    simp only [Element.chars, List.mem_append, List.mem_cons, List.flatten_append, List.flatten_singleton] at h ⊢
    grind
  | id _ _ _ ih =>
    refine ⟨fun c hc => ?_, fun c hc => by simp [ih.2 hc]⟩
    have h := ih.1 hc
    simp only [Element.chars, List.mem_append, List.mem_cons, Option.getD_some] at h ⊢
    grind
  | attributes list _ ih =>
    obtain ⟨ha, hs⟩ := list.subset
    refine ⟨fun c hc => ?_, fun c hc => by simp [hs (ih.2 hc)]⟩
    have h := ih.1 hc
    have ha := @ha c
    have hs := @hs c
    simp only [Element.chars, List.mem_append, List.mem_cons, List.flatMap_append] at h ⊢
    grind
  | text _ _ ih =>
    refine ⟨fun c hc => ?_, fun c hc => by simp [ih.2 hc]⟩
    have h := ih.1 hc
    simp only [Element.chars, List.mem_append, List.mem_cons, Option.getD_some] at h ⊢
    grind

theorem SpellsElement.subset {e : Element} (h : SpellsElement s e left) : e.chars ⊆ s ∧ left ⊆ s := by
  cases h with
  | @parts name _ _ _ _ parts _ =>
    obtain ⟨he, hl⟩ := parts.subset
    have hn : Element.chars { name := name } = name := by simp [Element.chars]
    rw [hn] at he
    exact ⟨he, fun c hc => List.mem_append_right _ (hl hc)⟩

theorem SpellsCount.subset {count : Nat} (h : SpellsCount s count left) : left ⊆ s := by
  cases h with
  | once => exact fun _ hc => hc
  | times => intro c hc; simp [hc]

theorem SpellsOperator.subset {o : Operator} (h : SpellsOperator s o left) : left ⊆ s := by
  cases h with
  | sibling | child => simp
  | climb => simp

/-! ## Phrases -/

def Chain.chars (c : Chain) : Text := c.first.chars ++ nodesChars (c.rest.map Prod.snd)

theorem Chain.chars_assemble {c : Chain} {a : Text} (h : c.chars ⊆ a) : nodesChars c.assemble ⊆ a := by
  obtain ⟨hf, hr⟩ := List.append_subset.1 h
  refine nodesChars_subset.2 (assemble_forall (P := fun n => n.chars ⊆ a) ?_ hf ?_).2
  · intro n more hn hm c hc
    rcases List.mem_append.1 (n.chars_adopt more hc) with hc | hc
    · exact hn hc
    · exact nodesChars_subset.2 hm hc
  · intro step hs
    exact nodesChars_subset.1 hr step.2 (List.mem_map_of_mem hs)

def Phrase.chars : Phrase → Text
  | .term node => node.chars
  | .steps more => nodesChars (more.map Prod.snd)
  | .chain c => c.chars

theorem Spells.subset {phrase : Phrase} (h : Spells phrase s left) : phrase.chars ⊆ s ∧ left ⊆ s := by
  induction h with
  | element element times =>
    obtain ⟨he, hs⟩ := element.subset
    refine ⟨?_, fun c hc => hs (times.subset hc)⟩
    simpa [Phrase.chars, Node.chars, nodesChars] using he
  | emptyGroup times =>
    refine ⟨by simp [Phrase.chars, Node.chars, nodesChars], fun c hc => ?_⟩
    simp [times.subset hc]
  | @group chain _ _ _ _ _ times ih =>
    obtain ⟨hi, hs⟩ := ih
    refine ⟨?_, fun c hc => List.mem_cons_of_mem _ (hs (List.mem_cons_of_mem _ (times.subset hc)))⟩
    simp only [Phrase.chars, Node.chars, nodesChars, List.append_nil]
    exact fun c hc => List.mem_cons_of_mem _ (chain.chars_assemble hi hc)
  | stay => simp [Phrase.chars, nodesChars]
  | step operator _ _ hn hs =>
    refine ⟨?_, fun c hc => operator.subset (hn.2 (hs.2 hc))⟩
    simp only [Phrase.chars, List.map_cons, nodesChars, List.append_subset]
    exact ⟨fun c hc => operator.subset (hn.1 hc), fun c hc => operator.subset (hn.2 (hs.1 hc))⟩
  | chain _ _ hn hs =>
    exact ⟨List.append_subset.2 ⟨hn.1, fun c hc => hn.2 (hs.1 hc)⟩, fun c hc => hn.2 (hs.2 hc)⟩

/-- **Every char of what is read stands in the abbreviation.** -/
theorem chars_of_read {a : Text} {nodes : List Node} (h : read a = .ok nodes) : nodesChars nodes ⊆ a := by
  obtain ⟨c, hc, rfl⟩ := read_eq_ok_iff.1 h
  exact c.chars_assemble hc.subset.1

end Shorthand.Abbreviation
