import Shorthand.Proofs.Abbreviation.Resolved
/-!
# How stops are numbered

An expansion is its elements printed, one pair of tags inside the other, and among what is printed are as many stops as
there are attributes without a value and elements with nothing in them (`Tree.stopCount`).  They take the numbers from
one on up to that, each one of them once and in order (`expand_eq_label`).
-/
namespace Shorthand

namespace Snippet.Slot

/-- The text of slots whose stops take the numbers of a list, one after the other. -/
def label : List Nat → List Slot → Text
  | _, [] => []
  | numbers, .char c :: slots => c :: label numbers slots
  | number :: numbers, .stop :: slots => writeStop number [] ++ label numbers slots
  | [], .stop :: _ => []

/-- Stops that are numbered as they come take consecutive numbers. -/
theorem write_eq_label (n : Nat) (slots : List Slot) :
    write n slots = label (List.range' n (slots.count .stop)) slots := by
  induction slots generalizing n with
  | nil => rw [write, label]
  | cons s slots ih =>
    cases s with
    | char c => rw [List.count_cons_of_ne (by simp), write, label, ih]
    | stop => rw [List.count_cons_self, List.range'_succ, write, label, ih]

theorem write_eq_nil_iff {n : Nat} {slots : List Slot} : write n slots = [] ↔ slots = [] := by
  constructor
  · intro h
    cases slots with
    | nil => rfl
    | cons s slots => cases s <;> cases h
  · rintro rfl
    rfl

end Snippet.Slot

namespace Abbreviation

open Snippet (Slot)

/-! ## How many stops there are -/

/-- The attributes without a value. -/
def Tag.stopCount (tag : Tag) : Nat := tag.attributes.countP (·.2.isNone)

mutual

/-- The attributes without a value and the elements with nothing in them, from an element on inwards. -/
def Tree.stopCount : Tree → Nat
  | .void tag => tag.stopCount
  | .blank tag => tag.stopCount + 1
  | .filled tag _ content => tag.stopCount + treesStopCount content

def treesStopCount : List Tree → Nat
  | [] => 0
  | t :: ts => t.stopCount + treesStopCount ts

end

theorem count_stop_map_char (t : Text) : (t.map Slot.char).count .stop = 0 := List.count_eq_zero.2 (by simp)

theorem count_stop_attributeSlots (a : Attribute) : (attributeSlots a).count .stop = if a.2.isNone then 1 else 0 := by
  obtain ⟨name, value⟩ := a
  cases value <;> simp [attributeSlots, List.count_append, count_stop_map_char]

theorem count_stop_attributes (as : List Attribute) :
    (as.flatMap attributeSlots).count .stop = as.countP (·.2.isNone) := by
  induction as with
  | nil => rfl
  | cons a as ih =>
    rw [List.flatMap_cons, List.count_append, ih, count_stop_attributeSlots, List.countP_cons, Nat.add_comm]

theorem Tag.count_stop_opening (tag : Tag) : tag.opening.count .stop = tag.stopCount := by
  unfold Tag.opening Tag.stopCount
  simp [List.count_append, count_stop_map_char, count_stop_attributes]

theorem Tag.count_stop_closing (tag : Tag) : tag.closing.count .stop = 0 := by
  unfold Tag.closing
  simp [List.count_append, count_stop_map_char]

mutual

theorem Tree.count_stop_slots : ∀ t : Tree, t.slots.count .stop = t.stopCount
  | .void tag => by rw [Tree.slots, Tree.stopCount, tag.count_stop_opening]
  | .blank tag => by
    rw [Tree.slots, Tree.stopCount, List.count_append, List.count_cons_self, tag.count_stop_opening,
      tag.count_stop_closing]
  | .filled tag text content => by
    rw [Tree.slots, Tree.stopCount, List.count_append, List.count_append, List.count_append, tag.count_stop_opening,
      tag.count_stop_closing, count_stop_map_char, count_stop_treesSlots content, Nat.zero_add, Nat.add_zero]

theorem count_stop_treesSlots : ∀ ts : List Tree, (treesSlots ts).count .stop = treesStopCount ts
  | [] => by rw [treesSlots, treesStopCount, List.count_nil]
  | t :: ts => by
    rw [treesSlots, treesStopCount, List.count_append, Tree.count_stop_slots t, count_stop_treesSlots ts]

end

/-! ## Expanding -/

theorem Tree.slots_ne_nil (t : Tree) : t.slots ≠ [] := by
  cases t <;> rw [Tree.slots] <;> exact nofun

theorem treesSlots_eq_nil_iff {ts : List Tree} : treesSlots ts = [] ↔ ts = [] := by
  cases ts with
  | nil => exact iff_of_true (by rw [treesSlots]) rfl
  | cons t ts =>
    rw [treesSlots, List.append_eq_nil_iff]
    exact iff_of_false (fun h => t.slots_ne_nil h.1) (List.cons_ne_nil t ts)

/-- **What nodes expand to is the elements that they denote**, printed with their stops numbered from one on: there is
one for each attribute without a value and for each element with nothing in it, and each number is taken once and in
order.  They expand to nothing just if they denote no element. -/
theorem expand_eq_label (nodes : List Node) (o : Options) :
    let elements := resolveNodes (o.context.map (·.name)) nodes
    (treesSlots elements).count .stop = treesStopCount elements ∧
      expand nodes o = if elements.isEmpty then .error .noOutput
        else .ok (Slot.label (List.range' 1 (treesStopCount elements)) (treesSlots elements)) := by
  intro elements
  have hcount : (treesSlots elements).count .stop = treesStopCount elements := count_stop_treesSlots elements
  have hwrite : (nodesOutput (o.context.map (·.name)) nodes 1).1 = Slot.write 1 (treesSlots elements) :=
    congrArg (fun output => (output 1).1) (nodesOutput_eq_ofSlots _ nodes)
  refine ⟨hcount, ?_⟩
  unfold expand
  rw [hwrite, ← hcount, ← Slot.write_eq_label]
  by_cases hempty : elements = []
  · rw [hempty]
    rfl
  · rw [if_neg (mt List.isEmpty_iff.1 hempty)]
    split
    · next h => exact absurd (treesSlots_eq_nil_iff.1 (Slot.write_eq_nil_iff.1 h)) hempty
    · rfl

/-- A group of two elements, twice, in a list. -/
example : expand [.element { name := "ul".toList } 1 [.group [.element
    { name := [], attributes := [("t".toList, none)] } 1 [], .element { name := "hr".toList } 1 []] 2 []]] {} =
    .ok "<ul><li t=\"${1}\">${2}</li><hr><li t=\"${3}\">${4}</li><hr></ul>".toList := by rfl

end Abbreviation
end Shorthand
