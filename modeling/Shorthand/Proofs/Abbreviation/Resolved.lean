import Shorthand.Abbreviation.Markup
import Shorthand.Proofs.Snippet.Slots
/-!
# The elements that an abbreviation denotes

Before anything is printed the nodes of an abbreviation can be resolved into the elements that they denote (`Tree`): each
as often as it is repeated, in place of a group its items and its children, and every element with its name.  What
expanding prints is those elements one behind the other, with the stops numbered from one on in the order in which they
stand (`nodesOutput_eq_ofSlots`).
-/
namespace Shorthand.Abbreviation

open Snippet (Slot writeStop)
open Text (digitsOf)

/-! ## Elements with names -/

/-- The name of an element and its attributes, in order. -/
structure Tag where
  name : Text
  attributes : List Attribute
  deriving DecidableEq, Repr

/-- An element of the output: one that nothing can be in, one that has nothing in it yet, and one with a text and other
elements behind it. -/
inductive Tree where
  | void (tag : Tag)
  | blank (tag : Tag)
  | filled (tag : Tag) (text : Text) (content : List Tree)

/-- The attributes as they are printed: id, classes, others. -/
def Element.allAttributes (e : Element) : List Attribute :=
  e.id.toList.map (fun id => ("id".toList, some id)) ++
    ((if e.classes = [] then [] else [("class".toList, some (e.classes.intersperse [' ']).flatten)]) ++ e.attributes)

def Element.tagIn (parent : Option Text) (e : Element) : Tag := ⟨e.nameIn parent, e.allAttributes⟩

mutual

/-- The elements that a node denotes in the element `parent`. -/
def Node.resolve (parent : Option Text) : Node → List Tree
  | .element e count children =>
    List.replicate count
      (if isVoid (e.nameIn parent) then .void (e.tagIn parent)
      else if children.isEmpty && e.text.isNone then .blank (e.tagIn parent)
      else .filled (e.tagIn parent) (e.text.getD []) (resolveNodes (some (e.nameIn parent)) children))
  | .group items count children =>
    (List.replicate count (resolveNodes parent items ++ resolveNodes parent children)).flatten

def resolveNodes (parent : Option Text) : List Node → List Tree
  | [] => []
  | n :: ns => n.resolve parent ++ resolveNodes parent ns

end

/-! ## Printing them -/

def attributeSlots (a : Attribute) : List Slot :=
  .char ' ' :: (a.1.map .char ++ .char '=' :: .char '"' :: (a.2.elim [.stop] (·.map .char) ++ [.char '"']))

namespace Tag

def opening (tag : Tag) : List Slot :=
  .char '<' :: (tag.name.map .char ++ (tag.attributes.flatMap attributeSlots ++ [.char '>']))

def closing (tag : Tag) : List Slot := .char '<' :: .char '/' :: (tag.name.map .char ++ [.char '>'])

end Tag

mutual

/-- The markup of an element. -/
def Tree.slots : Tree → List Slot
  | .void tag => tag.opening
  | .blank tag => tag.opening ++ .stop :: tag.closing
  | .filled tag text content => tag.opening ++ (text.map .char ++ (treesSlots content ++ tag.closing))

def treesSlots : List Tree → List Slot
  | [] => []
  | t :: ts => t.slots ++ treesSlots ts

end

theorem treesSlots_eq_flatMap (ts : List Tree) : treesSlots ts = ts.flatMap Tree.slots := by
  induction ts with
  | nil => rw [treesSlots, List.flatMap_nil]
  | cons t ts ih => rw [treesSlots, ih, List.flatMap_cons]

theorem treesSlots_append (ts ts' : List Tree) : treesSlots (ts ++ ts') = treesSlots ts ++ treesSlots ts' := by
  simp only [treesSlots_eq_flatMap, List.flatMap_append]

theorem treesSlots_times (ts : List Tree) : ∀ n : Nat,
    treesSlots (List.replicate n ts).flatten = (List.replicate n (treesSlots ts)).flatten
  | 0 => treesSlots_eq_flatMap []
  | n + 1 => by
    rw [List.replicate_succ, List.replicate_succ, List.flatten_cons, List.flatten_cons, treesSlots_append,
      treesSlots_times ts n]

/-! ## Output as slots -/

namespace Output

/-- The output of slots. -/
def ofSlots (slots : List Slot) : Output := fun n => (Slot.write n slots, n + slots.count .stop)

theorem ofSlots_append (slots slots' : List Slot) : ofSlots (slots ++ slots') = ofSlots slots ++ ofSlots slots' := by
  funext n
  refine Prod.ext (Slot.write_append n slots slots') ?_
  exact (congrArg (n + ·) List.count_append).trans (Nat.add_assoc _ _ _).symm

theorem ofSlots_text (t : Text) : ofSlots (t.map .char) = text t := by
  funext n
  refine Prod.ext ?_ ?_
  · have hw := Slot.write_map_char_append n t []
    rw [List.append_nil] at hw
    exact hw.trans (List.append_nil t)
  · have hc : (t.map Slot.char).count .stop = 0 := List.count_eq_zero.2 (by simp)
    exact congrArg (n + ·) hc

theorem ofSlots_stop : ofSlots [.stop] = stop := by
  funext n
  refine Prod.ext ?_ rfl
  have hw : Slot.write n [.stop] = writeStop n [] ++ [] := rfl
  exact hw.trans ((List.append_nil _).trans (List.append_assoc ['$', '\x7b'] (digitsOf n) ['\x7d']).symm)

theorem concat_ofSlots {α : Type} (f : α → List Slot) : ∀ l : List α,
    concat (l.map fun x => ofSlots (f x)) = ofSlots (l.flatMap f)
  | [] => (ofSlots_text []).symm
  | x :: l => by
    rw [List.map_cons, concat, concat_ofSlots f l, List.flatMap_cons, ofSlots_append]

theorem times_ofSlots (slots : List Slot) : ∀ n : Nat, times n (ofSlots slots) = ofSlots (List.replicate n slots).flatten
  | 0 => (ofSlots_text []).symm
  | n + 1 => by rw [times, times_ofSlots slots n, List.replicate_succ, List.flatten_cons, ofSlots_append]

end Output

open Output

theorem attributeOutput_eq_ofSlots (name : Text) (value : Option Text) :
    attributeOutput name (value.elim .stop .text) = ofSlots (attributeSlots (name, value)) := by
  have hv : value.elim Output.stop .text = ofSlots (value.elim [.stop] (·.map .char)) := by
    cases value with
    | none => exact ofSlots_stop.symm
    | some value => exact (ofSlots_text value).symm
  unfold attributeOutput
  rw [hv, ← ofSlots_text, ← ofSlots_text, ← ofSlots_append, ← ofSlots_append]
  simp [attributeSlots]

theorem openingTag_eq_ofSlots (parent : Option Text) (e : Element) :
    openingTag (e.nameIn parent) e = ofSlots (e.tagIn parent).opening := by
  have hid : concat (e.id.toList.map fun id => attributeOutput "id".toList (.text id)) =
      ofSlots ((e.id.toList.map fun id => ("id".toList, some id)).flatMap attributeSlots) := by
    rw [List.flatMap_map, ← concat_ofSlots]
    exact congrArg (fun f => concat (e.id.toList.map f)) (funext fun id =>
      attributeOutput_eq_ofSlots "id".toList (some id))
  have hclasses : classOutput e.classes = ofSlots
      ((if e.classes = [] then [] else [("class".toList, some (e.classes.intersperse [' ']).flatten)]).flatMap
        attributeSlots) := by
    unfold classOutput
    split
    · exact (ofSlots_text []).symm
    · rw [List.flatMap_singleton]
      exact attributeOutput_eq_ofSlots "class".toList (some _)
  have hothers : concat (e.attributes.map fun a => attributeOutput a.1 (a.2.elim .stop .text)) =
      ofSlots (e.attributes.flatMap attributeSlots) := by
    rw [← concat_ofSlots]
    exact congrArg (fun f => concat (e.attributes.map f)) (funext fun a => attributeOutput_eq_ofSlots a.1 a.2)
  unfold openingTag
  rw [hid, hclasses, hothers, ← ofSlots_text, ← ofSlots_text, ← ofSlots_append, ← ofSlots_append, ← ofSlots_append,
    ← ofSlots_append]
  simp [Tag.opening, Element.tagIn, Element.allAttributes]

theorem closingTag_eq_ofSlots (tag : Tag) : closingTag tag.name = ofSlots tag.closing := by
  unfold closingTag
  rw [← ofSlots_text]
  simp [Tag.closing]

/-- An element is printed as the tree it is resolved into, `ts` being what its children are resolved into. -/
theorem elementOutput_eq_ofSlots (parent : Option Text) (e : Element) {childless : Bool} {ts : List Tree}
    (h : childless = true → ts = []) :
    elementOutput (e.nameIn parent) e childless (ofSlots (treesSlots ts)) = ofSlots (Tree.slots
      (if isVoid (e.nameIn parent) then .void (e.tagIn parent)
      else if childless && e.text.isNone then .blank (e.tagIn parent)
      else .filled (e.tagIn parent) (e.text.getD []) ts)) := by
  have hclosing : closingTag (e.nameIn parent) = ofSlots (e.tagIn parent).closing :=
    closingTag_eq_ofSlots (e.tagIn parent)
  unfold elementOutput
  rw [openingTag_eq_ofSlots, hclosing]
  split
  · rw [Tree.slots]
  · cases childless with
    | false =>
      rw [if_neg (by decide), Bool.false_and, if_neg (by decide), Tree.slots, ← ofSlots_text, ← ofSlots_append,
        ← ofSlots_append, ← ofSlots_append, List.append_assoc, List.append_assoc]
    | true =>
      rw [h rfl]
      cases e.text with
      | none =>
        simp only [if_true, Bool.true_and, Option.isNone_none, Option.getD_none]
        rw [Tree.slots, ← ofSlots_text, ← ofSlots_stop, ← ofSlots_append, ← ofSlots_append, ← ofSlots_append]
        simp
      | some text =>
        simp only [if_true, Bool.true_and, Option.isNone_some, Option.getD_some, reduceCtorEq, Bool.false_eq_true,
          if_false]
        rw [Tree.slots, treesSlots, ← ofSlots_text, ← ofSlots_text, ← ofSlots_append,
          ← ofSlots_append, ← ofSlots_append]
        simp

/-! ## Nodes -/

mutual

theorem Node.output_eq_ofSlots (parent : Option Text) : ∀ n : Node,
    n.output parent = ofSlots (treesSlots (n.resolve parent))
  | .element e count children => by
    rw [Node.output, Node.resolve, treesSlots_eq_flatMap, List.flatMap_replicate, ← times_ofSlots,
      nodesOutput_eq_ofSlots, elementOutput_eq_ofSlots]
    intro hc
    rw [List.isEmpty_iff.1 hc, resolveNodes]
  | .group items count children => by
    rw [Node.output, Node.resolve, nodesOutput_eq_ofSlots, nodesOutput_eq_ofSlots, ← ofSlots_append, times_ofSlots, treesSlots_times,
      treesSlots_append]

/-- **What is printed is the elements that the nodes denote**, the stops being numbered as they come. -/
theorem nodesOutput_eq_ofSlots (parent : Option Text) : ∀ ns : List Node,
    nodesOutput parent ns = ofSlots (treesSlots (resolveNodes parent ns))
  | [] => by
    rw [nodesOutput, resolveNodes, treesSlots]
    exact (ofSlots_text []).symm
  | n :: ns => by
    rw [nodesOutput, resolveNodes, Node.output_eq_ofSlots parent n, nodesOutput_eq_ofSlots parent ns, ← ofSlots_append,
      treesSlots_append]

end

end Shorthand.Abbreviation
