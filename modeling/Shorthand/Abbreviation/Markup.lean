import Shorthand.Abbreviation.Options
import Shorthand.Text.Decimal
/-!
# Expanding an abbreviation

The markup of a list of nodes, as a snippet: every node as often as it is to be repeated, a group as its items and its
children, an element as a pair of tags around its text and its children.  Attributes without a value and elements
without content get tab stops, which are numbered as they come.
-/
namespace Shorthand.Abbreviation

open Text (digitsOf)

/-! ## Output with numbered stops -/

/-- A piece of output: given the number of the next stop, its text and the number of the stop after it. -/
abbrev Output := Nat → Text × Nat

namespace Output

def text (t : Text) : Output := fun stop => (t, stop)

def stop : Output := fun stop => ("$\x7b".toList ++ digitsOf stop ++ ['\x7d'], stop + 1)

def andThen (a b : Output) : Output := fun stop =>
  let (s, next) := a stop
  let (t, last) := b next
  (s ++ t, last)

instance : Append Output := ⟨andThen⟩

def concat : List Output → Output
  | [] => text []
  | a :: as => a ++ concat as

def times : Nat → Output → Output
  | 0, _ => text []
  | n + 1, a => a ++ times n a

end Output

/-! ## Elements -/

/-- The name of an element that is written without one. -/
def usualChild (parent : Option Text) : Text :=
  if parent = some "ul".toList || parent = some "ol".toList then "li".toList
  else if parent = some "table".toList || parent = some "tbody".toList || parent = some "thead".toList then "tr".toList
  else if parent = some "tr".toList then "td".toList
  else if parent = some "select".toList then "option".toList
  else "div".toList

def Element.nameIn (parent : Option Text) (e : Element) : Text := if e.name = [] then usualChild parent else e.name

/-- The attribute `name` with the given output as its value. -/
def attributeOutput (name : Text) (value : Output) : Output :=
  .text (' ' :: (name ++ ['=', '"'])) ++ value ++ .text ['"']

def classOutput (classes : List Text) : Output :=
  if classes = [] then .text [] else attributeOutput "class".toList (.text (classes.intersperse [' ']).flatten)

def openingTag (name : Text) (e : Element) : Output :=
  .text ('<' :: name)
    ++ .concat (e.id.toList.map fun id => attributeOutput "id".toList (.text id))
    ++ classOutput e.classes
    ++ .concat (e.attributes.map fun a => attributeOutput a.1 (a.2.elim .stop .text))
    ++ .text ['>']

def closingTag (name : Text) : Output := .text ('<' :: '/' :: (name ++ ['>']))

/-- An element around the output of its children, `childless` telling that it has none. -/
def elementOutput (name : Text) (e : Element) (childless : Bool) (content : Output) : Output :=
  if isVoid name then openingTag name e
  else
    openingTag name e ++ .text (e.text.getD []) ++
      (if childless then (if e.text = none then .stop else .text []) else content) ++ closingTag name

/-! ## Nodes -/

mutual

def Node.output (parent : Option Text) : Node → Output
  | .element e count children =>
    .times count
      (elementOutput (e.nameIn parent) e children.isEmpty (nodesOutput (some (e.nameIn parent)) children))
  | .group items count children => .times count (nodesOutput parent items ++ nodesOutput parent children)

def nodesOutput (parent : Option Text) : List Node → Output
  | [] => .text []
  | node :: nodes => node.output parent ++ nodesOutput parent nodes

end

/-- Why an abbreviation cannot be expanded. -/
inductive ExpandError where
  | noOutput
  deriving DecidableEq, Repr

def ExpandError.message : ExpandError → String
  | .noOutput => "abbreviation produced no output"

def expand (nodes : List Node) (o : Options) : Except ExpandError Text :=
  match (nodesOutput (o.context.map (·.name)) nodes 1).1 with
  | [] => .error .noOutput
  | snippet => .ok snippet

end Shorthand.Abbreviation
