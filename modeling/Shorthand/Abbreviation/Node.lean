import Shorthand.Text.Basic
/-!
# Abbreviations as trees

An abbreviation denotes a list of nodes.  A node is an element or a group, is repeated a number of times, and has
children: those of an element go into it, those of a group follow its items.
-/
namespace Shorthand.Abbreviation

abbrev Attribute := Text × Option Text

/-- An element as written.  An empty name stands for the usual child of whatever the element ends up in. -/
structure Element where
  name : Text
  id : Option Text := none
  classes : List Text := []
  attributes : List Attribute := []
  text : Option Text := none
  deriving DecidableEq, Repr

/-- An element or a group, how often it is repeated, and its children. -/
inductive Node where
  | element (e : Element) (count : Nat) (children : List Node)
  | group (items : List Node) (count : Nat) (children : List Node)
  deriving Repr

namespace Node

def count : Node → Nat
  | .element _ count _ => count
  | .group _ count _ => count

def children : Node → List Node
  | .element _ _ children => children
  | .group _ _ children => children

def adopt (more : List Node) : Node → Node
  | .element e count children => .element e count (children ++ more)
  | .group items count children => .group items count (children ++ more)

end Node
end Shorthand.Abbreviation
