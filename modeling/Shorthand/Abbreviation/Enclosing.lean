import Shorthand.Abbreviation.Node
import Shorthand.Text.Blank
/-!
# The enclosing element

What surrounds a position of a document: the innermost element that is open there, found by scanning the tags in front
of it.  A tag runs from a `<` to the next `>`; an opening tag opens an element unless its name is empty or void or it
closes itself, and a closing tag closes the innermost open element of its name with all elements inside.
-/
namespace Shorthand.Abbreviation

open Text (isBlank trimBlank words)

/-- The element around an abbreviation: its name and its attributes in order. -/
structure Context where
  name : Text
  attributes : List Attribute := []
  deriving DecidableEq, Repr

def voidNames : List Text :=
  ["br".toList, "hr".toList, "img".toList, "input".toList, "link".toList, "meta".toList]

def isVoid (name : Text) : Bool := voidNames.contains name

/-- The tags of `t`, without their angle brackets; `tag` holds the chars of the tag that is being read, last one
first. -/
def tagsFrom : Option Text → Text → List Text
  | _, [] => []
  | none, c :: t => if c = '<' then tagsFrom (some []) t else tagsFrom none t
  | some tag, c :: t => if c = '>' then tag.reverse :: tagsFrom none t else tagsFrom (some (c :: tag)) t

def tags (t : Text) : List Text := tagsFrom none t

/-- `t` without the chars of a class at its end. -/
def dropEnd (p : Char → Bool) (t : Text) : Text := (t.reverse.dropWhile p).reverse

/-- `t` without the quotes at its two ends. -/
def unquoted (t : Text) : Text :=
  dropEnd (fun c => c = '"' || c = '\'') (t.dropWhile fun c => c = '"' || c = '\'')

/-- The attribute that a word of a tag stands for. -/
def attributeOf (word : Text) : Attribute :=
  match word.dropWhile (· != '=') with
  | [] => (word, none)
  | _ :: value => (word.takeWhile (· != '='), some (unquoted value))

def opened? (tag : Text) : Option Context :=
  match words (dropEnd (· = '/') tag) with
  | [] => none
  | name :: rest =>
    if tag.getLast? = some '/' || isVoid name then none else some ⟨name, rest.map attributeOf⟩

/-- The elements open behind a tag, innermost first. -/
def afterTag (openElements : List Context) : Text → List Context
  | '/' :: closing =>
    match openElements.dropWhile fun c => c.name != trimBlank closing with
    | [] => openElements
    | _ :: outer => outer
  | tag => (opened? tag).toList ++ openElements

/-- The innermost element that is open at the end of `t`. -/
def innermost? (t : Text) : Option Context := ((tags t).foldl afterTag []).head?

/-- The dialects that have no elements. -/
def plainDialects : List String := ["css", "scss", "less"]

/-- The element around the offset `pos` of a text written in `dialect`. -/
def enclosing? (t : Text) (pos : Nat) (dialect : String) : Option Context :=
  if plainDialects.contains dialect then none else innermost? (t.take pos)

end Shorthand.Abbreviation
