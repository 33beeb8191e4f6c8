import Shorthand.Abbreviation.Chain
import Shorthand.Text.Alphanumeric
import Shorthand.Text.Decimal
/-!
# Reading abbreviations

The language of abbreviations:

- a chain is terms with `+`, `>` or a run of `^` between them;
- a term is an element or a chain in parentheses, which may be empty, and may end in `*` and a count;
- an element is a name, which may be empty, and parts: `.class`, `#id`, `[attributes]` and `{text}`.  It is not empty,
  and only a `.` or `#` that ends the whole abbreviation may wait for its name;
- attributes stand apart by spaces; one is a name, alone or with `=` and a run of name chars or a quoted text.

Every reader takes what is left of the abbreviation and gives back what it leaves, or where it got stuck and why.  The
readers of lists take a bound on what is left, its length, which they come to only at the end of the text.
-/
namespace Shorthand.Abbreviation

open Text (isAlphanumeric decimal)

/-! ## Errors -/

/-- What can be left open. -/
inductive Part where
  | group
  | text
  | attributeList
  | attributeValue
  deriving DecidableEq, Repr

/-- What a place of an abbreviation calls for. -/
inductive Need where
  | element
  | className
  | id
  | attributeName
  | attributeEnd
  | count
  | operator
  | noCloser
  deriving DecidableEq, Repr

/-- Why a text is no abbreviation. -/
inductive Complaint where
  | unclosed (part : Part)
  | unmet (need : Need) (found : Option Char)
  deriving DecidableEq, Repr

/-- A text is no abbreviation, for the reason given at the offset `pos`. -/
structure ReadError where
  complaint : Complaint
  pos : Nat
  deriving DecidableEq, Repr

def Part.wording : Part → String
  | .group => "unclosed group"
  | .text => "unclosed text"
  | .attributeList => "unclosed attribute list"
  | .attributeValue => "unclosed attribute value"

def Need.wording : Need → String
  | .element => "expected element"
  | .className => "expected class name"
  | .id => "expected id"
  | .attributeName => "expected attribute name"
  | .attributeEnd => "unexpected character in attributes"
  | .count => "expected repeat count"
  | .operator => "unexpected character"
  | .noCloser => "unmatched group close"

/-- The wording of a complaint, with the char that was found instead. -/
def Complaint.wording : Complaint → String
  | .unclosed part => part.wording
  | .unmet need (some c) => need.wording ++ ", found '" ++ String.singleton c ++ "'"
  | .unmet need none => need.wording ++ ", found end of abbreviation"

def ReadError.message (e : ReadError) : String := e.complaint.wording ++ " at " ++ toString e.pos

/-- A reader could go no further: why, and what it had not read. -/
structure Stuck where
  complaint : Complaint
  left : Text
  deriving DecidableEq, Repr

/-- What is left does not begin with what is called for. -/
def Stuck.at (left : Text) (need : Need) : Stuck := ⟨.unmet need left.head?, left⟩

/-- What a reader gives: the thing read and what is left, or where it got stuck. -/
abbrev Reads (α : Type) := Except Stuck (α × Text)

/-! ## Elements -/

/-- `c` may stand in a name. -/
def isNameChar (c : Char) : Bool :=
  isAlphanumeric c || c = '-' || c = '_' || c = ':' || c = '!' || c = '@' || c = '$'

def nameOf (s : Text) : Text := s.takeWhile isNameChar

def afterName (s : Text) : Text := s.dropWhile isNameChar

/-- Reads the value of an attribute, from behind the `=`. -/
def readValue : Text → Reads Text
  | [] => .ok ([], [])
  | q :: s =>
    if q = '"' || q = '\'' then
      match s.dropWhile fun c => c != q && c != '\n' with
      | [] => .error ⟨.unclosed .attributeValue, []⟩
      | c :: left =>
        if c = q then .ok (s.takeWhile fun c => c != q && c != '\n', left)
        else .error ⟨.unclosed .attributeValue, left⟩
    else .ok (nameOf (q :: s), afterName (q :: s))

def readValue? : Text → Reads (Option Text)
  | '=' :: s =>
    match readValue s with
    | .error stuck => .error stuck
    | .ok (value, left) => .ok (some value, left)
  | s => .ok (none, s)

/-- Reads the attributes of a list, from behind its `[`, and its `]`. -/
def readAttributes : Nat → Text → Reads (List Attribute)
  | 0, s => .error ⟨.unclosed .attributeList, s⟩
  | bound + 1, s =>
    match s.dropWhile (· = ' ') with
    | [] => .error ⟨.unclosed .attributeList, []⟩
    | ']' :: left => .ok ([], left)
    | s' =>
      if nameOf s' = [] then .error (.at s' .attributeName)
      else
        match readValue? (afterName s') with
        | .error stuck => .error stuck
        | .ok (value, left) =>
          if left.head? = some ' ' || left.head? = some ']' then
            match readAttributes bound left with
            | .error stuck => .error stuck
            | .ok (more, left') => .ok ((nameOf s', value) :: more, left')
          else .error (.at left .attributeEnd)

/-- Reads the name behind a `.` or `#`, which may be missing at the end of the abbreviation. -/
def readWaiting (need : Need) (s : Text) : Reads (Option Text) :=
  match nameOf s, s with
  | [], [] => .ok (none, [])
  | [], c :: s => .error (.at (c :: s) need)
  | name, s => .ok (some name, afterName s)

/-- Reads the text of an element, from behind its `{`, and its closer. -/
def readText (s : Text) : Reads Text :=
  match s.dropWhile fun c => c != '\x7d' && c != '\n' with
  | '\x7d' :: left => .ok (s.takeWhile fun c => c != '\x7d' && c != '\n', left)
  | s' => .error ⟨.unclosed .text, s'.tail⟩

def readParts : Nat → Element → Text → Reads Element
  | 0, e, s => .ok (e, s)
  | bound + 1, e, s =>
    match s with
    | '.' :: s =>
      match readWaiting .className s with
      | .error stuck => .error stuck
      | .ok (name?, left) => readParts bound { e with classes := e.classes ++ name?.toList } left
    | '#' :: s =>
      match readWaiting .id s with
      | .error stuck => .error stuck
      | .ok (name?, left) => readParts bound { e with id := name?.or e.id } left
    | '[' :: s =>
      match readAttributes s.length s with
      | .error stuck => .error stuck
      | .ok (attributes, left) => readParts bound { e with attributes := e.attributes ++ attributes } left
    | '\x7b' :: s =>
      match readText s with
      | .error stuck => .error stuck
      | .ok (text, left) => readParts bound { e with text := some text } left
    | s => .ok (e, s)

def readElement (s : Text) : Reads Element :=
  match readParts s.length { name := nameOf s } (afterName s) with
  | .error stuck => .error stuck
  | .ok (e, left) => if left.length = s.length then .error (.at s .element) else .ok (e, left)

/-! ## Terms and chains -/

/-- Reads a count, which is one where none is written. -/
def readCount : Text → Reads Nat
  | '*' :: s =>
    let count := decimal (s.takeWhile Char.isDigit)
    let left := s.dropWhile Char.isDigit
    if 0 < count && count ≤ maxOffset then .ok (count, left) else .error (.at left .count)
  | s => .ok (1, s)

/-- Reads a term, given a reader for the chain in parentheses. -/
def readTerm (readInner : Text → Reads Chain) (s : Text) : Reads Node :=
  let item : Reads (Nat → Node) :=
    match s with
    | '(' :: ')' :: left => .ok (fun count => .group [] count [], left)
    | '(' :: s =>
      match readInner s with
      | .error stuck => .error stuck
      | .ok (chain, ')' :: left) => .ok (fun count => .group chain.assemble count [], left)
      | .ok (_, left) => .error ⟨.unclosed .group, left.tail⟩
    | s =>
      match readElement s with
      | .error stuck => .error stuck
      | .ok (e, left) => .ok (fun count => .element e count [], left)
  match item with
  | .error stuck => .error stuck
  | .ok (node, left) =>
    match readCount left with
    | .error stuck => .error stuck
    | .ok (count, left') => .ok (node count, left')

/-- Reads the operator behind a term, if the chain goes on. -/
def readOperator? : Text → Reads (Option Operator)
  | [] => .ok (none, [])
  | ')' :: s => .ok (none, ')' :: s)
  | '+' :: s => .ok (some .sibling, s)
  | '>' :: s => .ok (some .child, s)
  | '^' :: s => .ok (some (.climb ((s.takeWhile (· = '^')).length + 1)), s.dropWhile (· = '^'))
  | s => .error (.at s .operator)

/-- Reads a chain, up to a closing parenthesis or the end. -/
def readChain : Nat → Text → Reads Chain
  | 0, s => .error (.at s .element)
  | bound + 1, s =>
    match readTerm (readChain bound) s with
    | .error stuck => .error stuck
    | .ok (node, left) =>
      match readOperator? left with
      | .error stuck => .error stuck
      | .ok (none, left) => .ok (⟨node, []⟩, left)
      | .ok (some operator, left) =>
        match readChain bound left with
        | .error stuck => .error stuck
        | .ok (chain, left') => .ok (⟨node, (operator, chain.first) :: chain.rest⟩, left')

def read (s : Text) : Except ReadError (List Node) :=
  match readChain s.length s with
  | .error stuck => .error ⟨stuck.complaint, s.length - stuck.left.length⟩
  | .ok (chain, []) => .ok chain.assemble
  | .ok (_, left) => .error ⟨(Stuck.at left .noCloser).complaint, s.length - left.length⟩

end Shorthand.Abbreviation
