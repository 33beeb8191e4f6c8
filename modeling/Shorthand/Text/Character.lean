import Shorthand.Text.Blank
/-!
# The chars of an abbreviation

Brackets that an editor closes by itself, chars that may stand right before an abbreviation, and chars that may open
one.  A char has the first class of `CharClass` it belongs to.
-/
namespace Shorthand.Text

def closerOf : Char → Option Char
  | '\x7b' => some '\x7d'
  | '[' => some ']'
  | '(' => some ')'
  | _ => none

def isCloser (c : Char) : Bool := c = '\x7d' || c = ']' || c = ')'

def isLineBreak (c : Char) : Bool := c = '\n' || c = '\r'

/-- `c` may stand right before an abbreviation. -/
def isWordBound (c : Char) : Bool := isBlank c || c = '>' || c = ';' || c = '"' || c = '\''

/-- `c` may open an abbreviation. -/
def isAbbreviationStart (c : Char) : Bool :=
  c.isAlpha || c = '.' || c = '#' || c = '!' || c = '@' || c = '[' || c = '('

/-- `c` may open an abbreviation behind a marker. -/
def isMarkedStart (c : Char) : Bool := c.isAlpha || c = '.' || c = '#' || c = '[' || c = '('

/-- The classes of chars, in order of precedence. -/
inductive CharClass where
  | lineBreak
  | bound
  | start
  | closer
  | other
  deriving DecidableEq, Repr

def classOf (c : Char) : CharClass :=
  if isLineBreak c then .lineBreak
  else if isWordBound c then .bound
  else if isAbbreviationStart c then .start
  else if isCloser c then .closer
  else .other

/-- The number of closing brackets that end `t`. -/
def trailingClosers (t : List Char) : Nat := (t.reverse.takeWhile isCloser).length

/-- The run of closing brackets is no longer than the text. -/
theorem trailingClosers_le (t : List Char) : trailingClosers t ≤ t.length := by
  simpa [trailingClosers] using (List.takeWhile_sublist isCloser (l := t.reverse)).length_le

end Shorthand.Text
