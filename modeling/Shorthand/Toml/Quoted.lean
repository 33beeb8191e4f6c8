import Shorthand.Toml.Scalar
/-!
# Texts in TOML

A text stands between double quotes, where a backslash escapes, or between single quotes, where everything is taken as
it is; between three of either it may span lines.  A line break right behind the opening quotes does not count, and a
backslash at the end of a line takes the white space behind it away.  Control chars have to be escaped.
-/
namespace Shorthand.Toml

/-- `c` may stand in a text or a comment as it is. -/
def isPlain (c : Char) : Bool := c = '\t' || (32 ≤ c.toNat && c.toNat ≠ 127)

/-- The char with the code point that hexadecimal digits give, unless that is a surrogate or out of range. -/
def charOf? (digits : Text) : Option Char :=
  let n := valueIn 16 digits
  if digits.all isHexDigit && n.isValidChar then some (Char.ofNat n) else none

def escapeOf? : Char → Option Char
  | 'b' => some '\x08'
  | 't' => some '\t'
  | 'n' => some '\n'
  | 'f' => some '\x0c'
  | 'r' => some '\r'
  | 'e' => some '\x1b'
  | '"' => some '"'
  | '\\' => some '\\'
  | _ => none

/-- A text that has been read with another char in front. -/
def withChar (c : Option Char) (r : Option (Text × Text)) : Option (Text × Text) :=
  match c, r with
  | some c, some (t, left) => some (c :: t, left)
  | _, _ => none

def atLineBreak : Text → Bool
  | '\n' :: _ => true
  | '\r' :: '\n' :: _ => true
  | _ => false

def afterLineBreak : Text → Text
  | '\n' :: s => s
  | '\r' :: '\n' :: s => s
  | s => s

/-- Where a run of quotes ends a text over several lines: the quotes before the closing three, and the rest. -/
def closing? (quote : Char) (s : Text) : Option (Text × Text) :=
  let run := (s.takeWhile (· = quote)).length
  if run < 3 then none else some (List.replicate (min run 5 - 3) quote, s.drop (min run 5))

/-- Reads a text from behind its opening double quotes, one of them or three; `skipping` tells that white space is taken
away. -/
def readEscaped? (multiline skipping : Bool) : Text → Option (Text × Text)
  | [] => none
  | '\\' :: 'x' :: a :: b :: s => withChar (charOf? [a, b]) (readEscaped? multiline false s)
  | '\\' :: 'u' :: a :: b :: c :: d :: s => withChar (charOf? [a, b, c, d]) (readEscaped? multiline false s)
  | '\\' :: 'U' :: a :: b :: c :: d :: e :: f :: g :: h :: s =>
    withChar (charOf? [a, b, c, d, e, f, g, h]) (readEscaped? multiline false s)
  | '\\' :: c :: s =>
    if multiline && atLineBreak ((c :: s).dropWhile fun c => c = ' ' || c = '\t') then
      readEscaped? multiline true (c :: s)
    else withChar (escapeOf? c) (readEscaped? multiline false s)
  | c :: s =>
    if skipping && (c = ' ' || c = '\t' || atLineBreak (c :: s)) then readEscaped? multiline true s
    else if c = '"' then
      if multiline then
        match closing? '"' (c :: s) with
        | some closed => some closed
        | none => withChar (some c) (readEscaped? multiline false s)
      else some ([], s)
    else if multiline && (c = '\n' || (c = '\r' && s.head? = some '\n')) then
      withChar (some c) (readEscaped? multiline false s)
    else if isPlain c then withChar (some c) (readEscaped? multiline false s)
    else none

/-- Reads a text from behind its opening single quotes, one of them or three. -/
def readLiteral? (multiline : Bool) : Text → Option (Text × Text)
  | [] => none
  | c :: s =>
    if c = '\'' then
      if multiline then
        match closing? '\'' (c :: s) with
        | some closed => some closed
        | none => withChar (some c) (readLiteral? multiline s)
      else some ([], s)
    else if multiline && (c = '\n' || (c = '\r' && s.head? = some '\n')) then
      withChar (some c) (readLiteral? multiline s)
    else if isPlain c then withChar (some c) (readLiteral? multiline s)
    else none

def readQuoted? : Text → Option (Text × Text)
  | '"' :: s => readEscaped? false false s
  | '\'' :: s => readLiteral? false s
  | _ => none

/-- Reads a text, over several lines if its quotes say so. -/
def readText? : Text → Option (Text × Text)
  | '"' :: '"' :: '"' :: s => readEscaped? true false (afterLineBreak s)
  | '\'' :: '\'' :: '\'' :: s => readLiteral? true (afterLineBreak s)
  | s => readQuoted? s

end Shorthand.Toml
