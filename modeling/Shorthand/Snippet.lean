import Shorthand.Text.Decimal
/-!
# Snippets

A snippet is a text with tab stops: `$1`, `${1}` and `${1:placeholder}`, where `\$` stands for a dollar.  Reading one
gives its pieces, the chars it leaves behind and the stops between them; flattening keeps the chars and puts the caret
at the stop that comes first: the one with the least number, zero counting as the greatest, and of several the earliest.
-/
namespace Shorthand.Snippet

/-- A char of the flat text, or a tab stop. -/
inductive Piece where
  | char (c : Char)
  | stop (number : Nat)
  deriving DecidableEq, Repr

/-- Where the next char of a snippet stands: outside all stops, right behind the digits of a stop without braces being
possible; behind a backslash that escapes it; before the brace that opens a stop; or behind that brace, with `depth`
braces open, the number of the stop still being possible. -/
inductive Place where
  | outside (digits : Bool)
  | escaped
  | brace
  | inside (digits : Bool) (depth : Nat)
  deriving DecidableEq, Repr

/-- The number that `t` starts with, no greater than the greatest tab stop number. -/
def numberAt (t : Text) : Nat := min maxOffset (Text.decimal (t.takeWhile Char.isDigit))

/-- The number of braces open behind `c`. -/
def deepen (depth : Nat) (c : Char) : Nat :=
  if c = '\x7b' then depth + 1 else if c = '\x7d' then depth - 1 else depth

def piecesFrom : Place → Text → List Piece
  | _, [] => []
  | .escaped, c :: t => .char c :: piecesFrom (.outside false) t
  | .brace, _ :: t => piecesFrom (.inside true 1) t
  | .inside digits depth, c :: t =>
    if digits && c.isDigit then piecesFrom (.inside true depth) t
    else if digits && c = ':' then piecesFrom (.inside false depth) t
    else if c = '\x7d' && depth ≤ 1 then piecesFrom (.outside false) t
    else .char c :: piecesFrom (.inside false (deepen depth c)) t
  | .outside digits, c :: t =>
    if digits && c.isDigit then piecesFrom (.outside true) t
    else if c = '\\' && t.head? = some '$' then piecesFrom .escaped t
    else if c = '$' && t.head?.any Char.isDigit then .stop (numberAt t) :: piecesFrom (.outside true) t
    else if c = '$' && t.head? = some '\x7b' then .stop (numberAt t.tail) :: piecesFrom .brace t
    else .char c :: piecesFrom (.outside false) t

def pieces (snippet : Text) : List Piece := piecesFrom (.outside false) snippet

/-- The chars that pieces leave behind. -/
def textOf (ps : List Piece) : Text :=
  ps.filterMap fun
    | .char c => some c
    | .stop _ => none

/-- The place of a stop in the order of visits. -/
def rank (number : Nat) : Nat := if number = 0 then maxOffset else number

/-- The stops of pieces that follow `offset` chars: the rank and the offset of each. -/
def stopsFrom : Nat → List Piece → List (Nat × Nat)
  | _, [] => []
  | offset, .char _ :: ps => stopsFrom (offset + 1) ps
  | offset, .stop number :: ps => (rank number, offset) :: stopsFrom offset ps

/-- The first of the stops of least rank. -/
def firstStop : List (Nat × Nat) → Option (Nat × Nat)
  | [] => none
  | s :: ss =>
    match firstStop ss with
    | none => some s
    | some s' => if s'.1 < s.1 then some s' else some s

/-- A snippet without its stops, and the offset of the stop the caret goes to. -/
structure Flat where
  text : Text
  caret : Option Nat
  deriving DecidableEq, Repr

/-- The flat text of a snippet and the place of its caret. -/
def flatten (snippet : Text) : Flat :=
  ⟨textOf (pieces snippet), (firstStop (stopsFrom 0 (pieces snippet))).map Prod.snd⟩

end Shorthand.Snippet
