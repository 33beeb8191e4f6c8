import Shorthand.Text.Basic
/-!
# Lines

A line ends after a line feed, vertical tab, form feed, carriage return, next line, line separator or paragraph
separator; a carriage return and the line feed after it end one line together.
-/
namespace Shorthand.Text

/-- `c` is one of the chars that end a line. -/
def isLineEnd (c : Char) : Bool :=
  c = '\n' || c = '\x0b' || c = '\x0c' || c = '\r' || c = '\u0085' || c = '\u2028' || c = '\u2029'

/-- A line ends right after `c`, given what follows it. -/
def endsLine (c : Char) (after : Text) : Bool :=
  isLineEnd c && !(c = '\r' && after.head? = some '\n')

/-- Where the line that holds the offset `pos` starts. -/
def lineStart : Text → Nat → Nat
  | _, 0 => 0
  | [], _ + 1 => 0
  | c :: t, pos + 1 =>
    match lineStart t pos with
    | 0 => if endsLine c t then 1 else 0
    | start + 1 => start + 2

theorem lineStart_le : ∀ (t : Text) (pos : Nat), lineStart t pos ≤ pos
  | _, 0 => by simp [lineStart]
  | [], _ + 1 => by simp [lineStart]
  | c :: t, pos + 1 => by
    have ih := lineStart_le t pos
    unfold lineStart
    split
    · split <;> omega
    · omega

end Shorthand.Text
