import Shorthand.Text.Ranges
/-!
# Blank chars

The chars with the Unicode property `White_Space`.
-/
namespace Shorthand.Text

def blankRanges : List (Nat × Nat) :=
  [(0x9, 0xd), (0x20, 0x20), (0x85, 0x85), (0xa0, 0xa0), (0x1680, 0x1680), (0x2000, 0x200a), (0x2028, 0x2029),
   (0x202f, 0x202f), (0x205f, 0x205f), (0x3000, 0x3000)]

def isBlank (c : Char) : Bool := inRanges blankRanges c

def trimBlank (t : List Char) : List Char := ((t.dropWhile isBlank).reverse.dropWhile isBlank).reverse

/-- The maximal runs of `t` without white space, in order. -/
def words : List Char → List (List Char)
  | [] => []
  | c :: t =>
    if isBlank c then words t
    else
      match t with
      | [] => [[c]]
      | d :: _ =>
        if isBlank d then [c] :: words t
        else
          match words t with
          | [] => [[c]]
          | w :: ws => (c :: w) :: ws

end Shorthand.Text
