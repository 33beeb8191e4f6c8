/-!
# Ranges of code points

A property of chars that a standard defines by a table is kept as that table: closed ranges of code points, in order.
-/
namespace Shorthand.Text

/-- `c` lies in one of the closed ranges. -/
def inRanges (ranges : List (Nat × Nat)) (c : Char) : Bool :=
  ranges.any fun r => r.1 ≤ c.toNat && c.toNat ≤ r.2

end Shorthand.Text
