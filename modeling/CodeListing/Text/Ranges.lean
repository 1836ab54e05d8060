/-!
# Sets of code points

A character class is given as a list of closed intervals of code points, in ascending order.
-/

set_option autoImplicit false

namespace CodeListing.Text

/-- Closed intervals of code points, in ascending order. -/
abbrev Ranges := List (Nat × Nat)

/-- Some interval holds the character's code point. -/
def Ranges.holds (ranges : Ranges) (c : Char) : Bool :=
  ranges.any fun range => range.1 ≤ c.toNat && c.toNat ≤ range.2

end CodeListing.Text
