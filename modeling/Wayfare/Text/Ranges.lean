/-! # Ranges of code points

A character class is a list of closed intervals of code points.
-/

namespace Wayfare.Text

/-- Closed intervals of code points, each given by its first and last member. -/
abbrev Ranges := List (Nat × Nat)

def Ranges.has (rs : Ranges) (c : Char) : Bool :=
  rs.any fun r => decide (r.1 ≤ c.toNat) && decide (c.toNat ≤ r.2)

end Wayfare.Text
