/-! # Sets of characters given by ranges of code points -/

namespace FloorPlan.Text

/-- A set of code points: the inclusive ranges that make it up. -/
abbrev Ranges := List (Nat × Nat)

/-- Membership of a character. -/
def Ranges.contains (rs : Ranges) (c : Char) : Bool :=
  rs.any fun r => r.1 ≤ c.toNat && c.toNat ≤ r.2

end FloorPlan.Text
