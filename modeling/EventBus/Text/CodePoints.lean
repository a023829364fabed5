/-!
# Sets of code points

A property of characters is kept as the closed ranges of code points that have it, in ascending
order, so that a search may stop at the first range that lies behind the one looked for.
-/

set_option autoImplicit false

namespace EventBus.Text

/-- Closed ranges of code points, ascending. -/
abbrev CodePoints := List (Nat × Nat)

namespace CodePoints

def contains : CodePoints → Char → Bool
  | [], _ => false
  | (low, high) :: rest, c =>
    if c.toNat < low then false else if c.toNat ≤ high then true else contains rest c

end CodePoints

end EventBus.Text
