/-!
# Sets of characters as ranges

A property of characters is kept as the list of the code point ranges that have it, in ascending order.
-/

namespace RemoteCache.Text

/-- Ranges of code points, both ends included. -/
abbrev Ranges := List (Nat × Nat)

def Ranges.has (ranges : Ranges) (c : Char) : Bool :=
  ranges.any fun (first, last) => first ≤ c.toNat && c.toNat ≤ last

end RemoteCache.Text
