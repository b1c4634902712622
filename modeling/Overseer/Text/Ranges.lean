/-!
# Ranges of code points

A table of a Unicode property is an array of ranges, both ends included, in ascending order.
-/

namespace Overseer.Text

/-- Is `n` inside one of the ranges of `table`? -/
def inRanges (table : Array (Nat × Nat)) (n : Nat) : Bool :=
  table.any fun r => r.1 ≤ n && n ≤ r.2

end Overseer.Text
