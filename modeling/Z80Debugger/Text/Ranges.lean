/-!
# Ranges of characters

Classes of characters are listed as ranges of code points, both ends included, in ascending order.
-/

set_option autoImplicit false

namespace Z80Debugger.Text

/-- Whether a character lies in one of the ranges. -/
def inRanges (ranges : Array (Nat × Nat)) (c : Char) : Bool :=
  ranges.any fun (first, last) => first ≤ c.toNat && c.toNat ≤ last

end Z80Debugger.Text
