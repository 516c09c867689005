/-!
# Ranges of characters

Classes of characters are given by the ranges of their code points, both ends included.
-/

namespace PortArbiter.Text

def inRanges (ranges : List (Nat × Nat)) (c : Char) : Bool :=
  ranges.any fun (first, last) => first ≤ c.toNat && c.toNat ≤ last

end PortArbiter.Text
