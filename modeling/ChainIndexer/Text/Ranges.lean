/-!
# Ranges of characters

A property of characters is given by closed ranges of their codes.
-/

namespace ChainIndexer.Text

def inRanges (ranges : List (Nat × Nat)) (c : Char) : Bool :=
  ranges.any fun range => range.1 ≤ c.toNat && c.toNat ≤ range.2

end ChainIndexer.Text
