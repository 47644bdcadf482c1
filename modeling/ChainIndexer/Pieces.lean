/-!
# Cutting lists into pieces
-/

namespace ChainIndexer

/-- Cuts a list into pieces of one more than `size` items; the last piece may be shorter. -/
def pieces {α : Type} (size : Nat) : List α → List (List α)
  | [] => []
  | item :: rest => (item :: rest.take size) :: pieces size (rest.drop size)
termination_by items => items.length
decreasing_by
  simp only [List.length_drop, List.length_cons]
  omega

end ChainIndexer
