import ChainIndexer.Number.Word

/-!
# Batch size

How many blocks to ask for at once: fewer after a slow or crowded answer, more after a fast and
sparse one. Sums are made before they are held to any bound, so they may be no words.
-/

namespace ChainIndexer

structure BatchSize where
  value : Nat
  min : Nat
  max : Nat
  /-- Slower answers are too slow, in milliseconds. -/
  targetMillis : Nat
  /-- Answers of more events are too crowded. -/
  maxEvents : Nat
deriving DecidableEq, Repr, Inhabited

namespace BatchSize

/-- The nearest size within the bounds. -/
def clamp (size : BatchSize) (value : Nat) : Nat := Nat.max size.min (Nat.min value size.max)

def start (initial min max targetMillis maxEvents : Nat) : BatchSize :=
  let size : BatchSize := ⟨initial, min, max, targetMillis, maxEvents⟩
  { size with value := size.clamp initial }

/-- The next larger size before it is held to the bounds. -/
def grown (size : BatchSize) : Nat := size.value + Nat.max (size.value / 2) 1

def shrink (size : BatchSize) : BatchSize :=
  { size with value := size.clamp (size.value / 2) }

def grow (size : BatchSize) : BatchSize :=
  { size with value := size.clamp size.grown }

/-- Adapts to an answer that took some microseconds and held some events. -/
def adjust (size : BatchSize) (micros events : Nat) : BatchSize :=
  if 1000 * size.targetMillis < micros ∨ size.maxEvents < events then size.shrink
  else if 2 * micros ≤ 1000 * size.targetMillis ∧ 2 * events ≤ size.maxEvents then size.grow
  else size

/-- `grow`, unless the next larger size is no word. -/
def grow? (size : BatchSize) : Option BatchSize :=
  (Word.checkedAdd size.value (Nat.max (size.value / 2) 1)).map fun grown =>
    { size with value := size.clamp grown }

/-- `adjust`, unless a sum on the way to it is no word. Events are only counted twice after a fast
answer. -/
def adjust? (size : BatchSize) (micros events : Nat) : Option BatchSize :=
  if 1000 * size.targetMillis < micros ∨ size.maxEvents < events then some size.shrink
  else if 1000 * size.targetMillis < 2 * micros then some size
  else do
    let doubled ← Word.checkedAdd events events
    if doubled ≤ size.maxEvents then size.grow? else return size

end BatchSize

end ChainIndexer
