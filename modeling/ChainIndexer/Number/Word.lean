/-!
# Words

Quantities on a chain are natural numbers that fit 64 bits. Sums that may leave that range stop at
its end, and a database stores a word in a signed column by its bit pattern.
-/

namespace ChainIndexer.Word

/-- The number of 64-bit words. -/
abbrev count : Nat := 0x10000000000000000

/-- The number of those that have no sign bit. -/
abbrev half : Nat := 0x8000000000000000

/-- The largest 64-bit word. -/
def max : Nat := count - 1

def saturatingAdd (a b : Nat) : Nat := Nat.min (a + b) max

def saturatingMul (a b : Nat) : Nat := Nat.min (a * b) max

/-- The signed number with the same 64-bit pattern. -/
def toSigned (word : Nat) : Int := (word : Int).bmod count

/-- The word with the same 64-bit pattern as a signed number. -/
def ofSigned (value : Int) : Nat := (value % count).toNat

/-- `a + b`, unless that is no word. -/
def checkedAdd (a b : Nat) : Option Nat := if a + b ≤ max then some (a + b) else none

/-- `a - b`, unless that is negative. -/
def checkedSub (a b : Nat) : Option Nat := if b ≤ a then some (a - b) else none

end ChainIndexer.Word
