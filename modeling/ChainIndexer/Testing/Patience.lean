/-!
# Waiting for a condition

A condition is looked at again and again at equal intervals, up to the end of a reader's patience;
it is looked at once more at that very moment.
-/

namespace ChainIndexer.Testing

/-- The milliseconds between two looks. -/
def pollMillis : Nat := 5

/-- The milliseconds after which waiting is given up. -/
def patienceMillis : Nat := 10000

/-- Looks at a condition that may hold from some look on, with some looks left. The answer is the
number of looks it took. -/
def lookFrom (holdsAt : Nat → Bool) : (left looks : Nat) → Option Nat
  | 0, _ => none
  | left + 1, looks =>
    if holdsAt (looks + 1) then some (looks + 1) else lookFrom holdsAt left (looks + 1)

/-- How many looks it took until a condition held, unless patience ran out. -/
def waitUntil (holdsAt : Nat → Bool) : Option Nat :=
  lookFrom holdsAt (patienceMillis / pollMillis + 1) 0

/-- When a look is made, in milliseconds. -/
def lookTime (look : Nat) : Nat := pollMillis * (look - 1)

def timeoutMessage (description : String) : String := "timed out waiting until " ++ description

end ChainIndexer.Testing
