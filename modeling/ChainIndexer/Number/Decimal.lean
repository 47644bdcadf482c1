/-!
# Decimal text

Whole numbers written in decimal. A written number is a sign, if one is allowed, and at least one
ASCII digit: no blanks, separators or other digits.
-/

namespace ChainIndexer.Decimal

/-- The number that a digit adds to ten times what stands before it. -/
def digit? (c : Char) : Option Nat :=
  if '0' ≤ c ∧ c ≤ '9' then some (c.toNat - '0'.toNat) else none

/-- Reads digits after a number already read. -/
def readFrom (value : Nat) : List Char → Option Nat
  | [] => some value
  | c :: rest =>
    match digit? c with
    | some d => readFrom (10 * value + d) rest
    | none => none

def readDigits : List Char → Option Nat
  | [] => none
  | digits => readFrom 0 digits

/-- Reads a natural number, with or without a plus sign. -/
def readNat : List Char → Option Nat
  | '+' :: digits => readDigits digits
  | digits => readDigits digits

/-- Reads a whole number, with or without a sign. -/
def readInt : List Char → Option Int
  | '-' :: digits => (readDigits digits).map fun n => -(n : Int)
  | digits => (readNat digits).map Int.ofNat

/-- Reads a natural number below a bound. -/
def nat? (text : String) (bound : Nat) : Option Nat :=
  (readNat text.toList).filter (· < bound)

/-- Reads a whole number from a half-open range. -/
def int? (text : String) (low high : Int) : Option Int :=
  (readInt text.toList).filter fun n => low ≤ n ∧ n < high

def digitChar (d : Nat) : Char := Char.ofNat ('0'.toNat + d)

/-- The digits of a number, the lowest first, `fuel` of them at most. -/
def digitsUpTo : (fuel n : Nat) → List Char
  | 0, _ => []
  | fuel + 1, n =>
    if n < 10 then [digitChar n] else digitChar (n % 10) :: digitsUpTo fuel (n / 10)

def ofNat (n : Nat) : String := String.ofList (digitsUpTo (n + 1) n).reverse

def ofInt : Int → String
  | .ofNat n => ofNat n
  | .negSucc n => "-" ++ ofNat (n + 1)

end ChainIndexer.Decimal
