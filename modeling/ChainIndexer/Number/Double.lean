import ChainIndexer.Number.Word

/-!
# Doubles

Binary floating-point numbers of 64 bits, known by their bit pattern. Writing one gives the fewest
digits that read back as the same number, and of those the nearest; reading one scales the leading
digits by a power of ten.
-/

namespace ChainIndexer

/-- A finite double, by its bits. -/
structure Double where
  bits : UInt64
deriving DecidableEq, Repr, Inhabited

namespace Double

def ofFloat (value : Float) : Double := ⟨value.toBits⟩

/-- The number of fractions, which take 52 bits. -/
abbrev fractionCount : Nat := 0x10000000000000

/-- The number of exponents, which take 11 bits. -/
abbrev exponentCount : Nat := 0x800

def isNegative (d : Double) : Bool := Word.half ≤ d.bits.toNat

def fraction (d : Double) : Nat := d.bits.toNat % fractionCount

def biasedExponent (d : Double) : Nat := d.bits.toNat / fractionCount % exponentCount

/-- The whole factor `m` of a magnitude `m · 2 ^ (e - 1075)`. -/
def mantissa (d : Double) : Nat :=
  if d.biasedExponent = 0 then d.fraction else d.fraction + fractionCount

/-- The exponent `e` of a magnitude `m · 2 ^ (e - 1075)`. -/
def scale (d : Double) : Nat := Nat.max d.biasedExponent 1

/-- A positive rational number. -/
structure Ratio where
  num : Nat
  den : Nat

/-- `factor · 2 ^ (scale - 1077)`, so that `4 · m` stands for a magnitude with mantissa `m`. -/
def Ratio.ofQuarters (factor scale : Nat) : Ratio :=
  if 1077 ≤ scale then ⟨factor * Nat.pow 2 (scale - 1077), 1⟩
  else ⟨factor, Nat.pow 2 (1077 - scale)⟩

/-- The magnitudes that round to a given one. -/
structure Interval where
  low : Ratio
  high : Ratio
  closed : Bool

/-- The gap below a power of two is half as wide as the gap above it. -/
def interval (d : Double) : Interval where
  low :=
    let gap := if d.fraction = 0 ∧ 1 < d.biasedExponent then 1 else 2
    Ratio.ofQuarters (4 * d.mantissa - gap) d.scale
  high := Ratio.ofQuarters (4 * d.mantissa + 2) d.scale
  closed := d.mantissa % 2 = 0

/-- A decimal number `digits · 10 ^ exponent`. -/
structure Decimal where
  digits : Nat
  exponent : Int

def Decimal.ratio (d : Decimal) : Ratio :=
  if 0 ≤ d.exponent then ⟨d.digits * Nat.pow 10 d.exponent.toNat, 1⟩
  else ⟨d.digits, Nat.pow 10 (-d.exponent).toNat⟩

def Ratio.le (a b : Ratio) : Bool := a.num * b.den ≤ b.num * a.den

def Ratio.lt (a b : Ratio) : Bool := a.num * b.den < b.num * a.den

def Interval.contains (i : Interval) (r : Ratio) : Bool :=
  if i.closed then i.low.le r && r.le i.high else i.low.lt r && r.lt i.high

/-- The exponent of the leading digit: the largest `e` with `10 ^ e ≤ r`, sought downwards. -/
def leadingExponent (r : Ratio) : (fuel : Nat) → Int → Int
  | 0, e => e
  | fuel + 1, e => if (Decimal.ratio ⟨1, e⟩).le r then e else leadingExponent r fuel (e - 1)

/-- The multiple of `10 ^ exponent` at or below `r`. -/
def gridBelow (r : Ratio) (exponent : Int) : Nat :=
  if 0 ≤ exponent then r.num / (r.den * Nat.pow 10 exponent.toNat)
  else r.num * Nat.pow 10 (-exponent).toNat / r.den

/-- Of the two grid neighbours of `r` that round to it the nearer one; a tie goes to the even
one. -/
def nearestOnGrid (i : Interval) (r : Ratio) (exponent : Int) : Option Decimal :=
  let below : Decimal := ⟨gridBelow r exponent, exponent⟩
  let above : Decimal := ⟨below.digits + 1, exponent⟩
  match i.contains below.ratio, i.contains above.ratio with
  | true, true =>
    let middle : Ratio := ⟨below.ratio.num * above.ratio.den + above.ratio.num * below.ratio.den,
      2 * below.ratio.den * above.ratio.den⟩
    if r.lt middle then some below
    else if middle.lt r then some above
    else some (if below.digits % 2 = 0 then below else above)
  | true, false => some below
  | false, true => some above
  | false, false => none

/-- Tries grids of ever more digits. -/
def shortestFrom (i : Interval) (r : Ratio) (leading : Int) : (fuel places : Nat) → Decimal
  | 0, places => ⟨gridBelow r (leading - places), leading - places⟩
  | fuel + 1, places =>
    match nearestOnGrid i r (leading - places) with
    | some d => d
    | none => shortestFrom i r leading fuel (places + 1)

/-- The shortest decimal number that reads back as this magnitude. -/
def shortest (d : Double) : Decimal :=
  let r := Ratio.ofQuarters (4 * d.mantissa) d.scale
  shortestFrom d.interval r (leadingExponent r 700 309) 17 0

/-- Drops zeros at the end of the digits. -/
def Decimal.trim : (fuel : Nat) → Decimal → Decimal
  | 0, d => d
  | fuel + 1, d =>
    if d.digits ≠ 0 ∧ d.digits % 10 = 0 then Decimal.trim fuel ⟨d.digits / 10, d.exponent + 1⟩
    else d

/-- Positional when the leading digit stands between `10 ^ -5` and `10 ^ 15`, with at least one
place after the point; otherwise one digit before the point, if any follow, and a signed
exponent. -/
def Decimal.layout (d : Decimal) : String :=
  let digits := toString d.digits
  let count : Int := digits.length
  let leading := d.exponent + count - 1
  if -5 ≤ leading ∧ leading ≤ 15 then
    if 0 ≤ d.exponent then digits ++ String.ofList (List.replicate d.exponent.toNat '0') ++ ".0"
    else if 0 ≤ leading then
      let places := (leading + 1).toNat
      (digits.take places).toString ++ "." ++ (digits.drop places).toString
    else "0." ++ String.ofList (List.replicate (-leading - 1).toNat '0') ++ digits
  else
    let rest := (digits.drop 1).toString
    (digits.take 1).toString ++ (if rest.isEmpty then "" else "." ++ rest) ++ "e"
      ++ (if leading < 0 then "-" else "+") ++ toString leading.natAbs

def text (d : Double) : String :=
  (if d.isNegative then "-" else "") ++
    if d.mantissa = 0 then "0.0" else (d.shortest.trim 20).layout

/-- `significand · 10 ^ exponent`, scaled in steps that a double can hold; `none` if it is too
large for one. -/
def scaled : (fuel : Nat) → Float → Int → Option Float
  | 0, value, _ => some value
  | fuel + 1, value, exponent =>
    if exponent.natAbs ≤ 308 then
      let power := Float.ofScientific 1 false exponent.natAbs
      let result := if 0 ≤ exponent then value * power else value / power
      if result.isInf then none else some result
    else if value == 0.0 then some value
    else if 0 ≤ exponent then none
    else scaled fuel (value / Float.ofScientific 1 false 308) (exponent + 308)

/-- The double for decimal digits with an exponent. -/
def ofDecimal (negative : Bool) (significand : Nat) (exponent : Int) : Option Double :=
  (scaled 8 (UInt64.ofNat significand).toFloat exponent).map fun value =>
    ofFloat (if negative then -value else value)

end Double

end ChainIndexer
