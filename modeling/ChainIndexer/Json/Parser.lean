import ChainIndexer.Json.Basic
import ChainIndexer.Number.Decimal
import ChainIndexer.Number.Hex

/-!
# Reading JSON

Reads one JSON value from text. Each reader returns what it read and the rest of the input; fuel
bounds the nesting and the number of items, and the length of the input is always enough.
-/

namespace ChainIndexer.Json

def isBlank (c : Char) : Bool := c = ' ' || c = '\n' || c = '\t' || c = '\r'

def skipBlanks (input : List Char) : List Char := input.dropWhile isBlank

/-- Reads the four hexadecimal digits of an escape. -/
def readUnit : List Char → Option (Nat × List Char)
  | a :: b :: c :: d :: rest => (Hex.readNat [a, b, c, d]).map fun unit => (unit, rest)
  | _ => none

/-- Reads the digits after `\u`, two units for a character beyond the first plane. -/
def readEscapedChar (input : List Char) : Option (Char × List Char) := do
  let (unit, rest) ← readUnit input
  if 0xD800 ≤ unit ∧ unit < 0xDC00 then
    match rest with
    | '\\' :: 'u' :: rest =>
      let (low, rest) ← readUnit rest
      if 0xDC00 ≤ low ∧ low < 0xE000 then
        some (Char.ofNat (0x10000 + (unit - 0xD800) * 0x400 + (low - 0xDC00)), rest)
      else none
    | _ => none
  else if 0xDC00 ≤ unit ∧ unit < 0xE000 then none
  else some (Char.ofNat unit, rest)

def escapedChar? : Char → Option Char
  | '"' => some '"'
  | '\\' => some '\\'
  | '/' => some '/'
  | 'b' => some '\x08'
  | 'f' => some '\x0c'
  | 'n' => some '\n'
  | 'r' => some '\r'
  | 't' => some '\t'
  | _ => none

/-- Reads the rest of a string after its opening quote; what was read so far is reversed. -/
def readString : (fuel : Nat) → (read : List Char) → List Char → Option (String × List Char)
  | 0, _, _ => none
  | _ + 1, _, [] => none
  | _ + 1, read, '"' :: rest => some (String.ofList read.reverse, rest)
  | fuel + 1, read, '\\' :: 'u' :: rest =>
    match readEscapedChar rest with
    | some (c, rest) => readString fuel (c :: read) rest
    | none => none
  | fuel + 1, read, '\\' :: c :: rest =>
    match escapedChar? c with
    | some c => readString fuel (c :: read) rest
    | none => none
  | fuel + 1, read, c :: rest =>
    if c.toNat < 32 ∨ c = '\\' then none else readString fuel (c :: read) rest

/-- Adds digits to a significand as long as it fits 64 bits, and counts those left out. -/
def accumulate (digits : List Char) (significand dropped : Nat) : Nat × Nat :=
  match digits with
  | [] => (significand, dropped)
  | c :: rest =>
    let next := 10 * significand + (Decimal.digit? c).getD 0
    if dropped = 0 ∧ next < Word.count then accumulate rest next 0
    else accumulate rest significand (dropped + 1)

/-- Reads the exponent of a number after its `e`. -/
def readExponent (input : List Char) : Option (Int × List Char) :=
  let (negative, rest) := match input with
    | '-' :: rest => (true, rest)
    | '+' :: rest => (false, rest)
    | rest => (false, rest)
  match rest.takeWhile Char.isDigit with
  | [] => none
  | digits =>
    (Decimal.readFrom 0 digits).map fun value =>
      (if negative then -(value : Int) else value, rest.dropWhile Char.isDigit)

/-- Reads the optional fraction of a number. -/
def readFraction : List Char → Option (Option (List Char) × List Char)
  | '.' :: rest =>
    match rest.takeWhile Char.isDigit with
    | [] => none
    | digits => some (some digits, rest.dropWhile Char.isDigit)
  | rest => some (none, rest)

/-- Reads a number. It is whole if it has neither fraction nor exponent and fits 64 bits, with
minus zero excepted. -/
def readNumber (negative : Bool) (input : List Char) : Option (Json × List Char) := do
  let whole := input.takeWhile Char.isDigit
  let rest := input.dropWhile Char.isDigit
  if whole.isEmpty ∨ (1 < whole.length ∧ whole.head? = some '0') then none
  let (fraction, rest) ← readFraction rest
  let (exponent, rest) ← match rest with
    | 'e' :: rest | 'E' :: rest =>
      (readExponent rest).map fun (value, rest) => (some value, rest)
    | rest => some (none, rest)
  let (significand, dropped) := accumulate whole 0 0
  if fraction.isNone ∧ exponent.isNone ∧ dropped = 0 then
    if ¬ negative then return (.int significand, rest)
    if significand ≠ 0 ∧ significand ≤ Word.half then return (.int (-(significand : Int)), rest)
  let digits := fraction.getD []
  let (significand, droppedPlaces) :=
    if dropped = 0 then accumulate digits significand 0 else (significand, digits.length)
  let places : Int := digits.length - droppedPlaces
  let value ← Double.ofDecimal negative significand (exponent.getD 0 + dropped - places)
  return (.double value, rest)

mutual

/-- Reads a value, blanks before it skipped. -/
def readValue : (fuel : Nat) → List Char → Option (Json × List Char)
  | 0, _ => none
  | fuel + 1, input =>
    match skipBlanks input with
    | 'n' :: 'u' :: 'l' :: 'l' :: rest => some (.null, rest)
    | 't' :: 'r' :: 'u' :: 'e' :: rest => some (.bool true, rest)
    | 'f' :: 'a' :: 'l' :: 's' :: 'e' :: rest => some (.bool false, rest)
    | '"' :: rest =>
      (readString (rest.length + 1) [] rest).map fun (text, rest) => (.str text, rest)
    | '[' :: rest =>
      match skipBlanks rest with
      | ']' :: rest => some (.arr [], rest)
      | rest => (readItems fuel rest).map fun (items, rest) => (.arr items, rest)
    | '\x7b' :: rest =>
      match skipBlanks rest with
      | '\x7d' :: rest => some (.obj [], rest)
      | rest => (readMembers fuel rest).map fun (members, rest) => (.object members, rest)
    | '-' :: rest => readNumber true rest
    | rest => readNumber false rest

/-- Reads the items of an array up to its closing bracket. -/
def readItems : (fuel : Nat) → List Char → Option (List Json × List Char)
  | 0, _ => none
  | fuel + 1, input =>
    match readValue fuel input with
    | none => none
    | some (item, rest) =>
      match skipBlanks rest with
      | ']' :: rest => some ([item], rest)
      | ',' :: rest => (readItems fuel rest).map fun (items, rest) => (item :: items, rest)
      | _ => none

/-- Reads the members of an object up to its closing brace. -/
def readMembers : (fuel : Nat) → List Char → Option (List (String × Json) × List Char)
  | 0, _ => none
  | fuel + 1, input =>
    match skipBlanks input with
    | '"' :: rest =>
      match readString (rest.length + 1) [] rest with
      | none => none
      | some (key, rest) =>
        match skipBlanks rest with
        | ':' :: rest =>
          match readValue fuel rest with
          | none => none
          | some (value, rest) =>
            match skipBlanks rest with
            | '\x7d' :: rest => some ([(key, value)], rest)
            | ',' :: rest =>
              (readMembers fuel rest).map fun (members, rest) => ((key, value) :: members, rest)
            | _ => none
        | _ => none
    | _ => none

end

/-- The value that a text holds, if it holds exactly one. -/
def parse? (text : String) : Option Json :=
  let input := text.toList
  match readValue (2 * input.length + 2) input with
  | some (value, rest) => if (skipBlanks rest).isEmpty then some value else none
  | none => none

end ChainIndexer.Json
