/-!
# Hexadecimal text

Bytes and numbers in hexadecimal. Writing uses lowercase digits, reading takes both cases.
-/

namespace ChainIndexer.Hex

def digitChar (d : Nat) : Char :=
  if d < 10 then Char.ofNat ('0'.toNat + d) else Char.ofNat ('a'.toNat + (d - 10))

def digit? (c : Char) : Option Nat :=
  if '0' ≤ c ∧ c ≤ '9' then some (c.toNat - '0'.toNat)
  else if 'a' ≤ c ∧ c ≤ 'f' then some (c.toNat - 'a'.toNat + 10)
  else if 'A' ≤ c ∧ c ≤ 'F' then some (c.toNat - 'A'.toNat + 10)
  else none

/-- The hexadecimal digits of a number, the lowest first, `fuel` of them at most. -/
def digitsUpTo : (fuel n : Nat) → List Char
  | 0, _ => []
  | fuel + 1, n =>
    if n < 16 then [digitChar n] else digitChar (n % 16) :: digitsUpTo fuel (n / 16)

/-- A number without leading zeros. -/
def ofNat (n : Nat) : String := String.ofList (digitsUpTo (n + 1) n).reverse

/-- A number in at least `width` digits. -/
def padded (width n : Nat) : String :=
  let digits := (digitsUpTo (n + 1) n).reverse
  String.ofList (List.replicate (width - digits.length) '0' ++ digits)

/-- Two digits for each byte. -/
def encode (bytes : List UInt8) : List Char :=
  bytes.flatMap fun byte => [digitChar (byte.toNat / 16), digitChar (byte.toNat % 16)]

def decode : List Char → Option (List UInt8)
  | [] => some []
  | [_] => none
  | high :: low :: rest =>
    match digit? high, digit? low, decode rest with
    | some h, some l, some bytes => some (UInt8.ofNat (16 * h + l) :: bytes)
    | _, _, _ => none

def readFrom (value : Nat) : List Char → Option Nat
  | [] => some value
  | c :: rest =>
    match digit? c with
    | some d => readFrom (16 * value + d) rest
    | none => none

/-- Reads a number of at least one digit. -/
def readNat : List Char → Option Nat
  | [] => none
  | digits => readFrom 0 digits

/-- The characters of a text, less `0x` before them. -/
def unprefixed (text : String) : List Char :=
  match text.toList with
  | '0' :: 'x' :: digits => digits
  | digits => digits

/-- The bytes of a text of digit pairs, after `0x` or without it. -/
def bytes? (text : String) : Option (List UInt8) := decode (unprefixed text)

/-- Bytes as text after `0x`. -/
def ofBytes (bytes : List UInt8) : String := "0x" ++ String.ofList (encode bytes)

end ChainIndexer.Hex
