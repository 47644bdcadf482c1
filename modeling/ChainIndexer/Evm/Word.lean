import ChainIndexer.Number.Hex

/-!
# Chain words

The words of 256 bits and the addresses of 160 bits that contracts work with.
-/

namespace ChainIndexer.Evm

abbrev Word := BitVec 256

/-- A digest of 256 bits. -/
abbrev Hash := BitVec 256

abbrev Address := BitVec 160

/-- The number that bytes stand for, the highest first. -/
def ofBigEndian (bytes : List UInt8) : Nat :=
  bytes.foldl (fun value byte => 256 * value + byte.toNat) 0

/-- The lowest `count` bytes of a number, the highest first. -/
def bigEndian : (count : Nat) → Nat → List UInt8
  | 0, _ => []
  | count + 1, n => bigEndian count (n / 256) ++ [UInt8.ofNat n]

def Word.ofBytes (bytes : List UInt8) : Word := BitVec.ofNat 256 (ofBigEndian bytes)

def Word.toBytes (word : Word) : List UInt8 := bigEndian 32 word.toNat

def Hash.text (hash : Hash) : String := "0x" ++ Hex.padded 64 hash.toNat

def Address.text (address : Address) : String := "0x" ++ Hex.padded 40 address.toNat

/-- Reads an address: forty digits, after `0x` or without it. Blanks among them are skipped. -/
def Address.ofText? (text : String) : Option Address :=
  match Hex.decode ((Hex.unprefixed text).filter (· ∉ [' ', '\t', '\n', '\r'])) with
  | some bytes => if bytes.length = 20 then some (BitVec.ofNat 160 (ofBigEndian bytes)) else none
  | none => none

end ChainIndexer.Evm
