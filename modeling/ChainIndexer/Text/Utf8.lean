/-!
# UTF-8

Reading text from bytes that may not be valid. Every longest beginning of a character that does not
go on as one is read as the replacement character.
-/

namespace ChainIndexer.Text

/-- A character of which some bytes are still to come. -/
structure PartialChar where
  /-- How many bytes are still to come. -/
  owed : Nat
  /-- The range of the next byte. -/
  low : Nat
  high : Nat
  /-- The bits read so far. -/
  value : Nat
deriving DecidableEq, Repr, Inhabited

/-- What stands for bytes that are no character. -/
def replacement : Char := '\uFFFD'

/-- Reads the first byte of a character: what it gives at once, and what is still to come. -/
def readLead (byte : Nat) : List Char × Option PartialChar :=
  if byte < 0x80 then ([Char.ofNat byte], none)
  else if 0xC2 ≤ byte ∧ byte ≤ 0xDF then ([], some ⟨1, 0x80, 0xBF, byte - 0xC0⟩)
  else if byte = 0xE0 then ([], some ⟨2, 0xA0, 0xBF, 0⟩)
  else if byte = 0xED then ([], some ⟨2, 0x80, 0x9F, 0xD⟩)
  else if 0xE1 ≤ byte ∧ byte ≤ 0xEF then ([], some ⟨2, 0x80, 0xBF, byte - 0xE0⟩)
  else if byte = 0xF0 then ([], some ⟨3, 0x90, 0xBF, 0⟩)
  else if byte = 0xF4 then ([], some ⟨3, 0x80, 0x8F, 4⟩)
  else if 0xF1 ≤ byte ∧ byte ≤ 0xF3 then ([], some ⟨3, 0x80, 0xBF, byte - 0xF0⟩)
  else ([replacement], none)

/-- Reads a byte after the beginning of a character, if there is one. -/
def readByte (started : Option PartialChar) (byte : Nat) : List Char × Option PartialChar :=
  match started with
  | none => readLead byte
  | some p =>
    if p.low ≤ byte ∧ byte ≤ p.high then
      let value := 64 * p.value + (byte - 0x80)
      if p.owed = 1 then ([Char.ofNat value], none)
      else ([], some ⟨p.owed - 1, 0x80, 0xBF, value⟩)
    else
      let (chars, started) := readLead byte
      (replacement :: chars, started)

def readChars : (started : Option PartialChar) → List UInt8 → List Char
  | started, [] => if started.isSome then [replacement] else []
  | started, byte :: rest =>
    let (chars, started) := readByte started byte.toNat
    chars ++ readChars started rest

def ofUtf8Lossy (bytes : List UInt8) : String := String.ofList (readChars none bytes)

/-- The bytes of a text. -/
def utf8 (text : String) : List UInt8 := text.toUTF8.toList

end ChainIndexer.Text
