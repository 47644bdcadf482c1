import ChainIndexer.Evm.Abi.Token
import ChainIndexer.Evm.Abi.Type

/-!
# Decoding event data

Values are laid out in words of 32 bytes. A value of fixed length stands where it is read; of any
other value an offset stands there, counted from the start of the data around it. Padding is
looked at before booleans, offsets and lengths only, and what follows the last value is not.
-/

namespace ChainIndexer.Evm

/-- The bytes from an offset on, if there are enough of them. -/
def bytesAt (data : List UInt8) (offset count : Nat) : Option (List UInt8) :=
  if offset + count ≤ data.length then some ((data.drop offset).take count) else none

def wordAt (data : List UInt8) (offset : Nat) : Option Word :=
  (bytesAt data offset 32).map Word.ofBytes

/-- An offset or a length: a word that fits 32 bits. -/
def sizeAt (data : List UInt8) (offset : Nat) : Option Nat :=
  ((wordAt data offset).map BitVec.toNat).filter (· < 0x100000000)

/-- Reads a value at an offset: the value, and where the next one stands. -/
abbrev Reading (α : Type) := List UInt8 → Nat → Option (α × Nat)

/-- Reads a number of bytes whose length stands before them. -/
def readSized (data : List UInt8) (offset : Nat) : Option (List UInt8) := do
  let start ← sizeAt data offset
  let length ← sizeAt data start
  bytesAt data (start + 32) length

/-- Reads a value some times over. -/
def readTimes (read : Reading Token) : (times : Nat) → Reading (List Token)
  | 0, _, offset => some ([], offset)
  | times + 1, data, offset => do
    let (item, offset) ← read data offset
    let (rest, offset) ← readTimes read times data offset
    return (item :: rest, offset)

/-- Reads a compound value, either in place or where an offset leads. -/
def readCompound (isDynamic : Bool) (read : Reading (List Token)) : Reading (List Token) :=
  fun data offset =>
    if isDynamic then do
      let start ← sizeAt data offset
      if data.length < start then none
      else
        let (items, _) ← read (data.drop start) 0
        return (items, offset + 32)
    else read data offset

namespace AbiType

mutual

def read : AbiType → Reading Token
  | .address, data, offset => do
    return (.address ((← wordAt data offset).setWidth 160), offset + 32)
  | .bool, data, offset => do
    let word ← wordAt data offset
    -- Only the last byte counts, but the ones before it have to be zero.
    if 256 ≤ word.toNat then none else return (.bool (word.toNat = 1), offset + 32)
  | .string, data, offset => do
    return (.string (Text.ofUtf8Lossy (← readSized data offset)), offset + 32)
  | .bytes, data, offset => do return (.bytes (← readSized data offset), offset + 32)
  | .int _, data, offset => do return (.int (← wordAt data offset), offset + 32)
  | .uint _, data, offset => do return (.uint (← wordAt data offset), offset + 32)
  | .fixedBytes size, data, offset => do
    return (.fixedBytes (← bytesAt data offset size), offset + 32)
  | .array item, data, offset => do
    let start ← sizeAt data offset
    let length ← sizeAt data start
    let (items, _) ← readTimes item.read length (data.drop (start + 32)) 0
    return (.array items, offset + 32)
  | .fixedArray item size, data, offset => do
    let (items, offset) ← readCompound item.isDynamic (readTimes item.read size) data offset
    return (.fixedArray items, offset)
  | .tuple items, data, offset => do
    let (items, offset) ← readCompound (anyDynamic items) (readAll items) data offset
    return (.tuple items, offset)

/-- Reads values of some types one after the other. -/
def readAll : List AbiType → Reading (List Token)
  | [], _, offset => some ([], offset)
  | type :: rest, data, offset => do
    let (item, offset) ← type.read data offset
    let (items, offset) ← readAll rest data offset
    return (item :: items, offset)

end

/-- The values that data holds. No data at all is refused where a value takes some. -/
def decode (types : List AbiType) (data : List UInt8) : Option (List Token) :=
  if data.isEmpty && !types.all mayBeEmpty then none
  else (readAll types data 0).map (·.1)

end AbiType

namespace EventAbi

/-- The parameters of a log, by name; of several with one name the last counts, those in topics
before the others. -/
def readLog (event : EventAbi) (topics : List Hash) (data : List UInt8) : Option Json :=
  let values := if event.isAnonymous then topics else topics.drop 1
  let isNamed := event.isAnonymous || topics.head? = some event.topic
  let indexed := event.params.filter (·.isIndexed)
  let others := event.params.filter (!·.isIndexed)
  if !isNamed || indexed.length ≠ values.length then none
  else do
    let inTopics ←
      AbiType.decode (indexed.map (·.type.inTopic)) (values.flatMap Word.toBytes)
    let inData ← AbiType.decode (others.map (·.type)) data
    let names := (indexed ++ others).map (·.name)
    return .object (names.zip ((inTopics ++ inData).map Token.toJson))

end EventAbi

end ChainIndexer.Evm
