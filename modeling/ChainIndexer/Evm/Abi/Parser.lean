import ChainIndexer.Evm.Abi.Type
import ChainIndexer.Number.Decimal
import ChainIndexer.Number.Word
import ChainIndexer.Text.Blank
import ChainIndexer.Text.Identifier

/-!
# Reading event descriptions

Events are described as in `event Transfer(address indexed from, uint256 value)`. The names of
parameters may be left out, and so may either the word `event` or the name of the event. Components
of tuples have no names. What follows the closing parenthesis does not matter, but for the word
`anonymous`.
-/

namespace ChainIndexer.Evm

/-- A piece of a description. -/
inductive AbiLexeme where
  | word (text : String)
  | number (text : String)
  | mark (c : Char)
  /-- Something that stands in no description. -/
  | unknown
deriving DecidableEq, Repr, Inhabited

namespace AbiLexeme

def marks : List Char := ['(', ')', '[', ']', ',', ';', '.']

/-- Cuts a description into pieces, with as much fuel as there are characters. -/
def scan : (fuel : Nat) → List Char → List AbiLexeme
  | 0, _ => []
  | _, [] => []
  | fuel + 1, c :: rest =>
    if Text.startsIdentifier c then
      .word (String.ofList (c :: rest.takeWhile Text.continuesIdentifier))
        :: scan fuel (rest.dropWhile Text.continuesIdentifier)
    else if c.isDigit then
      .number (String.ofList (c :: rest.takeWhile Char.isDigit))
        :: scan fuel (rest.dropWhile Char.isDigit)
    else if c ∈ marks then .mark c :: scan fuel rest
    else if Text.isBlank c then scan fuel rest
    else .unknown :: scan fuel rest

def ofText (text : String) : List AbiLexeme := scan (text.length + 1) text.toList

end AbiLexeme

/-- The words that cannot name an event or a parameter, but for those that name types. -/
def reservedWords : List String :=
  ["abstract", "anonymous", "calldata", "constant", "constructor", "enum", "error", "event",
    "external", "fallback", "function", "indexed", "internal", "memory", "override", "payable",
    "private", "public", "pure", "receive", "returns", "storage", "struct", "type", "view",
    "virtual"]

namespace AbiType

/-- The sizes of integers, in bits. -/
def integerSizes : List Nat := (List.range 32).map fun n => 8 * (n + 1)

/-- The number at the end of a word, after a given beginning. -/
def sizeAfter (beginning word : String) (sizes : List Nat) : Option Nat :=
  sizes.find? fun size => word = beginning ++ toString size

/-- The type that a word names. The word `tuple` stands for the tuple without components. -/
def ofWord? (word : String) : Option AbiType :=
  match word with
  | "address" => some .address
  | "bool" => some .bool
  | "string" => some .string
  | "bytes" => some .bytes
  | "byte" => some (.fixedBytes 1)
  | "int" => some (.int 256)
  | "uint" => some (.uint 256)
  | "tuple" => some (.tuple [])
  | word =>
    ((sizeAfter "int" word integerSizes).map int).or <|
      ((sizeAfter "uint" word integerSizes).map uint).or <|
        (sizeAfter "bytes" word ((List.range 32).map (· + 1))).map fixedBytes

/-- Reads the brackets after a type, with as much fuel as there are pieces. -/
def readArrays : (fuel : Nat) → AbiType → List AbiLexeme → Option (AbiType × List AbiLexeme)
  | fuel + 1, type, .mark '[' :: .mark ']' :: rest => readArrays fuel (.array type) rest
  | fuel + 1, type, .mark '[' :: .number size :: .mark ']' :: rest =>
    match Decimal.nat? size ChainIndexer.Word.count with
    | some size => readArrays fuel (.fixedArray type size) rest
    | none => none
  | _, _, .mark '[' :: _ => none
  | _, type, rest => some (type, rest)

/-- Whether a word can name something. -/
def isName (word : String) : Bool := !(word ∈ reservedWords) && (ofWord? word).isNone

mutual

/-- Reads a type, with as much fuel as there are pieces. -/
def readType : (fuel : Nat) → List AbiLexeme → Option (AbiType × List AbiLexeme)
  | 0, _ => none
  | fuel + 1, .mark '(' :: rest => readTuple fuel rest
  | _ + 1, .word word :: rest =>
    match ofWord? word with
    | some type => readArrays rest.length type rest
    | none => none
  | _ + 1, _ => none

/-- Reads a tuple after its opening parenthesis. -/
def readTuple : (fuel : Nat) → List AbiLexeme → Option (AbiType × List AbiLexeme)
  | 0, _ => none
  | _ + 1, .mark ')' :: rest => readArrays rest.length (.tuple []) rest
  | fuel + 1, rest =>
    match readComponents fuel rest with
    | some (items, rest) => readArrays rest.length (.tuple items) rest
    | none => none

/-- Reads the components of a tuple up to its closing parenthesis. -/
def readComponents : (fuel : Nat) → List AbiLexeme → Option (List AbiType × List AbiLexeme)
  | 0, _ => none
  | fuel + 1, rest =>
    match readType fuel rest with
    | none => none
    | some (item, rest) =>
      match rest with
      | .mark ')' :: rest => some ([item], rest)
      | .mark ',' :: rest =>
        (readComponents fuel rest).map fun (items, rest) => (item :: items, rest)
      | _ => none

end

end AbiType

namespace EventParam

/-- Reads what follows the type of a parameter: whether it is indexed, and its name. -/
def readTail : (isIndexed : Bool) → List AbiLexeme → Bool × String × List AbiLexeme
  | isIndexed, .word word :: rest =>
    if word = "indexed" then readTail true rest
    else if AbiType.isName word then (isIndexed, word, rest)
    else (isIndexed, "", .word word :: rest)
  | isIndexed, rest => (isIndexed, "", rest)

/-- Reads parameters up to the closing parenthesis, with as much fuel as there are pieces. -/
def readAll : (fuel : Nat) → List AbiLexeme → Option (List EventParam × List AbiLexeme)
  | 0, _ => none
  | fuel + 1, rest =>
    match AbiType.readType (fuel + 1) rest with
    | none => none
    | some (type, rest) =>
      let (isIndexed, name, rest) := readTail false rest
      match rest with
      | .mark ')' :: rest => some ([⟨name, type, isIndexed⟩], rest)
      | .mark ',' :: rest =>
        (readAll fuel rest).map fun (params, rest) => (⟨name, type, isIndexed⟩ :: params, rest)
      | _ => none

end EventParam

namespace EventAbi

/-- Reads an event of a given name, after the opening parenthesis. -/
def ofParams? (name : String) : List AbiLexeme → Option EventAbi
  | .mark ')' :: rest => some ⟨name, [], rest.head? = some (.word "anonymous")⟩
  | rest =>
    (EventParam.readAll (2 * rest.length + 2) rest).map fun (params, rest) =>
      ⟨name, params, rest.head? = some (.word "anonymous")⟩

def ofLexemes? : List AbiLexeme → Option EventAbi
  | .word "event" :: .mark '(' :: rest => ofParams? "" rest
  | .word "event" :: .word name :: .mark '(' :: rest
  | .word name :: .mark '(' :: rest =>
    if AbiType.isName name then ofParams? name rest else none
  | _ => none

def parse? (text : String) : Option EventAbi := ofLexemes? (AbiLexeme.ofText text)

end EventAbi

end ChainIndexer.Evm
