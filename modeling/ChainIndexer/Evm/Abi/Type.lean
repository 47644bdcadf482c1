import ChainIndexer.Evm.Keccak
import ChainIndexer.Evm.Word
import ChainIndexer.Text.Utf8

/-!
# Types of event parameters

The types of values that contracts encode, and the events described with them. The first topic of
an event is the digest of its name and types.
-/

namespace ChainIndexer.Evm

inductive AbiType where
  | address
  | bool
  | string
  | bytes
  | int (bits : Nat)
  | uint (bits : Nat)
  | fixedBytes (size : Nat)
  | array (item : AbiType)
  | fixedArray (item : AbiType) (size : Nat)
  | tuple (items : List AbiType)
deriving Repr, Inhabited

namespace AbiType

mutual

/-- The name of a type in signatures. -/
def name : AbiType → String
  | address => "address"
  | bool => "bool"
  | string => "string"
  | bytes => "bytes"
  | int bits => "int" ++ toString bits
  | uint bits => "uint" ++ toString bits
  | fixedBytes size => "bytes" ++ toString size
  | array item => item.name ++ "[]"
  | fixedArray item size => item.name ++ "[" ++ toString size ++ "]"
  | tuple items => "(" ++ ",".intercalate (names items) ++ ")"

def names : List AbiType → List String
  | [] => []
  | item :: rest => item.name :: names rest

end

mutual

/-- Whether values of a type have no fixed length. -/
def isDynamic : AbiType → Bool
  | string | bytes | array _ => true
  | fixedArray item _ => item.isDynamic
  | tuple items => anyDynamic items
  | _ => false

def anyDynamic : List AbiType → Bool
  | [] => false
  | item :: rest => item.isDynamic || anyDynamic rest

end

/-- Whether a value of a type may take no bytes at all. -/
def mayBeEmpty : AbiType → Bool
  | fixedBytes size | fixedArray _ size => size = 0
  | _ => false

/-- The type under which a parameter stands in a topic: values that do not fit a word are known by
their digest. -/
def inTopic : AbiType → AbiType
  | string | bytes | array _ | fixedArray _ _ | tuple _ => fixedBytes 32
  | type => type

end AbiType

structure EventParam where
  name : String
  type : AbiType
  /-- Whether the parameter stands in a topic. -/
  isIndexed : Bool
deriving Repr, Inhabited

/-- An event as its contract describes it. -/
structure EventAbi where
  name : String
  params : List EventParam
  /-- Whether logs of the event leave out the topic that names it. -/
  isAnonymous : Bool
deriving Repr, Inhabited

namespace EventAbi

def signature (event : EventAbi) : String :=
  event.name ++ "(" ++ ",".intercalate (event.params.map (·.type.name)) ++ ")"

def topic (event : EventAbi) : Hash :=
  Word.ofBytes (Keccak.digest (Text.utf8 event.signature))

end EventAbi

end ChainIndexer.Evm
