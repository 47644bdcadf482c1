import ChainIndexer.Evm.Word
import ChainIndexer.Json.Basic
import ChainIndexer.Number.Decimal

/-!
# Values of event parameters

The values that contracts encode, and their JSON forms: bytes and addresses are hexadecimal text,
integers are decimal text, as they may be too large for a JSON number.
-/

namespace ChainIndexer.Evm

inductive Token where
  | address (value : Address)
  | bool (value : Bool)
  | string (value : String)
  | bytes (value : List UInt8)
  | fixedBytes (value : List UInt8)
  /-- A word that stands for a number with a sign. -/
  | int (word : Word)
  | uint (word : Word)
  | array (items : List Token)
  | fixedArray (items : List Token)
  | tuple (items : List Token)
deriving Inhabited

namespace Token

mutual

def toJson : Token → Json
  | address value => .str (Address.text value)
  | bool value => .bool value
  | string value => .str value
  | bytes value | fixedBytes value => .str (Hex.ofBytes value)
  | int word => .str (Decimal.ofInt word.toInt)
  | uint word => .str (Decimal.ofNat word.toNat)
  | array items | fixedArray items | tuple items => .arr (toJsons items)

def toJsons : List Token → List Json
  | [] => []
  | item :: rest => item.toJson :: toJsons rest

end

end Token

end ChainIndexer.Evm
