import ChainIndexer.Evm.Abi.Parser
import ChainIndexer.Evm.Abi.Token
import ChainIndexer.Json.Printer
import ChainIndexer.Testing.ScriptedNode
import ChainIndexer.Wire.Answers

/-!
# Nodes in JSON

The JSON forms of nodes with prepared answers, of the filters they are sent, and of parameter
values.
-/

namespace ChainIndexer.Wire

open Evm Testing

/-- A number, in hexadecimal text or not. -/
def quantity? (value : Json) : Option Nat :=
  match value with
  | .str text =>
    match text.toList with
    | '0' :: 'x' :: digits => Hex.readNat digits
    | digits => Hex.readNat digits
  | value => value.asWord?

def quantityField? (value : Json) (name : String) : Option Nat :=
  (field? value name).bind quantity?

def hashField? (value : Json) (name : String) : Option Hash :=
  (quantityField? value name).map (BitVec.ofNat 256)

/-- The text of an error that a node answers. -/
def nodeError (value : Json) : String :=
  let code := ((field? value "code").bind Json.asSigned?).getD 0
  "(code: " ++ Decimal.ofInt code ++ ", message: " ++ strOr value "message" "" ++ ", data: None)"

def nodeBlock (value : Json) : Except String NodeBlock :=
  match field? value "error" with
  | some error => .error (nodeError error)
  | none =>
    .ok
      { number := quantityField? value "number"
        hash := hashField? value "hash"
        parentHash := (hashField? value "parentHash").getD 0
        timestamp := (quantityField? value "timestamp").getD 0 }

def scriptedLog (value : Json) : ScriptedLog where
  log :=
    { address := BitVec.ofNat 160 ((quantityField? value "address").getD 0)
      topics := (list value "topics").map fun topic => BitVec.ofNat 256 ((quantity? topic).getD 0)
      data := (Hex.bytes? (strOr value "data" "0x")).getD []
      blockHash := hashField? value "blockHash"
      blockNumber := quantityField? value "blockNumber"
      transactionHash := hashField? value "transactionHash"
      transactionIndex := quantityField? value "transactionIndex"
      logIndex := quantityField? value "logIndex"
      isRemoved := boolOr value "removed" false }
  isAlways := boolOr value "always" false

def scriptedNode (value : Json) : ScriptedNode where
  head := (quantityField? value "head").getD 0
  blocks := .ofList ((chainMembers value "blocks").filterMap fun (number, block) =>
    if block.isNull then none else some (number, nodeBlock block))
  logs := (list value "logs").map scriptedLog
  errors := (object? value "errors").map fun (method, error) => (method, nodeError error)
  filters := []

def filterJson (filter : LogFilter) : Json :=
  obj [("address", .str (Address.text filter.address)),
    ("fromBlock", .str ("0x" ++ Hex.ofNat filter.fromBlock)),
    ("toBlock", .str ("0x" ++ Hex.ofNat filter.toBlock)),
    ("topics", .arr [.arr ((filter.topics.map Hash.text).mergeSort.map .str)])]

/-- Filters in the order of their texts. -/
def filtersJson (filters : List LogFilter) : Json :=
  .arr ((filters.map filterJson).mergeSort fun a b => decide (a.render ≤ b.render))

/-- A source error; a text that a decoder words is left out. -/
def nodeErrorJson (error : SourceError) : Json :=
  match error with
  | .malformed reason =>
    if reason.startsWith "missing " || reason.startsWith "invalid address " then
      sourceErrorJson error
    else withoutText "Malformed" (sourceErrorJson error)
  | .transient _ => sourceErrorJson error

/-- The parameter value that a JSON form stands for; fuel bounds how deep values are nested. -/
def token : (fuel : Nat) → Json → Token
  | 0, _ => .tuple []
  | fuel + 1, value =>
    let given := orNull (value.get? "value")
    let word : Word := BitVec.ofNat 256 ((Hex.readNat (asStr given).toList).getD 0)
    match strOr value "type" "" with
    | "address" => .address ((Address.ofText? (asStr given)).getD 0)
    | "bool" => .bool (given.asBool?.getD false)
    | "string" => .string (asStr given)
    | "bytes" => .bytes ((Hex.bytes? (asStr given)).getD [])
    | "fixed_bytes" => .fixedBytes ((Hex.bytes? (asStr given)).getD [])
    | "int" => .int word
    | "uint" => .uint word
    | "array" => .array ((asList given).map (token fuel))
    | "fixed_array" => .fixedArray ((asList given).map (token fuel))
    | _ => .tuple ((asList given).map (token fuel))

end ChainIndexer.Wire
