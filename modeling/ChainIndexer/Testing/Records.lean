import ChainIndexer.Entity.Basic
import ChainIndexer.Json.Record
import ChainIndexer.Number.Decimal

/-!
# Sample records

Entity types to try an indexer with. A record is stored as an object of its fields, and reads back
from such an object or from an array of the fields in order.
-/

namespace ChainIndexer.Testing

structure Account where
  id : String
  balance : Nat
deriving DecidableEq, Repr, Inhabited

structure Balance where
  id : String
  amount : Nat
deriving DecidableEq, Repr, Inhabited

structure Pool where
  address : String
  swaps : Nat
  volume : Nat
deriving DecidableEq, Repr, Inhabited

structure Journal where
  id : String
  entries : List String
deriving DecidableEq, Repr, Inhabited

structure Note where
  number : Int
  id : String
  text : Option String
  data : Json
deriving DecidableEq, Inhabited

/-- Records of an id and a quantity. -/
def readQuantity (field : String) (value : Json) : Option (String × Nat) := do
  let [some id, some quantity] ← value.recordFields? ["id", field] | none
  return (← id.asString?, ← quantity.asWord?)

def writeQuantity (field id : String) (quantity : Nat) : Json :=
  .object [("id", .str id), (field, .nat quantity)]

def account : EntityType Account where
  kind := "Account"
  id := Account.id
  write account := writeQuantity "balance" account.id account.balance
  read value := (readQuantity "balance" value).map fun (id, quantity) => ⟨id, quantity⟩

def balance : EntityType Balance where
  kind := "Balance"
  id := Balance.id
  write balance := writeQuantity "amount" balance.id balance.amount
  read value := (readQuantity "amount" value).map fun (id, quantity) => ⟨id, quantity⟩

def pool : EntityType Pool where
  kind := "Pool"
  id := Pool.address
  write pool :=
    .object [("address", .str pool.address), ("swaps", .nat pool.swaps),
      ("volume", .nat pool.volume)]
  read value := do
    let [some address, some swaps, some volume] ← value.recordFields? ["address", "swaps", "volume"]
      | none
    return ⟨← address.asString?, ← swaps.asWord?, ← volume.asWord?⟩

def journal : EntityType Journal where
  kind := "Journal"
  id := Journal.id
  write journal :=
    .object [("id", .str journal.id), ("entries", .arr (journal.entries.map .str))]
  read value := do
    let [some id, some entries] ← value.recordFields? ["id", "entries"] | none
    return ⟨← id.asString?, ← (← entries.asArray?).mapM Json.asString?⟩

/-- Notes are known by their number; their text may be missing. -/
def note : EntityType Note where
  kind := "note"
  id note := Decimal.ofInt note.number
  write note :=
    .object [("number", .int note.number), ("id", .str note.id),
      ("text", .ofOption .str note.text), ("data", note.data)]
  read value := do
    let [some number, some id, text, some data] ←
      value.recordFields? ["number", "id", "text", "data"] | none
    let text ← match text with
      | none | some .null => some none
      | some text => text.asString?.map some
    return ⟨← number.asSigned?, ← id.asString?, text, data⟩

/-- Records of a type in their stored form. -/
def stored {α : Type} (type : EntityType α) : EntityType Json where
  kind := type.kind
  id value := (type.read value).elim "" type.id
  write := id
  read value := (type.read value).map type.write

/-- The sample types in stored form, by kind. -/
def recordTypes : List (EntityType Json) :=
  [stored account, stored balance, stored pool, stored journal, stored note]

def recordType? (kind : String) : Option (EntityType Json) :=
  recordTypes.find? (·.kind = kind)

end ChainIndexer.Testing
