import ChainIndexer.Json.Basic
import ChainIndexer.Number.Word

/-!
# Column values

Values of statement parameters and of table columns, and how the server writes a column in JSON.
-/

namespace ChainIndexer.Postgres

inductive Value where
  | null
  | bigint (value : Int)
  | text (value : String)
  | jsonb (value : Json)
  | boolean (value : Bool)
  | texts (values : List String)
deriving DecidableEq, Inhabited

namespace Value

/-- A word in a signed column, by its bit pattern. -/
def word (word : Nat) : Value := .bigint (Word.toSigned word)

/-- A column that may be empty. -/
def ofOption {α : Type} (write : α → Value) : Option α → Value
  | some value => write value
  | none => .null

/-- A column in a row that the server sends as JSON. An empty column and a JSON `null` look the
same. -/
def toJson : Value → Json
  | .null => .null
  | .bigint value => .int value
  | .text value => .str value
  | .jsonb value => value
  | .boolean value => .bool value
  | .texts values => .arr (values.map .str)

end Value

end ChainIndexer.Postgres
