import ChainIndexer.Postgres.Condition
import ChainIndexer.Postgres.Schema
import ChainIndexer.Postgres.Value

/-!
# Statements

The statements that change a database: their text, and the parameters that their placeholders
stand for. Placeholders count from one.
-/

namespace ChainIndexer.Postgres

def placeholder (number : Nat) : String := "$" ++ toString number

/-- Adds parameters to those bound so far; each gets the placeholder of its place. -/
def bindRow (bound : List Value) (values : List Value) : List Nat × List Value :=
  (List.range' (bound.length + 1) values.length, bound ++ values)

/-- Binds the values of some rows, row after row. -/
def bindRows : (bound : List Value) → List (List Value) → List (List Nat) × List Value
  | bound, [] => ([], bound)
  | bound, row :: rest =>
    let (numbers, bound) := bindRow bound row
    let (others, bound) := bindRows bound rest
    (numbers :: others, bound)

/-- What an insert does about a row whose key is there already. -/
inductive OnConflict where
  | fail
  /-- Keeps the row that is there. -/
  | keep (key : List String)
  /-- Sets some columns to the new values, and some to expressions. -/
  | update (key columns : List String) (expressions : List (String × String))
deriving DecidableEq, Repr, Inhabited

def OnConflict.text : OnConflict → String
  | .fail => ""
  | .keep key => " ON CONFLICT " ++ inParentheses key ++ " DO NOTHING"
  | .update key columns expressions =>
    let news := columns.map fun column => column ++ " = EXCLUDED." ++ column
    let computed := expressions.map fun (column, expression) => column ++ " = " ++ expression
    " ON CONFLICT " ++ inParentheses key ++ " DO UPDATE SET " ++ commaSeparated (news ++ computed)

structure Insert where
  table : String
  columns : List String
  /-- The placeholders of each row. -/
  rows : List (List Nat)
  params : List Value
  onConflict : OnConflict
deriving DecidableEq, Inhabited

namespace Insert

/-- An insert of rows, each given by the values of its columns. -/
def ofRows (table : String) (columns : List String) (rows : List (List Value))
    (onConflict : OnConflict) : Insert :=
  let (numbers, params) := bindRows [] rows
  ⟨table, columns, numbers, params, onConflict⟩

def text (insert : Insert) : String :=
  let rows := insert.rows.map fun row => inParentheses (row.map placeholder)
  "INSERT INTO " ++ insert.table ++ " " ++ inParentheses insert.columns ++ " VALUES "
    ++ commaSeparated rows ++ insert.onConflict.text

end Insert

inductive Statement where
  | startTransaction
  | commit
  | rollback
  /-- A text without parameters. -/
  | script (text : String)
  | insert (rows : Insert)
  /-- Deletes the rows that meet a condition. -/
  | deleteWhere (table : String) (condition : Condition)
  /-- Deletes entities of one kind. -/
  | deleteEntities (kind : String) (ids : List String)
  /-- Deletes the recorded blocks of a chain above a number. -/
  | deleteBlocksAbove (chain number : Int)
  /-- Deletes the rows of a chain below a block. -/
  | deleteBelow (table : String) (chain number : Int)
  /-- Deletes the history of a chain below a block, but for the last such record of each entity. -/
  | deleteSuperseded (chain number : Int)
deriving Inhabited

namespace Statement

def text : Statement → String
  | startTransaction => "START TRANSACTION"
  | commit => "COMMIT"
  | rollback => "ROLLBACK"
  | script text => text
  | insert rows => rows.text
  | deleteWhere table condition => "DELETE FROM " ++ table ++ " WHERE " ++ condition.text
  | deleteEntities _ _ =>
    "DELETE FROM " ++ entitiesTable.name ++ " WHERE kind = $1 AND id = ANY($2)"
  | deleteBlocksAbove _ _ =>
    "DELETE FROM " ++ blocksTable.name ++ " WHERE chain_id = $1 AND block_number > $2"
  | deleteBelow table _ _ =>
    "DELETE FROM " ++ table ++ " WHERE chain_id = $1 AND block_number < $2"
  | deleteSuperseded _ _ =>
    "DELETE FROM " ++ historyTable.name ++ " history"
      ++ " WHERE history.chain_id = $1 AND history.block_number < $2 AND history.serial < ("
      ++ " SELECT MAX(latest.serial) FROM " ++ historyTable.name ++ " latest"
      ++ " WHERE latest.entity_kind = history.entity_kind"
      ++ " AND latest.entity_id = history.entity_id"
      ++ " AND latest.chain_id = $1 AND latest.block_number < $2 )"

def params : Statement → List Value
  | insert rows => rows.params
  | deleteEntities kind ids => [.text kind, .texts ids]
  | deleteBlocksAbove chain number => [.bigint chain, .bigint number]
  | deleteBelow _ chain number => [.bigint chain, .bigint number]
  | deleteSuperseded chain number => [.bigint chain, .bigint number]
  | _ => []

/-- Whether a statement changes rows, and does not only frame those that do. -/
def isData : Statement → Bool
  | startTransaction | commit | rollback => false
  | _ => true

end Statement

end ChainIndexer.Postgres
