import ChainIndexer.Rollback.Scope

/-!
# Conditions on rows

Which rows a statement is about: their text, and whether a row meets them. Tuples are compared
column by column, the first difference deciding.
-/

namespace ChainIndexer.Postgres

inductive Condition where
  | equals (column : String) (value : Nat)
  | above (column : String) (value : Nat)
  | both (first second : Condition)
  /-- A tuple of columns stands after a tuple of values. -/
  | tupleAbove (columns : List (String × Nat))
deriving Repr, Inhabited

namespace Condition

def text : Condition → String
  | equals column value => column ++ " = " ++ toString value
  | above column value => column ++ " > " ++ toString value
  | both first second => first.text ++ " AND " ++ second.text
  | tupleAbove columns =>
    "(" ++ ", ".intercalate (columns.map (·.1)) ++ ") > ("
      ++ ", ".intercalate (columns.map fun column => toString column.2) ++ ")"

/-- Compares tuples in the order of their columns. -/
def isAbove (row : String → Nat) : List (String × Nat) → Bool
  | [] => false
  | (column, value) :: rest =>
    value < row column || (decide (value = row column) && isAbove row rest)

/-- Whether a row, given by its columns, meets a condition. -/
def holds (row : String → Nat) : Condition → Bool
  | equals column value => row column = value
  | above column value => value < row column
  | both first second => first.holds row && second.holds row
  | tupleAbove columns => isAbove row columns

/-- The rows that a rollback makes stale. -/
def ofScope : RollbackScope → Condition
  | .chain chain safeBlock => both (equals "chain_id" chain) (above "block_number" safeBlock)
  | .global chain safeBlock safeTimestamp =>
    tupleAbove
      [("block_timestamp", safeTimestamp), ("chain_id", chain), ("block_number", safeBlock)]

end Condition

end ChainIndexer.Postgres
