import ChainIndexer.Pieces
import ChainIndexer.Postgres.Row
import ChainIndexer.Postgres.Statement
import ChainIndexer.Repo.Basic

/-!
# Writes as statements

The statements that store a unit, apply a rollback, or prune a chain, each list to be run in one
transaction.
-/

namespace ChainIndexer.Postgres

/-- The number of rows that one insert holds at most. -/
def rowsPerInsert : Nat := 500

/-- An insert of rows that all have the same columns. -/
def insertRows (table : TableSchema) (rows : List Row) (onConflict : OnConflict) : Statement :=
  let columns := (rows.headD []).map (·.1)
  .insert (.ofRows table.name columns (rows.map fun row => row.map (·.2)) onConflict)

/-- Inserts of as many rows as there are, a limited number at a time. -/
def insertAll (table : TableSchema) (rows : List Row) (onConflict : OnConflict) : List Statement :=
  (pieces (rowsPerInsert - 1) rows).map fun piece => insertRows table piece onConflict

/-- One insert for every row. -/
def insertEach (table : TableSchema) (rows : List Row) (onConflict : OnConflict) :
    List Statement :=
  rows.map fun row => insertRows table [row] onConflict

def rawEventStatements (events : List Event) : List Statement :=
  insertAll rawEventsTable (events.map Row.ofEvent) .fail

/-- The rows of the entities that changes set. -/
def setRows (changes : List EntityChange) : List Row :=
  changes.filterMap fun change =>
    match change with
    | .set key fields => some (Row.ofEntity key fields)
    | .delete _ => none

/-- The ids of the entities that changes delete, by kind. -/
def deletedIds (changes : List EntityChange) : Table String (List String) :=
  changes.foldl
    (fun table change =>
      match change with
      | .set _ _ => table
      | .delete key => table.insert key.kind ((table.get? key.kind).getD [] ++ [key.id]))
    .empty

/-- First what is set, then what is deleted: a change of each entity, so the order between them is
of no matter. -/
def entityStatements (changes : List EntityChange) : List Statement :=
  insertAll entitiesTable (setRows changes)
      (.update ["kind", "id"] ["fields"] [("updated_at", currentEpoch)])
    ++ (deletedIds changes).entries.map fun (kind, ids) => .deleteEntities kind ids

/-- Each record has a statement of its own, so that serials follow the order of the records. -/
def historyStatements (history : List HistoryEntry) : List Statement :=
  insertEach historyTable (history.map Row.ofHistory) .fail

def registrationStatements (registrations : List Registration) : List Statement :=
  insertEach registrationsTable (registrations.map Row.ofRegistration)
    (.keep ["chain_id", "address"])

def checkpointStatements (checkpoints : List Checkpoint) : List Statement :=
  let news := (checkpointsTable.columns.map (·.name)).drop 1
  insertEach checkpointsTable (checkpoints.map Row.ofCheckpoint) (.update ["chain_id"] news [])

def blockStatements (blocks : List RecordedBlock) : List Statement :=
  insertEach blocksTable (blocks.map Row.ofBlock)
    (.update ["chain_id", "block_number"] ["block_hash", "parent_hash", "block_timestamp"] [])

def commitStatements (unit : WriteUnit) : List Statement :=
  rawEventStatements unit.rawEvents ++ entityStatements unit.changes
    ++ historyStatements unit.history ++ registrationStatements unit.registrations
    ++ checkpointStatements unit.checkpoints ++ blockStatements unit.blocks

def scopeStatements (scope : RollbackScope) : List Statement :=
  [historyTable, rawEventsTable, registrationsTable].map fun table =>
    .deleteWhere table.name (.ofScope scope)

/-- Without a block to go back to, all blocks of the chain go. -/
def rewindStatements (rewinds : List Rewind) : List Statement :=
  rewinds.map fun rewind =>
    .deleteBlocksAbove (Word.toSigned rewind.chain) (rewind.block.elim (-1) Word.toSigned)

def rollbackStatements (plan : RollbackPlan) : List Statement :=
  scopeStatements plan.scope ++ entityStatements plan.restores
    ++ checkpointStatements plan.checkpoints ++ rewindStatements plan.rewinds

def pruneStatements (chain minBlock : Nat) : List Statement :=
  let chain := Word.toSigned chain
  let minBlock := Word.toSigned minBlock
  [.deleteBelow rawEventsTable.name chain minBlock, .deleteBelow blocksTable.name chain minBlock,
    .deleteSuperseded chain minBlock]

end ChainIndexer.Postgres
