import ChainIndexer.Postgres.Row
import ChainIndexer.Postgres.Server
import ChainIndexer.Postgres.Write

/-!
# Storage on a server

The calls on a store that a Postgres server keeps.
-/

namespace ChainIndexer.Postgres

namespace Query

def entity (key : EntityKey) : Query :=
  ⟨"SELECT kind, id, fields FROM " ++ entitiesTable.name ++ " WHERE kind = $1 AND id = $2",
    [.text key.kind, .text key.id]⟩

def checkpoints : Query := ⟨"SELECT * FROM " ++ checkpointsTable.name, []⟩

def registrations : Query := ⟨"SELECT * FROM " ++ registrationsTable.name, []⟩

def recentBlocks (chain limit : Nat) : Query :=
  ⟨"SELECT block_number AS number, block_hash AS hash, parent_hash, block_timestamp AS timestamp"
      ++ " FROM " ++ blocksTable.name ++ " WHERE chain_id = $1"
      ++ " ORDER BY block_number DESC LIMIT $2",
    [.word chain, .word limit]⟩

def latestOrigins (keys : List EntityKey) : Query :=
  ⟨"SELECT DISTINCT ON (entity_kind, entity_id)"
      ++ " entity_kind, entity_id, chain_id, block_number, block_timestamp, log_index"
      ++ " FROM " ++ historyTable.name
      ++ " WHERE (entity_kind, entity_id) IN (SELECT * FROM UNNEST($1::TEXT[], $2::TEXT[]))"
      ++ " ORDER BY entity_kind, entity_id, serial DESC",
    [.texts (keys.map (·.kind)), .texts (keys.map (·.id))]⟩

def historyIn (scope : RollbackScope) : Query :=
  ⟨"SELECT * FROM " ++ historyTable.name ++ " WHERE " ++ (Condition.ofScope scope).text, []⟩

def recordAt (key : EntityKey) (origin : Origin) : Query :=
  ⟨"SELECT * FROM " ++ historyTable.name ++ " WHERE entity_kind = $1 AND entity_id = $2"
      ++ " AND chain_id = $3 AND block_number = $4 AND log_index = $5 AND block_timestamp = $6",
    [.text key.kind, .text key.id, .word origin.chain, .word origin.block, .word origin.logIndex,
      .word origin.timestamp]⟩

def firstInvalidatedBlocks (scope : RollbackScope) : Query :=
  ⟨"SELECT chain_id, MIN(block_number) AS block_number FROM " ++ rawEventsTable.name
      ++ " WHERE " ++ (Condition.ofScope scope).text ++ " GROUP BY chain_id", []⟩

def resetCount : Query := ⟨"SELECT COUNT(*) FROM " ++ resetCountsTable.name, []⟩

end Query

variable {σ α : Type}

/-- Reads all rows that a query selects. -/
def load (server : Server σ) (query : Query) (read : Json → Option α) :
    Call σ RepoError (List α) := do
  match ← onServer (server.fetch query.aggregated) with
  | some answer => ExceptT.mk (return readRows read answer)
  | none => return []

/-- Runs scripts, each on its own. -/
def runScripts (server : Server σ) (scripts : List String) : Call σ RepoError Unit :=
  onServer (executeAll server (scripts.map .script))

/-- Reads history records, in serial order. -/
def loadRecords (server : Server σ) (query : Query) : Call σ RepoError (List HistoryRecord) := do
  let rows ← load server query HistoryRow.ofJson?
  ExceptT.mk (return HistoryRow.toRecords rows)

end ChainIndexer.Postgres

namespace ChainIndexer

open Postgres in
/-- The calls on a store that a server keeps. -/
def Repo.onServer {σ : Type} (server : Server σ) : Repo σ where
  migrate := runScripts server migrations
  reset := runScripts server (resetMigrations ++ migrations)
  resetCount := do
    match (← Postgres.onServer (server.fetch Query.resetCount)).bind Json.asSigned? with
    | some count => return Word.ofSigned count
    | none => throw (.query .unreadableAnswer)
  countReset := runScripts server ["INSERT INTO " ++ resetCountsTable.name ++ " DEFAULT VALUES"]
  commit unit := Postgres.onServer (transaction server (commitStatements unit))
  entity key := return (← load server (Query.entity key) entityOfJson?).getLast?.map (·.2)
  checkpoints := load server Query.checkpoints checkpointOfJson?
  registrations := load server Query.registrations registrationOfJson?
  recentBlocks chain limit := do
    let blocks ← load server (Query.recentBlocks chain limit) blockOfJson?
    return blocks.mergeSort fun a b => b.number ≤ a.number
  latestOrigins keys := do
    return OriginRow.toTable (← load server (Query.latestOrigins keys) OriginRow.ofJson?)
  historyIn scope := loadRecords server (Query.historyIn scope)
  recordAt key origin := return (← loadRecords server (Query.recordAt key origin)).getLast?
  firstInvalidatedBlocks scope := do
    return .ofList (← load server (Query.firstInvalidatedBlocks scope) firstBlockOfJson?)
  applyRollback plan := Postgres.onServer (transaction server (rollbackStatements plan))
  prune chain minBlock := Postgres.onServer (transaction server (pruneStatements chain minBlock))

end ChainIndexer
