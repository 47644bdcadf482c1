/-!
# Database schema

The tables and indexes of an indexer, and the statements that create and drop them.
-/

namespace ChainIndexer.Postgres

structure Column where
  name : String
  type : String
deriving DecidableEq, Repr, Inhabited

structure Index where
  name : String
  isUnique : Bool
  columns : List String
deriving DecidableEq, Repr, Inhabited

structure TableSchema where
  name : String
  columns : List Column
  /-- The columns of a primary key that spans several of them. -/
  primaryKey : List String
  indexes : List Index
deriving DecidableEq, Repr, Inhabited

def commaSeparated (items : List String) : String := ", ".intercalate items

def inParentheses (items : List String) : String := "(" ++ commaSeparated items ++ ")"

namespace TableSchema

def createTable (table : TableSchema) : String :=
  let columns := table.columns.map fun column => column.name ++ " " ++ column.type
  let key :=
    if table.primaryKey.isEmpty then [] else ["PRIMARY KEY " ++ inParentheses table.primaryKey]
  "CREATE TABLE IF NOT EXISTS " ++ table.name ++ " ( " ++ commaSeparated (columns ++ key) ++ " )"

def createIndex (table : TableSchema) (index : Index) : String :=
  (if index.isUnique then "CREATE UNIQUE INDEX" else "CREATE INDEX")
    ++ " IF NOT EXISTS " ++ index.name ++ " ON " ++ table.name ++ inParentheses index.columns

/-- The statements that create a table with its indexes. -/
def create (table : TableSchema) : List String :=
  table.createTable :: table.indexes.map table.createIndex

def drop (table : TableSchema) : String := "DROP TABLE IF EXISTS " ++ table.name

end TableSchema

def requiredBigint (name : String) : Column := ⟨name, "BIGINT NOT NULL"⟩

def requiredText (name : String) : Column := ⟨name, "TEXT NOT NULL"⟩

def optionalBigint (name : String) : Column := ⟨name, "BIGINT"⟩

def requiredBoolean (name : String) : Column := ⟨name, "BOOLEAN NOT NULL"⟩

/-- The time since the epoch in seconds, as the server computes it. -/
def currentEpoch : String := "EXTRACT(EPOCH FROM CURRENT_TIMESTAMP)::BIGINT"

def entitiesTable : TableSchema where
  name := "multidexing_entities"
  columns := [requiredText "kind", requiredText "id", ⟨"fields", "JSONB NOT NULL"⟩,
    ⟨"updated_at", "BIGINT NOT NULL DEFAULT " ++ currentEpoch⟩]
  primaryKey := ["kind", "id"]
  indexes := []

def historyTable : TableSchema where
  name := "multidexing_entity_history"
  columns := [⟨"serial", "BIGSERIAL PRIMARY KEY"⟩, requiredText "entity_kind",
    requiredText "entity_id", requiredText "action", ⟨"snapshot", "JSONB"⟩,
    requiredBigint "chain_id", requiredBigint "block_number", requiredBigint "block_timestamp",
    requiredBigint "log_index", requiredBigint "previous_chain_id",
    requiredBigint "previous_block_number", requiredBigint "previous_block_timestamp",
    requiredBigint "previous_log_index"]
  primaryKey := []
  indexes :=
    [⟨"multidexing_entity_history_identity_index", true,
        ["entity_kind", "entity_id", "chain_id", "block_number", "log_index"]⟩,
      ⟨"multidexing_entity_history_order_index", false,
        ["block_timestamp", "chain_id", "block_number"]⟩]

/-- Raw events may repeat: they are read for rollbacks and pruning only. -/
def rawEventsTable : TableSchema where
  name := "multidexing_raw_events"
  columns := [requiredBigint "chain_id", requiredText "contract_address",
    requiredText "contract_name", requiredText "event_name", ⟨"params", "JSONB NOT NULL"⟩,
    requiredText "block_hash", requiredBigint "block_number", requiredBigint "block_timestamp",
    requiredText "transaction_hash", requiredBigint "transaction_index",
    requiredBigint "log_index", ⟨"inserted_at", "TIMESTAMPTZ NOT NULL DEFAULT NOW()"⟩]
  primaryKey := []
  indexes :=
    [⟨"multidexing_raw_events_chain_block_log_index", false,
      ["chain_id", "block_number", "log_index"]⟩]

def registrationsTable : TableSchema where
  name := "multidexing_contract_registrations"
  columns := [requiredBigint "chain_id", requiredText "address", requiredText "contract_name",
    requiredBigint "block_number", requiredBigint "log_index", requiredBigint "block_timestamp",
    requiredText "registering_contract_address", requiredText "registering_contract_name",
    requiredText "registering_event_name"]
  primaryKey := ["chain_id", "address"]
  indexes := []

def checkpointsTable : TableSchema where
  name := "multidexing_chain_checkpoints"
  columns := [⟨"chain_id", "BIGINT PRIMARY KEY"⟩, requiredBigint "start_block_number",
    optionalBigint "end_block_number", optionalBigint "latest_fetched_block_number",
    optionalBigint "latest_processed_block_number", optionalBigint "processed_block_number",
    optionalBigint "processed_log_index", requiredBigint "events_processed",
    requiredBigint "batches_fetched", optionalBigint "first_event_block_number",
    optionalBigint "caught_up_at", requiredBoolean "is_live", requiredBoolean "is_finished"]
  primaryKey := []
  indexes := []

def blocksTable : TableSchema where
  name := "multidexing_chain_blocks"
  columns := [requiredBigint "chain_id", requiredBigint "block_number",
    requiredText "block_hash", requiredText "parent_hash", requiredBigint "block_timestamp"]
  primaryKey := ["chain_id", "block_number"]
  indexes := []

/-- A row for every reset so far. -/
def resetCountsTable : TableSchema where
  name := "multidexing_reset_counts"
  columns := [⟨"id", "BIGSERIAL PRIMARY KEY"⟩,
    ⟨"inserted_at", "TIMESTAMPTZ NOT NULL DEFAULT NOW()"⟩]
  primaryKey := []
  indexes := []

/-- The tables that a reset empties. -/
def dataTables : List TableSchema :=
  [entitiesTable, historyTable, rawEventsTable, registrationsTable, checkpointsTable, blocksTable]

/-- What brings an empty database, or an older one, to the schema. -/
def migrations : List String := (dataTables ++ [resetCountsTable]).flatMap (·.create)

/-- What drops all data; the count of resets stays. -/
def resetMigrations : List String := dataTables.map (·.drop)

end ChainIndexer.Postgres
