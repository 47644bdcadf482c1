import ChainIndexer.Checkpoint
import ChainIndexer.Json.Record
import ChainIndexer.Postgres.Value
import ChainIndexer.Contract.Registration
import ChainIndexer.Repo.Error

/-!
# Rows

The columns under which values are stored, and how rows that the server sends as JSON are read.
Words are stored by their bit patterns; a row with a negative number where a word should be does not
read.
-/

namespace ChainIndexer.Postgres

/-- A row as it is written: its columns and their values. -/
abbrev Row := List (String × Value)

namespace Row

/-- A row as the server sends it. -/
def toJson (row : Row) : Json := .object (row.map fun column => (column.1, column.2.toJson))

def ofEvent (event : Event) : Row :=
  [("chain_id", .word event.chain), ("contract_address", .text event.address),
    ("contract_name", .text event.contract), ("event_name", .text event.name),
    ("params", .jsonb event.params), ("block_hash", .text event.blockHash),
    ("block_number", .word event.block), ("block_timestamp", .word event.timestamp),
    ("transaction_hash", .text event.transactionHash),
    ("transaction_index", .word event.transactionIndex), ("log_index", .word event.logIndex)]

def ofEntity (key : EntityKey) (fields : Json) : Row :=
  [("kind", .text key.kind), ("id", .text key.id), ("fields", .jsonb fields)]

def ofHistory (entry : HistoryEntry) : Row :=
  [("entity_kind", .text entry.key.kind), ("entity_id", .text entry.key.id),
    ("action", .text entry.action.text), ("snapshot", .ofOption .jsonb entry.snapshot),
    ("chain_id", .word entry.origin.chain), ("block_number", .word entry.origin.block),
    ("block_timestamp", .word entry.origin.timestamp), ("log_index", .word entry.origin.logIndex),
    ("previous_chain_id", .word entry.previous.chain),
    ("previous_block_number", .word entry.previous.block),
    ("previous_block_timestamp", .word entry.previous.timestamp),
    ("previous_log_index", .word entry.previous.logIndex)]

def ofRegistration (registration : Registration) : Row :=
  [("chain_id", .word registration.chain), ("address", .text registration.address),
    ("contract_name", .text registration.contract), ("block_number", .word registration.block),
    ("log_index", .word registration.logIndex), ("block_timestamp", .word registration.timestamp),
    ("registering_contract_address", .text registration.byAddress),
    ("registering_contract_name", .text registration.byContract),
    ("registering_event_name", .text registration.byEvent)]

def ofCheckpoint (checkpoint : Checkpoint) : Row :=
  [("chain_id", .word checkpoint.chain), ("start_block_number", .word checkpoint.startBlock),
    ("end_block_number", .ofOption .word checkpoint.endBlock),
    ("latest_fetched_block_number", .ofOption .word checkpoint.fetched),
    ("latest_processed_block_number", .ofOption .word checkpoint.processed),
    ("processed_block_number", .ofOption (.word ·.block) checkpoint.position),
    ("processed_log_index", .ofOption (.word ·.logIndex) checkpoint.position),
    ("events_processed", .word checkpoint.events), ("batches_fetched", .word checkpoint.batches),
    ("first_event_block_number", .ofOption .word checkpoint.firstEventBlock),
    ("caught_up_at", .ofOption .bigint checkpoint.caughtUpAt),
    ("is_live", .boolean checkpoint.isLive), ("is_finished", .boolean checkpoint.isFinished)]

def ofBlock (recorded : RecordedBlock) : Row :=
  [("chain_id", .word recorded.chain), ("block_number", .word recorded.block.number),
    ("block_hash", .text recorded.block.hash), ("parent_hash", .text recorded.block.parentHash),
    ("block_timestamp", .word recorded.block.timestamp)]

end Row

/-- A history record whose action is still a text. -/
structure HistoryRow where
  serial : Nat
  key : EntityKey
  action : String
  snapshot : Option Json
  origin : Origin
  previous : Origin
deriving DecidableEq, Inhabited

namespace HistoryRow

def ofJson? (value : Json) : Option HistoryRow := do
  let [serial, kind, id, action, snapshot, chain, block, timestamp, logIndex, previousChain,
      previousBlock, previousTimestamp, previousLogIndex] ←
    value.recordFields? ["serial", "entity_kind", "entity_id", "action", "snapshot", "chain_id",
      "block_number", "block_timestamp", "log_index", "previous_chain_id",
      "previous_block_number", "previous_block_timestamp", "previous_log_index"] | none
  let serial ← Json.required? Json.asWord? serial
  let kind ← Json.required? Json.asString? kind
  let id ← Json.required? Json.asString? id
  let action ← Json.required? Json.asString? action
  let snapshot ← Json.optional? some snapshot
  let origin : Origin := ⟨← Json.required? Json.asWord? chain, ← Json.required? Json.asWord? block,
    ← Json.required? Json.asWord? timestamp, ← Json.required? Json.asWord? logIndex⟩
  let previous : Origin := ⟨← Json.required? Json.asWord? previousChain,
    ← Json.required? Json.asWord? previousBlock, ← Json.required? Json.asWord? previousTimestamp,
    ← Json.required? Json.asWord? previousLogIndex⟩
  return ⟨serial, ⟨kind, id⟩, action, snapshot, origin, previous⟩

/-- The record of a row, if its action is known. -/
def toRecord (row : HistoryRow) : Except RepoError HistoryRecord :=
  match HistoryAction.ofText? row.action with
  | some action =>
    .ok
      { key := row.key
        action := action
        snapshot := row.snapshot
        origin := row.origin
        previous := row.previous
        serial := row.serial }
  | none => .error (.query (.unknownAction row.action))

/-- The records of rows in serial order; those with one serial keep their order. -/
def toRecords (rows : List HistoryRow) : Except RepoError (List HistoryRecord) := do
  let records ← rows.mapM toRecord
  return records.mergeSort fun a b => a.serial ≤ b.serial

end HistoryRow

/-- Where the last history record of an entity came from. -/
structure OriginRow where
  key : EntityKey
  origin : Origin
deriving DecidableEq, Inhabited

namespace OriginRow

def ofJson? (value : Json) : Option OriginRow := do
  let [kind, id, chain, block, timestamp, logIndex] ←
    value.recordFields? ["entity_kind", "entity_id", "chain_id", "block_number", "block_timestamp",
      "log_index"] | none
  return ⟨⟨← Json.required? Json.asString? kind, ← Json.required? Json.asString? id⟩,
    ⟨← Json.required? Json.asWord? chain, ← Json.required? Json.asWord? block,
      ← Json.required? Json.asWord? timestamp, ← Json.required? Json.asWord? logIndex⟩⟩

/-- The origins by entity; the last row of an entity counts. -/
def toTable (rows : List OriginRow) : Table EntityKey Origin :=
  .ofList (rows.map fun row => (row.key, row.origin))

end OriginRow

/-- A checkpoint; a position counts only if both of its columns are filled. -/
def checkpointOfJson? (value : Json) : Option Checkpoint := do
  let [chain, start, finish, fetched, processed, block, logIndex, events, batches, firstEvent,
      caughtUpAt, isLive, isFinished] ←
    value.recordFields? ["chain_id", "start_block_number", "end_block_number",
      "latest_fetched_block_number", "latest_processed_block_number", "processed_block_number",
      "processed_log_index", "events_processed", "batches_fetched", "first_event_block_number",
      "caught_up_at", "is_live", "is_finished"] | none
  let chain ← Json.required? Json.asWord? chain
  let start ← Json.required? Json.asWord? start
  let finish ← Json.optional? Json.asWord? finish
  let fetched ← Json.optional? Json.asWord? fetched
  let processed ← Json.optional? Json.asWord? processed
  let block ← Json.optional? Json.asWord? block
  let logIndex ← Json.optional? Json.asWord? logIndex
  let events ← Json.required? Json.asWord? events
  let batches ← Json.required? Json.asWord? batches
  let firstEvent ← Json.optional? Json.asWord? firstEvent
  let caughtUpAt ← Json.optional? Json.asSigned? caughtUpAt
  let isLive ← Json.required? Json.asBool? isLive
  let isFinished ← Json.required? Json.asBool? isFinished
  let position : Option Position := do
    return ⟨← block, ← logIndex⟩
  return ⟨chain, start, finish, fetched, processed, position, events, batches, firstEvent,
    caughtUpAt, isLive, isFinished⟩

def entityOfJson? (value : Json) : Option (EntityKey × Json) := do
  let [kind, id, fields] ← value.recordFields? ["kind", "id", "fields"] | none
  return (⟨← Json.required? Json.asString? kind, ← Json.required? Json.asString? id⟩, ← fields)

def registrationOfJson? (value : Json) : Option Registration := do
  let [chain, address, contract, block, logIndex, timestamp, byAddress, byContract, byEvent] ←
    value.recordFields? ["chain_id", "address", "contract_name", "block_number", "log_index",
      "block_timestamp", "registering_contract_address", "registering_contract_name",
      "registering_event_name"] | none
  return ⟨← Json.required? Json.asWord? chain, ← Json.required? Json.asString? address,
    ← Json.required? Json.asString? contract, ← Json.required? Json.asWord? block,
    ← Json.required? Json.asWord? logIndex, ← Json.required? Json.asWord? timestamp,
    ← Json.required? Json.asString? byAddress, ← Json.required? Json.asString? byContract,
    ← Json.required? Json.asString? byEvent⟩

def blockOfJson? (value : Json) : Option Block := do
  let [number, hash, parentHash, timestamp] ←
    value.recordFields? ["number", "hash", "parent_hash", "timestamp"] | none
  return ⟨← Json.required? Json.asWord? number, ← Json.required? Json.asString? hash,
    ← Json.required? Json.asString? parentHash, ← Json.required? Json.asWord? timestamp⟩

def firstBlockOfJson? (value : Json) : Option (ChainId × Nat) := do
  let [chain, block] ← value.recordFields? ["chain_id", "block_number"] | none
  return (← Json.required? Json.asWord? chain, ← Json.required? Json.asWord? block)

/-- All rows of an answer, or a serialization error if one does not read. Anything but a list of
rows stands for none. -/
def readRows {α : Type} (read : Json → Option α) (answer : Json) : Except RepoError (List α) :=
  match answer with
  | .arr rows =>
    match rows.mapM read with
    | some values => .ok values
    | none => .error .serialization
  | _ => .ok []

end ChainIndexer.Postgres
