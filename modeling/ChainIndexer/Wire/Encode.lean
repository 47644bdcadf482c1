import ChainIndexer.Fetch.Queue
import ChainIndexer.Pipeline.Error
import ChainIndexer.Repo.Basic
import ChainIndexer.Testing.Handlers

/-!
# Writing domain values

The JSON forms in which values and errors are answered.
-/

namespace ChainIndexer.Wire

def obj (members : List (String × Json)) : Json := .object members

def optNat (value : Option Nat) : Json := .ofOption .nat value

def eventIdJson (event : Event) : Json := .str (Testing.eventId event)

def eventJson (event : Event) : Json :=
  obj [("chain_id", .nat event.chain), ("contract_address", .str event.address),
    ("contract_name", .str event.contract), ("event_name", .str event.name),
    ("params", event.params), ("block_hash", .str event.blockHash),
    ("block_number", .nat event.block), ("block_timestamp", .nat event.timestamp),
    ("transaction_hash", .str event.transactionHash),
    ("transaction_index", .nat event.transactionIndex), ("log_index", .nat event.logIndex)]

def keyJson (key : EventKey) : Json :=
  .arr [.nat key.timestamp, .nat key.chain, .nat key.block, .nat key.logIndex]

def positionJson (position : Position) : Json :=
  .arr [.nat position.block, .nat position.logIndex]

def blockJson (block : Block) : Json :=
  .arr [.nat block.number, .str block.hash, .str block.parentHash, .nat block.timestamp]

def shortBlockJson (block : Block) : Json := .arr [.nat block.number, .str block.hash]

def recordedJson (recorded : RecordedBlock) : Json :=
  .arr [.nat recorded.chain, .nat recorded.block.number, .str recorded.block.hash]

def reorgJson (reorg : Reorg) : Json :=
  obj [("chain_id", .nat reorg.chain), ("safe_block", blockJson reorg.safeBlock)]

def originJson (origin : Origin) : Json :=
  .arr [.nat origin.chain, .nat origin.block, .nat origin.timestamp, .nat origin.logIndex]

def changeJson : EntityChange → Json
  | .set key fields => .arr [.str "set", .str key.kind, .str key.id, fields]
  | .delete key => .arr [.str "delete", .str key.kind, .str key.id]

def historyFields (entry : HistoryEntry) : List Json :=
  [.str entry.action.text, .str entry.key.kind, .str entry.key.id, entry.snapshot.getD .null,
    originJson entry.origin, originJson entry.previous]

def historyEntryJson (entry : HistoryEntry) : Json := .arr (historyFields entry)

def recordJson (record : HistoryRecord) : Json :=
  .arr (.nat record.serial :: historyFields record.toHistoryEntry)

def registrationMembers (registration : Registration) : List (String × Json) :=
  [("chain_id", .nat registration.chain), ("address", .str registration.address),
    ("contract_name", .str registration.contract), ("block_number", .nat registration.block),
    ("log_index", .nat registration.logIndex), ("block_timestamp", .nat registration.timestamp),
    ("by_address", .str registration.byAddress), ("by_contract", .str registration.byContract),
    ("by_event", .str registration.byEvent)]

def registrationJson (registration : Registration) : Json := obj (registrationMembers registration)

/-- The time of day that a run sees; stored times are earlier. -/
def now : Int := 2000000000

def timeJson (time : Int) : Json := if time = now then .str "now" else .int time

def checkpointMembers (checkpoint : Checkpoint) : List (String × Json) :=
  [("chain_id", .nat checkpoint.chain), ("start", .nat checkpoint.startBlock),
    ("end", optNat checkpoint.endBlock), ("fetched", optNat checkpoint.fetched),
    ("processed", optNat checkpoint.processed),
    ("position", .ofOption positionJson checkpoint.position), ("events", .nat checkpoint.events),
    ("batches", .nat checkpoint.batches), ("first_event", optNat checkpoint.firstEventBlock),
    ("caught_up_at", .ofOption timeJson checkpoint.caughtUpAt), ("live", .bool checkpoint.isLive),
    ("finished", .bool checkpoint.isFinished)]

def checkpointJson (checkpoint : Checkpoint) : Json := obj (checkpointMembers checkpoint)

def progressJson (progress : Progress) : Json :=
  obj [("chain_id", .nat progress.chain), ("fetched", optNat progress.fetched),
    ("processed", optNat progress.processed),
    ("position", .ofOption positionJson progress.position), ("events", .nat progress.events),
    ("batches", .nat progress.batches), ("first_event", optNat progress.firstEventBlock),
    ("live", .bool progress.isLive), ("finished", .bool progress.isFinished)]

def scopeJson : RollbackScope → Json
  | .chain chain safeBlock => .arr [.str "chain", .nat chain, .nat safeBlock]
  | .global chain safeBlock timestamp =>
    .arr [.str "global", .nat chain, .nat safeBlock, .nat timestamp]

def rewindJson (rewind : Rewind) : Json := .arr [.nat rewind.chain, optNat rewind.block]

def planJson (plan : RollbackPlan) : Json :=
  let checkpoints := plan.checkpoints.mergeSort fun a b => a.chain ≤ b.chain
  obj [("scope", scopeJson plan.scope), ("restores", .arr (plan.restores.map changeJson)),
    ("rewinds", .arr (plan.rewinds.map rewindJson)),
    ("checkpoints", .arr (checkpoints.map checkpointJson))]

def watchedJson (watched : WatchedAddress) : Json :=
  .arr [.str watched.address, .str watched.contract, .nat watched.startBlock]

/-- An error answer; texts worded by a decoder are left out. -/
def errorJson (kind : String) (message : Option String) (extra : List (String × Json) := []) :
    Json :=
  let own := message.filter fun text => (text.splitOn "could not (de)serialize").length = 1
  obj ([("error", .str kind)] ++ (own.elim [] fun text => [("message", .str text)]) ++ extra)

def repoErrorKind : RepoError → String
  | .notConnected => "NotConnected"
  | .query _ => "Query"
  | .serialization => "Serialization"
  | .conflict _ => "Conflict"
  | .missingHistory _ _ => "MissingHistory"

def repoErrorJson (error : RepoError) : Json := errorJson (repoErrorKind error) error.message?

def handlerErrorKind : HandlerError → String
  | .notLoaded _ => "NotLoaded"
  | .serialization => "Serialization"
  | .missingParam _ _ => "MissingParam"
  | .invalidParam _ _ _ => "InvalidParam"
  | .unknownContract _ => "UnknownContract"
  | .repo _ => "Repo"
  | .custom _ => "Custom"

def handlerErrorJson (error : HandlerError) : Json :=
  errorJson (handlerErrorKind error) error.message?

def sourceErrorJson (error : SourceError) : Json :=
  errorJson (match error with | .transient _ => "Transient" | .malformed _ => "Malformed")
    (some error.message)

def fetchErrorJson (error : FetchError) : Json :=
  errorJson
    (match error with
    | .retriesExhausted _ _ _ => "RetriesExhausted"
    | .malformed _ => "Malformed"
    | .reorgBeyondWindow _ => "ReorgBeyondWindow"
    | .repo _ => "Repo")
    error.message?

def configErrorJson (error : ConfigError) : Json :=
  errorJson
    (match error with
    | .noChains => "NoChains"
    | .duplicateChain _ => "DuplicateChain"
    | .reservedChainId => "ReservedChainId"
    | .startAfterEnd _ => "StartAfterEnd"
    | .zero _ => "Zero"
    | .invalidBatchBounds _ _ => "InvalidBatchBounds"
    | .duplicateContract _ => "DuplicateContract"
    | .unknownChain _ _ => "UnknownChain")
    (some error.message)

def indexingErrorJson (error : IndexingError) : Json :=
  let (kind, source) := match error with
    | .config source => ("Config", configErrorJson source)
    | .repo source => ("Repo", repoErrorJson source)
    | .storage _ source => ("Storage", repoErrorJson source)
    | .chainFailed _ source => ("ChainFailed", fetchErrorJson source)
    | .handler _ _ source => ("Handler", handlerErrorJson source)
    | .rollbackFailed _ source => ("RollbackFailed", repoErrorJson source)
  errorJson kind error.message? [("source", source)]

/-- `{ok}` or an error. -/
def resultJson {ε α : Type} (error : ε → Json) (ok : α → Json) : Except ε α → Json
  | .ok value => obj [("ok", ok value)]
  | .error e => error e

def modeName : Mode → String
  | .ordered => "ordered"
  | .unordered => "unordered"

def contractJson (contract : Contract) : Json :=
  .arr [.str contract.name,
    .arr (contract.addresses.map fun address =>
      .arr [.str address.address, .nat address.chain, .nat address.startBlock,
        .str address.contract]),
    .arr (contract.handlers.map fun handler => .str handler.event)]

def configJson (config : Config) : Json :=
  obj [("chains", .arr (config.chains.map fun chain =>
      .arr [.nat chain.id, .nat chain.startBlock, optNat chain.endBlock])),
    ("contracts", .arr (config.contracts.map contractJson)),
    ("multi_chain_mode", .str (modeName config.mode)),
    ("blocks_per_batch", .nat config.blocksPerBatch),
    ("min_blocks_per_batch", .nat config.minBlocksPerBatch),
    ("max_blocks_per_batch", .nat config.maxBlocksPerBatch),
    ("target_batch_response_ms", .nat config.targetResponseMillis),
    ("max_events_per_response", .nat config.maxEventsPerResponse),
    ("queue_depth", .nat config.queueDepth),
    ("max_events_per_unit", .nat config.maxEventsPerUnit),
    ("loader_concurrency", .nat config.loaderConcurrency),
    ("max_fetch_retries", .nat config.maxFetchRetries),
    ("max_commit_retries", .nat config.maxCommitRetries),
    ("retry_backoff_ms", .nat config.retryBackoffMillis),
    ("head_polling_rate_ms", .nat config.headPollingMillis),
    ("max_recorded_blocks", .nat config.maxRecordedBlocks),
    ("pruning", .ofOption
      (fun (pruning : PruningConfig) => .arr [.nat pruning.keptBlocks, .nat pruning.interval])
      config.pruning),
    ("reset_count", .nat config.resetCount)]

end ChainIndexer.Wire
