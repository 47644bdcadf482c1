import ChainIndexer.Config
import ChainIndexer.Fetch.Queue
import ChainIndexer.Repo.Basic

/-!
# Reading domain values

The JSON forms in which values are given. A member that is missing or null takes a default.
-/

namespace ChainIndexer.Wire

/-- A member that is there and not null. -/
def field? (value : Json) (name : String) : Option Json :=
  (value.get? name).filter (!·.isNull)

def asNat (value : Json) : Nat := value.asWord?.getD 0

def asStr (value : Json) : String := value.asString?.getD ""

def asList (value : Json) : List Json := value.asArray?.getD []

def natOr (value : Json) (name : String) (default : Nat) : Nat :=
  (field? value name).elim default asNat

def nat? (value : Json) (name : String) : Option Nat := (field? value name).map asNat

def strOr (value : Json) (name : String) (default : String) : String :=
  (field? value name).elim default asStr

def boolOr (value : Json) (name : String) (default : Bool) : Bool :=
  (field? value name).elim default fun b => b.asBool?.getD default

def list (value : Json) (name : String) : List Json := (field? value name).elim [] asList

def object? (value : Json) (name : String) : List (String × Json) :=
  ((field? value name).bind Json.asObject?).getD []

def orNull (value : Option Json) : Json := value.getD .null

def blockHash (chain number fork : Nat) : String :=
  "0x" ++ toString chain ++ "-" ++ toString number ++ "-" ++ toString fork

def event (value : Json) : Event :=
  let chain := natOr value "chain_id" 1
  let block := natOr value "block_number" 0
  let logIndex := natOr value "log_index" 0
  { chain := chain
    address := strOr value "contract_address" "0xtoken"
    contract := strOr value "contract_name" "Token"
    name := strOr value "event_name" "Deposit"
    params := (value.get? "params").getD (.obj [])
    blockHash := strOr value "block_hash" (blockHash chain block 0)
    block := block
    timestamp := natOr value "block_timestamp" (Word.saturatingMul 10 block)
    transactionHash := strOr value "transaction_hash" "0xt"
    transactionIndex := natOr value "transaction_index" logIndex
    logIndex := logIndex }

def block (chain : Nat) (value : Json) : Block :=
  let number := (value.asWord?).getD (natOr value "number" 0)
  { number := number
    hash := strOr value "hash" (blockHash chain number 0)
    parentHash := strOr value "parent_hash"
      (if number = 0 then "0x" ++ toString chain ++ "-genesis" else blockHash chain (number - 1) 0)
    timestamp := natOr value "timestamp" (Word.saturatingMul 10 number) }

def reorg (value : Json) : Reorg :=
  let chain := natOr value "chain_id" 1
  ⟨chain, block chain ((field? value "safe_block").getD .null)⟩

def origin (value : Json) : Origin :=
  match asList value with
  | [chain, block, timestamp, logIndex] =>
    ⟨asNat chain, asNat block, asNat timestamp, asNat logIndex⟩
  | _ => .genesis

def change (value : Json) : EntityChange :=
  match asList value with
  | [.str "set", kind, id, fields] => .set ⟨asStr kind, asStr id⟩ fields
  | _ :: kind :: id :: _ => .delete ⟨asStr kind, asStr id⟩
  | _ => .delete ⟨"", ""⟩

def entityKey (value : Json) : EntityKey :=
  match asList value with
  | kind :: id :: _ => ⟨asStr kind, asStr id⟩
  | _ => ⟨"", ""⟩

def historyEntry (value : Json) : HistoryEntry :=
  .ofChange (change (orNull (field? value "change"))) (origin (orNull (field? value "at")))
    (origin (orNull (field? value "previous")))

def registration (value : Json) : Registration where
  chain := natOr value "chain_id" 1
  address := strOr value "address" "0xnew"
  contract := strOr value "contract_name" "Pool"
  block := natOr value "block_number" 0
  logIndex := natOr value "log_index" 0
  timestamp := natOr value "block_timestamp" 0
  byAddress := strOr value "by_address" "0xfactory"
  byContract := strOr value "by_contract" "Factory"
  byEvent := strOr value "by_event" "PoolCreated"

def position? (value : Json) (name : String) : Option Position :=
  match list value name with
  | [block, logIndex] => some ⟨asNat block, asNat logIndex⟩
  | _ => none

def checkpoint (value : Json) : Checkpoint where
  chain := natOr value "chain_id" 1
  startBlock := natOr value "start" 0
  endBlock := nat? value "end"
  fetched := nat? value "fetched"
  processed := nat? value "processed"
  position := position? value "position"
  events := natOr value "events" 0
  batches := natOr value "batches" 0
  firstEventBlock := nat? value "first_event"
  caughtUpAt := (field? value "caught_up_at").bind Json.asSigned?
  isLive := boolOr value "live" false
  isFinished := boolOr value "finished" false

def progress (value : Json) : Progress where
  chain := natOr value "chain_id" 1
  fetched := nat? value "fetched"
  processed := nat? value "processed"
  position := position? value "position"
  events := natOr value "events" 0
  batches := natOr value "batches" 0
  firstEventBlock := nat? value "first_event"
  isLive := boolOr value "live" false
  isFinished := boolOr value "finished" false

def chainBlock (value : Json) : RecordedBlock :=
  match asList value with
  | [chain, number] => ⟨asNat chain, block (asNat chain) number⟩
  | _ => default

def writeUnit (value : Json) : WriteUnit where
  rawEvents := (list value "raw_events").map event
  changes := (list value "changes").map change
  history := (list value "history").map historyEntry
  registrations := (list value "registrations").map registration
  checkpoints := (list value "checkpoints").map checkpoint
  blocks := (list value "blocks").map chainBlock

def scope (value : Json) : RollbackScope :=
  match asList value with
  | [.str "chain", chain, safeBlock] => .chain (asNat chain) (asNat safeBlock)
  | [_, chain, safeBlock, timestamp] => .global (asNat chain) (asNat safeBlock) (asNat timestamp)
  | _ => .chain 0 0

def rewind (value : Json) : Rewind :=
  match asList value with
  | [chain, block] => ⟨asNat chain, block.asWord?⟩
  | _ => ⟨0, none⟩

def plan (value : Json) : RollbackPlan where
  scope := scope (orNull (field? value "scope"))
  restores := (list value "restores").map change
  rewinds := (list value "rewinds").map rewind
  checkpoints := (list value "checkpoints").map checkpoint

def mode (value : Json) : Mode := if value = .str "ordered" then .ordered else .unordered

def chain (value : Json) : Chain :=
  ⟨natOr value "id" 1, natOr value "start" 0, nat? value "end"⟩

def eventKey (value : Json) : EventKey :=
  match asList value with
  | [timestamp, chain, block, logIndex] =>
    ⟨asNat timestamp, asNat chain, asNat block, asNat logIndex⟩
  | _ => default

def queueItem (chain : Nat) (value : Json) : QueueItem :=
  match field? value "batch", field? value "reorg" with
  | some batch, _ =>
    let last := block chain (orNull (field? batch "to"))
    .batch
      { chain := chain
        fromBlock := natOr batch "from" 0
        lastBlock := last
        head := natOr batch "head" last.number
        events := (list batch "events").map fun value => { event value with chain := chain }
        batches := natOr batch "batches_fetched" 1
        blocks :=
          (field? batch "blocks").elim [last] fun blocks => (asList blocks).map (block chain) }
  | none, some value => .reorg (reorg value)
  | none, none => .finished

def applySetting (config : Config) (setting : Json) : Config :=
  match asList setting with
  | [.str "pruning"] => config.withDefaultPruning
  | [.str "multi_chain_mode", value] => { config with mode := mode value }
  | [.str "blocks_per_batch_bounds", low, high] =>
    { config with minBlocksPerBatch := asNat low, maxBlocksPerBatch := asNat high }
  | [.str name, value] =>
    let n := asNat value
    match name with
    | "reset" => { config with resetCount := n }
    | "blocks_per_batch" => { config with blocksPerBatch := n }
    | "target_batch_response_ms" => { config with targetResponseMillis := n }
    | "max_events_per_response" => { config with maxEventsPerResponse := n }
    | "queue_depth" => { config with queueDepth := n }
    | "max_events_per_unit" => { config with maxEventsPerUnit := n }
    | "loader_concurrency" => { config with loaderConcurrency := n }
    | "max_fetch_retries" => { config with maxFetchRetries := n }
    | "max_commit_retries" => { config with maxCommitRetries := n }
    | "retry_backoff_ms" => { config with retryBackoffMillis := n }
    | "head_polling_rate_ms" => { config with headPollingMillis := n }
    | "max_recorded_blocks" => { config with maxRecordedBlocks := n }
    | "prune_n_blocks_away" => config.withKeptBlocks n
    | "prune_interval" => config.withPruneInterval n
    | _ => config
  | _ => config

def applySettings (config : Config) (input : Json) : Config :=
  (list input "settings").foldl applySetting config

end ChainIndexer.Wire
