import ChainIndexer.Handler.Table
import ChainIndexer.Pruning
import ChainIndexer.Rollback.Scope

/-!
# Configuration

What to index and how. A configuration is checked before anything starts.
-/

namespace ChainIndexer

structure Config where
  chains : List Chain
  contracts : List Contract
  mode : Mode
  /-- How many blocks to ask for at first. -/
  blocksPerBatch : Nat
  minBlocksPerBatch : Nat
  maxBlocksPerBatch : Nat
  targetResponseMillis : Nat
  maxEventsPerResponse : Nat
  /-- How many fetched batches of a chain may wait. -/
  queueDepth : Nat
  maxEventsPerUnit : Nat
  loaderConcurrency : Nat
  maxFetchRetries : Nat
  maxCommitRetries : Nat
  retryBackoffMillis : Nat
  headPollingMillis : Nat
  /-- How many blocks of a chain are kept to notice a fork. -/
  maxRecordedBlocks : Nat
  pruning : Option PruningConfig
  /-- How often all data was to be dropped so far. -/
  resetCount : Nat

inductive ConfigError where
  | noChains
  | duplicateChain (chain : ChainId)
  | reservedChainId
  | startAfterEnd (chain : ChainId)
  | zero (setting : String)
  | invalidBatchBounds (min max : Nat)
  | duplicateContract (contract : String)
  | unknownChain (contract : String) (chain : ChainId)
deriving DecidableEq, Repr, Inhabited

def ConfigError.message : ConfigError → String
  | .noChains => "at least one chain is required"
  | .duplicateChain chain => "chain " ++ toString chain ++ " is configured more than once"
  | .reservedChainId => "chain id 0 is reserved"
  | .startAfterEnd chain => "chain " ++ toString chain ++ " starts after its end block"
  | .zero setting => setting ++ " must be greater than zero"
  | .invalidBatchBounds min max =>
    "min_blocks_per_batch (" ++ toString min ++ ") exceeds max_blocks_per_batch ("
      ++ toString max ++ ")"
  | .duplicateContract contract => "contract " ++ contract ++ " is configured more than once"
  | .unknownChain contract chain =>
    "contract " ++ contract ++ " has an address on unknown chain " ++ toString chain

namespace Config

/-- A configuration without chains and contracts, all settings at their defaults. -/
def base : Config where
  chains := []
  contracts := []
  mode := .unordered
  blocksPerBatch := 500
  minBlocksPerBatch := 1
  maxBlocksPerBatch := 10000
  targetResponseMillis := 1000
  maxEventsPerResponse := 5000
  queueDepth := 8
  maxEventsPerUnit := 1000
  loaderConcurrency := 16
  maxFetchRetries := 8
  maxCommitRetries := 5
  retryBackoffMillis := 250
  headPollingMillis := 1000
  maxRecordedBlocks := 200
  pruning := none
  resetCount := 0

def withDefaultPruning (config : Config) : Config := { config with pruning := some default }

def withKeptBlocks (config : Config) (keptBlocks : Nat) : Config :=
  { config with pruning := some { config.pruning.getD default with keptBlocks := keptBlocks } }

def withPruneInterval (config : Config) (interval : Nat) : Config :=
  { config with pruning := some { config.pruning.getD default with interval := interval } }

/-- Checks chains in turn, given the ids of those before. -/
def checkChains (seen : List ChainId) : List Chain → Except ConfigError Unit
  | [] => .ok ()
  | chain :: rest =>
    if chain.id = 0 then .error .reservedChainId
    else if chain.id ∈ seen then .error (.duplicateChain chain.id)
    else if chain.endBlock.any (· < chain.startBlock) then .error (.startAfterEnd chain.id)
    else checkChains (chain.id :: seen) rest

/-- Checks contracts in turn, given the names of those before. -/
def checkContracts (chains : List ChainId) (seen : List String) :
    List Contract → Except ConfigError Unit
  | [] => .ok ()
  | contract :: rest =>
    if contract.name ∈ seen then .error (.duplicateContract contract.name)
    else
      match contract.addresses.find? (·.chain ∉ chains) with
      | some address => .error (.unknownChain contract.name address.chain)
      | none => checkContracts chains (contract.name :: seen) rest

/-- The settings that must not be zero, in the order they are checked. -/
def positiveSettings (config : Config) : List (String × Nat) :=
  [("queue_depth", config.queueDepth),
    ("max_events_per_unit", config.maxEventsPerUnit),
    ("loader_concurrency", config.loaderConcurrency),
    ("max_recorded_blocks", config.maxRecordedBlocks),
    ("min_blocks_per_batch", config.minBlocksPerBatch)]

def validate (config : Config) : Except ConfigError Unit :=
  if config.chains.isEmpty then .error .noChains
  else do
    checkChains [] config.chains
    match config.positiveSettings.find? (·.2 = 0) with
    | some setting => .error (.zero setting.1)
    | none =>
      if config.maxBlocksPerBatch < config.minBlocksPerBatch then
        .error (.invalidBatchBounds config.minBlocksPerBatch config.maxBlocksPerBatch)
      else
        checkContracts (config.chains.map (·.id)) [] config.contracts

end Config

end ChainIndexer
