import ChainIndexer.Evm.Abi.Decoding
import ChainIndexer.Evm.Node
import ChainIndexer.Table

/-!
# Nodes as sources

Reads blocks and events from a node. The page for a range holds the ends of the range, the block of
every event and the block before it.
-/

namespace ChainIndexer.Evm

/-- The events that are known, each with the contract it belongs to. -/
abbrev EventAbis := List (String × EventAbi)

namespace EventAbis

/-- The first topics of a contract's events. -/
def topicsOf (abis : EventAbis) (contract : String) : List Hash :=
  ((abis.filter (·.1 = contract)).map (·.2.topic)).eraseDups

/-- The event of a contract with a topic; the one that was added last counts. -/
def find? (abis : EventAbis) (contract : String) (topic : Hash) : Option EventAbi :=
  (abis.reverse.find? fun entry => entry.1 = contract ∧ entry.2.topic = topic).map (·.2)

end EventAbis

variable {σ α : Type}

/-- A value that has to be there. -/
def required (field : String) : Option α → Except SourceError α
  | some value => .ok value
  | none => .error (.malformed ("missing " ++ field))

/-- A call on a node; one that fails may be tried again. -/
def onNode (call : Call σ String α) : Call σ SourceError α := fun state =>
  match call state with
  | (.ok value, state) => (.ok value, state)
  | (.error reason, state) => (.error (.transient reason), state)

/-- The lowest 64 bits of a number. -/
def lowWord (n : Nat) : Nat := n % ChainIndexer.Word.count

def NodeBlock.toBlock (block : NodeBlock) : Except SourceError Block := do
  let number ← required "number" block.number
  let hash ← required "hash" block.hash
  return ⟨number, Hash.text hash, Hash.text block.parentHash, lowWord block.timestamp⟩

def fetchBlock (node : Node σ) (number : Nat) : Call σ SourceError Block := do
  match ← onNode (node.block number) with
  | some block => ExceptT.mk (return block.toBlock)
  | none => throw (.transient ("block " ++ toString number ++ " is not available yet"))

/-- Fetches blocks in turn, by the numbers that the node gives them. -/
def fetchBlocks (node : Node σ) : List Nat → Call σ SourceError (Table Nat Block)
  | [] => return .empty
  | number :: rest => do
    let block ← fetchBlock node number
    let others ← fetchBlocks node rest
    return if others.contains block.number then others else others.insert block.number block

/-- The filters for watched addresses; those of contracts without known events are left out. -/
def filtersFor (abis : EventAbis) (first last : Nat) :
    List WatchedAddress → Except SourceError (List (WatchedAddress × LogFilter))
  | [] => .ok []
  | watched :: rest =>
    let topics := abis.topicsOf watched.contract
    if topics.isEmpty then filtersFor abis first last rest
    else
      match Address.ofText? watched.address with
      | none => .error (.malformed ("invalid address " ++ watched.address))
      | some address => do
        let others ← filtersFor abis first last rest
        return (watched, ⟨address, topics, first, last⟩) :: others

/-- The logs for all filters, each with the address it was asked for. All requests are made; of
those that fail the first counts. -/
def fetchLogs (node : Node σ) :
    List (WatchedAddress × LogFilter) → Call σ SourceError (List (WatchedAddress × Log))
  | [] => return []
  | (watched, filter) :: rest => fun state =>
    let (logs, state) := onNode (node.logs filter) state
    let (others, state) := fetchLogs node rest state
    let joined := do
      let logs ← logs
      return logs.map (fun log => (watched, log)) ++ (← others)
    (joined, state)

/-- The blocks of logs and those before them, as far as they lie between two others. -/
def blocksBetween (first last : Nat) (logs : List Log) : List Nat :=
  let near := logs.flatMap fun log =>
    log.blockNumber.elim [] fun number => if number = 0 then [0] else [number - 1, number]
  (near.filter fun number => first < number ∧ number < last).mergeSort.eraseDups

/-- The event that a log stands for, if it is one that is known. -/
def decodeLog (abis : EventAbis) (chain : ChainId) (watched : WatchedAddress) (timestamp : Nat)
    (log : Log) : Except SourceError (Option Event) :=
  match log.isRemoved, log.topics with
  | false, topic :: _ =>
    match abis.find? watched.contract topic with
    | none => .ok none
    | some abi =>
      match abi.readLog log.topics log.data with
      | none => .error (.malformed (abi.name ++ ": Invalid data"))
      | some params => do
        let blockHash ← required "block_hash" log.blockHash
        let block ← required "block_number" log.blockNumber
        let transactionHash ← required "transaction_hash" log.transactionHash
        let transactionIndex ← required "transaction_index" log.transactionIndex
        let logIndex ← required "log_index" log.logIndex
        return some
          { chain := chain
            address := watched.address
            contract := watched.contract
            name := abi.name
            params := params
            blockHash := Hash.text blockHash
            block := block
            timestamp := timestamp
            transactionHash := Hash.text transactionHash
            transactionIndex := transactionIndex
            logIndex := lowWord logIndex }
  | _, _ => .ok none

/-- The events of logs, each with the time of its block. A log outside the blocks makes the call
fail. -/
def decodeLogs (abis : EventAbis) (chain : ChainId) (blocks : Table Nat Block) :
    List (WatchedAddress × Log) → Except SourceError (List Event)
  | [] => .ok []
  | (watched, log) :: rest => do
    let number ← required "block_number" log.blockNumber
    match blocks.get? number with
    | none => .error (.transient ("missing block " ++ toString number))
    | some block =>
      let event ← decodeLog abis chain watched block.timestamp log
      let others ← decodeLogs abis chain blocks rest
      return event.toList ++ others

/-- The page of events from one block through another. -/
def fetchPage (abis : EventAbis) (node : Node σ) (chain : ChainId) (first last : Nat)
    (watched : List WatchedAddress) : Call σ SourceError EventPage := do
  let firstBlock ← fetchBlock node first
  let lastBlock ← fetchBlock node last
  let filters ← ExceptT.mk (return filtersFor abis first lastBlock.number watched)
  let logs ← fetchLogs node filters
  let between ← fetchBlocks node (blocksBetween first lastBlock.number (logs.map (·.2)))
  let blocks := (between.insert firstBlock.number firstBlock).insert lastBlock.number lastBlock
  let events ← ExceptT.mk (return decodeLogs abis chain blocks logs)
  return ⟨Event.sortByPosition events, firstBlock, lastBlock, blocks.values⟩

/-- The calls on a chain that a node knows. -/
def source (abis : EventAbis) (node : Node σ) : ChainSource σ where
  head _ := do fetchBlock node (← onNode node.head)
  block _ number := fetchBlock node number
  events chain first last watched := fetchPage abis node chain first last watched

end ChainIndexer.Evm
