import ChainIndexer.Config
import ChainIndexer.Number.Hex
import ChainIndexer.Repo.Basic
import ChainIndexer.Testing.Handlers

/-!
# Sample contracts and events

A token, a factory of pools, the pools, and a journal: their addresses, contracts and events, and
what committing a transfer of the token writes.
-/

namespace ChainIndexer.Testing

def tokenAddress : String := "0x00000000000000000000000000000000000000aa"

def factoryAddress : String := "0x00000000000000000000000000000000000000fa"

def journalAddress : String := "0x00000000000000000000000000000000000000bb"

/-- A contract that has one address on each of some chains. -/
def contractOn (name address : String) (chains : List ChainId) : Contract :=
  chains.foldl (fun contract chain => contract.addAddress address chain 0) (.named name)

def tokenContract (chains : List ChainId) : Contract :=
  (contractOn "Token" tokenAddress chains).addHandler transfer

def factoryContract (chain : ChainId) : Contract :=
  (contractOn "Factory" factoryAddress [chain]).addHandler poolCreated

/-- The contract of pools, whose addresses the factory brings. -/
def poolContract : Contract := (Contract.named "Pool").addHandler (swap (· + ·))

def journalContract (chains : List ChainId) : Contract :=
  (contractOn "Journal" journalAddress chains).addHandler ping

/-- An event that is not in a block yet. -/
def looseEvent (chain : ChainId) (address contract name : String) (params : Json)
    (block logIndex : Nat) : Event where
  chain := chain
  address := address
  contract := contract
  name := name
  params := params
  blockHash := ""
  block := block
  timestamp := 0
  transactionHash := "0x" ++ Hex.ofNat chain ++ Hex.padded 6 block ++ Hex.padded 4 logIndex
  transactionIndex := logIndex
  logIndex := logIndex

def transferEvent (chain : ChainId) (block logIndex : Nat) (receiver : String) (amount : Nat) :
    Event :=
  looseEvent chain tokenAddress "Token" "Transfer"
    (.object [("to", .str receiver), ("amount", .nat amount)]) block logIndex

/-- A transfer in the first version of its block. -/
def fetchedTransfer (chain : ChainId) (block logIndex : Nat) (receiver : String) (amount : Nat) :
    Event :=
  { transferEvent chain block logIndex receiver amount with
    blockHash := "0x" ++ toString chain ++ "-" ++ toString block ++ "-0"
    timestamp := 10 * block }

def poolCreatedEvent (chain : ChainId) (block logIndex : Nat) (pool : String) : Event :=
  looseEvent chain factoryAddress "Factory" "PoolCreated" (.object [("pool", .str pool)]) block
    logIndex

def swapEvent (chain : ChainId) (pool : String) (block logIndex amount : Nat) : Event :=
  looseEvent chain pool "Pool" "Swap" (.object [("amount", .nat amount)]) block logIndex

def pingEvent (chain : ChainId) (block logIndex : Nat) : Event :=
  looseEvent chain journalAddress "Journal" "Ping" (.obj []) block logIndex

/-- What committing a transfer writes, given the transfer to the same receiver before it and the
balance that one left. -/
def transferUnit (event : Event) (previous : Option (Event × Nat)) : WriteUnit :=
  let receiver := (event.textParam "to").toOption.getD ""
  let amount := (event.wordParam "amount").toOption.getD 0
  let change := balance.set ⟨receiver, previous.elim 0 (·.2) + amount⟩
  let checkpoint : Checkpoint :=
    { Checkpoint.fresh ⟨event.chain, 0, none⟩ with
      fetched := some event.block
      processed := some event.block
      position := some event.position
      events := 1
      firstEventBlock := some event.block }
  { rawEvents := [event]
    changes := [change]
    history := [.ofChange change event.origin (previous.elim .genesis (·.1.origin))]
    registrations := []
    checkpoints := [checkpoint]
    blocks := [] }

/-- A configuration that retries and polls at short intervals. -/
def quickConfig : Config :=
  { Config.base with
    blocksPerBatch := 10
    retryBackoffMillis := 1
    headPollingMillis := 5
    maxFetchRetries := 3
    maxCommitRetries := 3 }

end ChainIndexer.Testing
