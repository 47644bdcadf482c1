import ChainIndexer.Testing.Samples
import ChainIndexer.Testing.SimulatedChain
import ChainIndexer.Wire.Decode
import ChainIndexer.Wire.Encode

/-!
# Reading samples

The JSON forms of sample events, units and contracts, and of simulated chains.
-/

namespace ChainIndexer.Wire

open Testing

def madeEvent (value : Json) : Event :=
  match asList value with
  | [.str "transfer", chain, block, logIndex, receiver, amount] =>
    transferEvent (asNat chain) (asNat block) (asNat logIndex) (asStr receiver) (asNat amount)
  | [.str "fetched", chain, block, logIndex, receiver, amount] =>
    fetchedTransfer (asNat chain) (asNat block) (asNat logIndex) (asStr receiver) (asNat amount)
  | [.str "pool_created", chain, block, logIndex, pool] =>
    poolCreatedEvent (asNat chain) (asNat block) (asNat logIndex) (asStr pool)
  | [.str "swap", chain, pool, block, logIndex, amount] =>
    swapEvent (asNat chain) (asStr pool) (asNat block) (asNat logIndex) (asNat amount)
  | [.str "ping", chain, block, logIndex] =>
    pingEvent (asNat chain) (asNat block) (asNat logIndex)
  | [.str "event", chain, address, contract, name, params, block, logIndex] =>
    looseEvent (asNat chain) (asStr address) (asStr contract) (asStr name) params (asNat block)
      (asNat logIndex)
  | _ => default

def madeEvents (value : Json) : List Event := (asList value).map madeEvent

def madeUnit (value : Json) : WriteUnit :=
  match asList value with
  | [event, previous] =>
    transferUnit (madeEvent event) <|
      match asList previous with
      | [event, amount] => some (madeEvent event, asNat amount)
      | _ => none
  | _ => default

def madeContract (value : Json) : Contract :=
  match asList value with
  | [.str "token", chains] => tokenContract ((asList chains).map asNat)
  | [.str "factory", chain] => factoryContract (asNat chain)
  | [.str "journal", chains] => journalContract ((asList chains).map asNat)
  | _ => poolContract

def madeContracts (value : Json) : List Contract := (list value "contracts").map madeContract

def simulatedChain (chain : ChainId) (value : Json) : SimulatedChain :=
  { SimulatedChain.start chain (natOr value "head" 0) with
    genesisTimestamp := natOr value "genesis_timestamp" 0
    latency := natOr value "latency_ms" 0
    events := madeEvents (orNull (field? value "events")) }

/-- A change of a simulated chain, if this is one. -/
def simulatedChange? (step : List Json) : Option (SimulatedChain → SimulatedChain) :=
  match step with
  | [.str "add_events", events] => some (.addEvents (madeEvents events))
  | [.str "set_head", number] =>
    some fun simulated => { simulated with headNumber := asNat number }
  | [.str "set_latency", millis] =>
    some fun simulated => { simulated with latency := asNat millis }
  | [.str "reorg_from", first, replacements] =>
    some (.reorgFrom (asNat first) (madeEvents replacements))
  | [.str "fail_next", count] =>
    some fun simulated => { simulated with failuresLeft := asNat count }
  | [.str "break"] => some fun simulated => { simulated with isBroken := true }
  | _ => none

def watched (value : Json) : WatchedAddress :=
  match asList value with
  | [address, contract, startBlock] => ⟨asStr address, asStr contract, asNat startBlock⟩
  | _ => default

def pageJson (page : EventPage) : Json :=
  obj [("events", .arr (page.events.map eventJson)), ("first", blockJson page.firstBlock),
    ("last", blockJson page.lastBlock), ("blocks", .arr (page.blocks.map blockJson))]

/-- A read of a chain, if this is one. -/
def sourceRead? {τ : Type} (source : ChainSource τ) (chain : ChainId) (step : List Json) :
    Option (Call τ SourceError Json) :=
  match step with
  | [.str "head"] => some (return blockJson (← source.head chain))
  | [.str "get_block", number] =>
    some (return blockJson (← source.block chain (asNat number)))
  | [.str "events", first, last, addresses] =>
    some (return pageJson (← source.events chain (asNat first) (asNat last)
      ((asList addresses).map watched)))
  | _ => none

end ChainIndexer.Wire
