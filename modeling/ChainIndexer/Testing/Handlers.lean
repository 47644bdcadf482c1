import ChainIndexer.Event.Params
import ChainIndexer.Handler.Table
import ChainIndexer.Number.Word
import ChainIndexer.Testing.Records

/-!
# Sample handlers

Handlers for transfers and deposits, for pools that a factory creates, and for a journal that many
chains write to. Sums are made by a given addition, which may stop at the largest word.
-/

namespace ChainIndexer.Testing

/-- What names an event in a journal: its chain, block and log. -/
def eventId (event : Event) : String :=
  toString event.chain ++ ":" ++ toString event.block ++ ":" ++ toString event.logIndex

/-- Adds the amount of an event to the balance of an account. -/
def deposit : Handler where
  event := "Deposit"
  load event := do
    let id ← Loader.ofExcept (event.textParam "account")
    let _ ← Loader.read account id
    return ()
  handle event := do
    let id ← Script.ofExcept (event.textParam "account")
    let amount ← Script.ofExcept (event.wordParam "amount")
    let previous ← Script.read account id
    Script.set account ⟨id, Word.saturatingAdd (previous.elim 0 (·.balance)) amount⟩

/-- Adds the amount of an event to the balance of its receiver. -/
def transfer : Handler where
  event := "Transfer"
  load event := do
    let id ← Loader.ofExcept (event.textParam "to")
    let _ ← Loader.read balance id
    return ()
  handle event := do
    let id ← Script.ofExcept (event.textParam "to")
    let amount ← Script.ofExcept (event.wordParam "amount")
    let previous ← Script.read balance id
    Script.set balance ⟨id, previous.elim 0 (·.amount) + amount⟩

/-- Registers a new pool and stores it empty. -/
def poolCreated : Handler where
  event := "PoolCreated"
  load _ := return ()
  handle event := do
    let address ← Script.ofExcept (event.addressParam "pool")
    Script.registerContract "Pool" address
    Script.set pool ⟨address, 0, 0⟩

/-- Counts a swap on the pool that the event comes from. -/
def swap (add : Nat → Nat → Nat) : Handler where
  event := "Swap"
  load event := do
    let _ ← Loader.read pool (Text.lowercase event.address)
    return ()
  handle event := do
    let address := Text.lowercase event.address
    let amount ← Script.ofExcept (event.wordParam "amount")
    match ← Script.read pool address with
    | none => Script.fail (.custom ("swap on unknown pool " ++ address))
    | some found =>
      Script.set pool { found with swaps := add found.swaps 1, volume := add found.volume amount }

def journalId : String := "journal"

/-- Appends the event to the journal. -/
def ping : Handler where
  event := "Ping"
  load _ := do
    let _ ← Loader.read journal journalId
    return ()
  handle event := do
    let found := (← Script.read journal journalId).getD ⟨journalId, []⟩
    Script.set journal { found with entries := found.entries ++ [eventId event] }

end ChainIndexer.Testing
