import ChainIndexer.Handler.Script
import ChainIndexer.Event.Basic

/-!
# Handlers

A handler turns the events of one name into entity changes. Of several handlers for one event of a
contract the last counts.
-/

namespace ChainIndexer

structure Handler where
  /-- The name of the events it is for. -/
  event : String
  load : Event → Loader Unit
  handle : Event → Script Unit

/-- An address of a contract, in lowercase. -/
structure ContractAddress where
  chain : ChainId
  address : String
  contract : String
  startBlock : Nat
deriving DecidableEq, Repr, Inhabited

/-- A contract with its known addresses and its handlers. One without addresses gets them from
handlers that register some. -/
structure Contract where
  name : String
  addresses : List ContractAddress
  handlers : List Handler

namespace Contract

def named (name : String) : Contract := ⟨name, [], []⟩

def addAddress (contract : Contract) (address : String) (chain : ChainId) (startBlock : Nat) :
    Contract :=
  { contract with
    addresses :=
      contract.addresses ++ [⟨chain, Text.lowercase address, contract.name, startBlock⟩] }

def addHandler (contract : Contract) (handler : Handler) : Contract :=
  { contract with handlers := contract.handlers ++ [handler] }

end Contract

/-- A handler under the name of its contract. -/
structure HandlerTable where
  entries : List (String × Handler)

namespace HandlerTable

def ofContracts (contracts : List Contract) : HandlerTable :=
  ⟨contracts.flatMap fun contract => contract.handlers.map fun handler => (contract.name, handler)⟩

def matchesNames (contract event : String) (entry : String × Handler) : Bool :=
  entry.1 = contract ∧ entry.2.event = event

/-- The place of the handler for an event of a contract among all handlers. -/
def index? (table : HandlerTable) (contract event : String) : Option Nat :=
  (table.entries.reverse.findIdx? (matchesNames contract event)).map
    (table.entries.length - 1 - ·)

def find? (table : HandlerTable) (contract event : String) : Option Handler :=
  (table.entries.reverse.find? (matchesNames contract event)).map (·.2)

def hasHandler (table : HandlerTable) (contract event : String) : Bool :=
  (table.find? contract event).isSome

def forEvent? (table : HandlerTable) (event : Event) : Option Handler :=
  table.find? event.contract event.name

end HandlerTable

end ChainIndexer
