import ChainIndexer.Contract.Registration
import ChainIndexer.Handler.Table
import ChainIndexer.Source.Basic
import ChainIndexer.Table

/-!
# Contract registry

All addresses that are indexed: those known from the start, and those that handlers registered.
-/

namespace ChainIndexer

structure Registry where
  contracts : List String
  /-- The addresses known from the start. -/
  fixed : Table ChainAddress WatchedAddress
  watched : Table ChainAddress WatchedAddress
deriving DecidableEq, Inhabited

def Registration.watchedAddress (registration : Registration) : WatchedAddress :=
  ⟨registration.address, registration.contract, registration.block⟩

namespace Registry

/-- Adds an address: the first contract that has it keeps it, from the lowest start block on. -/
def addFixed (fixed : Table ChainAddress WatchedAddress) (address : ContractAddress) :
    Table ChainAddress WatchedAddress :=
  let key : ChainAddress := ⟨address.chain, address.address⟩
  match fixed.get? key with
  | some watched =>
    fixed.insert key { watched with startBlock := min watched.startBlock address.startBlock }
  | none => fixed.insert key ⟨address.address, address.contract, address.startBlock⟩

def ofContracts (contracts : List Contract) : Registry :=
  let fixed := (contracts.flatMap (·.addresses)).foldl addFixed .empty
  ⟨contracts.map (·.name), fixed, fixed⟩

def hasContract (registry : Registry) (contract : String) : Bool := contract ∈ registry.contracts

/-- Forgets the registered addresses and takes the given ones instead. -/
def reload (registry : Registry) (registrations : List Registration) : Registry :=
  { registry with
    watched := registrations.foldl
      (fun watched registration => watched.insertNew registration.key registration.watchedAddress)
      registry.fixed }

/-- Registers an address for an event; without a registration the address is known already. -/
def register (registry : Registry) (chain : ChainId) (address contract : String) (event : Event) :
    Except HandlerError (Option Registration × Registry) :=
  if registry.hasContract contract then
    let registration : Registration :=
      { chain := chain
        address := Text.lowercase address
        contract := contract
        block := event.block
        logIndex := event.logIndex
        timestamp := event.timestamp
        byAddress := event.address
        byContract := event.contract
        byEvent := event.name }
    if registry.watched.contains registration.key then
      .ok (none, registry)
    else
      .ok (some registration,
        { registry with
          watched := registry.watched.insert registration.key registration.watchedAddress })
  else
    .error (.unknownContract contract)

/-- The addresses of one chain, in order. -/
def watchedOn (registry : Registry) (chain : ChainId) : List WatchedAddress :=
  (registry.watched.entries.filter (·.1.chain = chain)).map (·.2)

end Registry

end ChainIndexer
