import ChainIndexer.Contract.Registry
import ChainIndexer.Handler.Context
import ChainIndexer.Repo.Basic

/-!
# Processing a unit of events

The loaders of all events run first, then the handlers in order of the events. Nothing is stored
here: the result says what to store, and an error gives up the whole unit. A unit ends early at an
event that registers an address, since its chain has to be fetched again from there.
-/

namespace ChainIndexer

inductive ProcessingError where
  | handler (event : Event) (error : HandlerError)
  | repo (error : RepoError)
deriving DecidableEq, Inhabited

/-- What there is to store for a unit. -/
structure ProcessedUnit where
  /-- How many events were handled, from the first one on. -/
  applied : Nat
  /-- The last change of each entity, by key. -/
  changes : List EntityChange
  history : List HistoryEntry
  registrations : List Registration
deriving DecidableEq, Inhabited

variable {σ α : Type}

/-- Runs a loader; what was loaded before is not read again. -/
def Loader.run (repo : Repo σ) :
    Loader α → LoadedEntities → σ → Except HandlerError α × LoadedEntities × σ
  | .done value, loaded, state => (.ok value, loaded, state)
  | .fail error, loaded, state => (.error error, loaded, state)
  | .load key next, loaded, state =>
    match loaded.get? key with
    | some fields => (next (.ok fields)).run repo loaded state
    | none =>
      match repo.entity key state with
      | (.ok fields, state) => (next (.ok fields)).run repo (loaded.insert key fields) state
      | (.error error, state) => (next (.error (.repo error))).run repo loaded state

/-- Runs the loaders of events in turn, up to the first that fails. -/
def runLoaders (repo : Repo σ) (handlers : HandlerTable) :
    List Event → LoadedEntities → σ → Except ProcessingError LoadedEntities × σ
  | [], loaded, state => (.ok loaded, state)
  | event :: rest, loaded, state =>
    match handlers.forEvent? event with
    | none => runLoaders repo handlers rest loaded state
    | some handler =>
      match (handler.load event).run repo loaded state with
      | (.ok (), loaded, state) => runLoaders repo handlers rest loaded state
      | (.error error, _, state) => (.error (.handler event error), state)

/-- What the handlers did so far. -/
structure HandledEvents where
  applied : Nat
  /-- Every change, with the event it came from. -/
  writes : List (EntityChange × Origin)
  overlay : Overlay
  registry : Registry
  registrations : List Registration
  notes : List Json
deriving Inhabited

namespace HandledEvents

def start (registry : Registry) : HandledEvents := ⟨0, [], .empty, registry, [], []⟩

/-- Takes over the changes of one event. -/
def absorb (handled : HandledEvents) (event : Event) (changes : List EntityChange) :
    HandledEvents :=
  { handled with
    writes := handled.writes ++ changes.map fun change => (change, event.origin)
    overlay := handled.overlay.insertAll (changes.map fun change => (change.key, change)) }

/-- Registers addresses for an event, given those registered so far. -/
def registerAll (event : Event) :
    List RegistrationRequest → Registry → List Registration →
      Except HandlerError (List Registration × Registry)
  | [], registry, registered => .ok (registered, registry)
  | request :: rest, registry, registered =>
    match registry.register event.chain request.address request.contract event with
    | .ok (some registration, registry) =>
      registerAll event rest registry (registered ++ [registration])
    | .ok (none, registry) => registerAll event rest registry registered
    | .error error => .error error

/-- Registers all addresses that an event asked for, or none if a contract is unknown. -/
def registerFor (registry : Registry) (event : Event) (requests : List RegistrationRequest) :
    Except HandlerError (List Registration × Registry) :=
  match requests.find? fun request => !registry.hasContract request.contract with
  | some request => .error (.unknownContract request.contract)
  | none => registerAll event requests registry []

end HandledEvents

/-- Runs the handlers of events in turn, up to a failure or a registration. -/
def runHandlers (handlers : HandlerTable) (loaded : LoadedEntities) :
    List Event → HandledEvents → HandledEvents × Option ProcessingError
  | [], handled => (handled, none)
  | event :: rest, handled =>
    let handled := { handled with applied := handled.applied + 1 }
    match handlers.forEvent? event with
    | none => runHandlers handlers loaded rest handled
    | some handler =>
      let (result, context) := (handler.handle event).run (.start event loaded handled.overlay)
      let handled := { handled with notes := handled.notes ++ context.notes }
      match result with
      | .error error => (handled, some (.handler event error))
      | .ok () =>
        let handled := handled.absorb event context.changes
        match HandledEvents.registerFor handled.registry event context.requests with
        | .error error => (handled, some (.handler event error))
        | .ok ([], registry) =>
          runHandlers handlers loaded rest { handled with registry := registry }
        | .ok (registrations, registry) =>
          ({ handled with registry := registry, registrations := registrations }, none)

/-- Links changes into the history of their entities, given where the last records came from. -/
def linkHistory : Table EntityKey Origin → List (EntityChange × Origin) → List HistoryEntry
  | _, [] => []
  | latest, (change, origin) :: rest =>
    .ofChange change origin ((latest.get? change.key).getD .genesis)
      :: linkHistory (latest.insert change.key origin) rest

/-- What processing a unit leaves behind, whether it succeeds or not. -/
structure Processing (σ : Type) where
  result : Except ProcessingError ProcessedUnit
  registry : Registry
  notes : List Json
  repo : σ

def processEvents (repo : Repo σ) (handlers : HandlerTable) (registry : Registry)
    (events : List Event) (state : σ) : Processing σ :=
  match runLoaders repo handlers events .empty state with
  | (.error error, state) => ⟨.error error, registry, [], state⟩
  | (.ok loaded, state) =>
    let (handled, failure) := runHandlers handlers loaded events (.start registry)
    match failure with
    | some error => ⟨.error error, handled.registry, handled.notes, state⟩
    | none =>
      let (latest, state) :=
        if handled.writes.isEmpty then (.ok .empty, state)
        else repo.latestOrigins (handled.writes.map (·.1.key)).eraseDups state
      match latest with
      | .error error => ⟨.error (.repo error), handled.registry, handled.notes, state⟩
      | .ok latest =>
        ⟨.ok
          { applied := handled.applied
            changes := handled.overlay.values
            history := linkHistory latest handled.writes
            registrations := handled.registrations },
          handled.registry, handled.notes, state⟩

end ChainIndexer
