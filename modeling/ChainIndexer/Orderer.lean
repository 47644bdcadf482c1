import ChainIndexer.Fetch.Error
import ChainIndexer.Lane
import ChainIndexer.Rollback.Scope

/-!
# Ordering events into units

Merges the lanes of all chains into units of events to commit. Unordered, the chains with pending
events take turns. Ordered, an event is released once no lane can still bring an earlier one.
-/

namespace ChainIndexer

/-- A fetcher's report that it failed. -/
structure ChainFailure where
  chain : ChainId
  /-- Which fetcher of the chain it was, counted from one. -/
  generation : Nat
  error : FetchError
deriving DecidableEq, Inhabited

inductive OrdererStep where
  /-- Events to process; none when only progress is to be reported. -/
  | unit (events : List Event)
  | reorg (reorg : Reorg)
  | failure (failure : ChainFailure)
  | stopped
  /-- All lanes are done. -/
  | finished
  /-- There is nothing to do before one of these lanes gets an item. -/
  | blocked (awaited : List ChainId)
deriving DecidableEq, Inhabited

/-- What ends a wait. -/
inductive Wake where
  /-- One of the awaited lanes took an item, or learned that none will come. -/
  | item
  | failure (failure : ChainFailure)
  | stopped
deriving DecidableEq, Inhabited

structure Orderer where
  mode : Mode
  maxEventsPerUnit : Nat
  lanes : Table ChainId Lane
  /-- The chain of the last unit, for taking turns. -/
  lastServed : Option ChainId
  stopRequested : Bool
  /-- Failures reported but not yet taken. -/
  failures : List ChainFailure
deriving DecidableEq, Inhabited

namespace Orderer

def start (mode : Mode) (maxEventsPerUnit : Nat) : Orderer :=
  ⟨mode, max maxEventsPerUnit 1, .empty, none, false, []⟩

/-- Puts a lane in, in place of an earlier one of its chain and the events pending there. -/
def addLane (orderer : Orderer) (lane : Lane) : Orderer :=
  { orderer with lanes := orderer.lanes.insert lane.chain lane }

def removeLane (orderer : Orderer) (chain : ChainId) : Orderer :=
  { orderer with lanes := orderer.lanes.erase chain }

def hasLane (orderer : Orderer) (chain : ChainId) : Bool := orderer.lanes.contains chain

def changeLane (orderer : Orderer) (chain : ChainId) (f : Lane → Lane) : Orderer :=
  { orderer with lanes := orderer.lanes.modify chain f }

/-- Gives events back to their lanes. -/
def restore (orderer : Orderer) (events : List Event) : Orderer :=
  { orderer with
    lanes := orderer.lanes.map fun chain lane => lane.restore (events.filter (·.chain = chain)) }

/-- The progress of all lanes since the last report, given the events that a unit commits. -/
def progress (orderer : Orderer) (committed : List Event) :
    List Progress × List RecordedBlock × Orderer :=
  let reports := orderer.lanes.entries.filterMap fun entry =>
    (entry.2.progress (committed.filter (·.chain = entry.1))).1
  (reports.map (·.1), reports.flatMap (·.2),
    { orderer with
      lanes := orderer.lanes.map fun chain lane =>
        (lane.progress (committed.filter (·.chain = chain))).2 })

def waitable (orderer : Orderer) : List ChainId :=
  (orderer.lanes.entries.filter (·.2.isWaitable)).map (·.1)

/-- The chain to serve: the next one with pending events after the last served one, in a circle. -/
def nextServed (orderer : Orderer) : Option ChainId :=
  let ready := (orderer.lanes.entries.filter (·.2.hasPending)).map (·.1)
  (ready.find? fun chain => orderer.lastServed.all (· < chain)).or ready.head?

/-- The events of the next chain in turn, or the chains to wait for. -/
def takeUnordered (orderer : Orderer) : List Event × List ChainId × Orderer :=
  match orderer.nextServed with
  | none => ([], orderer.waitable, orderer)
  | some chain =>
    let events := (orderer.lanes.get? chain).elim [] fun lane =>
      (lane.takeFront orderer.maxEventsPerUnit).1
    (events, [],
      { orderer.changeLane chain fun lane => (lane.takeFront orderer.maxEventsPerUnit).2 with
        lastServed := some chain })

/-- The first of pending events, with its chain. -/
def leastFront (lanes : List (ChainId × Lane)) : Option (ChainId × Event) :=
  lanes.foldl
    (fun least entry =>
      match entry.2.pending, least with
      | [], _ => least
      | event :: _, none => some (entry.1, event)
      | event :: _, some (chain, first) =>
        if event.key < first.key then some (entry.1, event) else some (chain, first))
    none

/-- The other lanes that may still bring an event before a key. -/
def blocking (orderer : Orderer) (chain : ChainId) (key : EventKey) : List ChainId :=
  (orderer.lanes.entries.filter fun entry =>
    entry.1 ≠ chain && !entry.2.hasPending && !entry.2.cannotPrecede key).map (·.1)

/-- Takes up to some events in the order over all chains, as far as no lane may bring an earlier
one; with them the chains to wait for. -/
def takeOrdered : (room : Nat) → Orderer → List Event × List ChainId × Orderer
  | 0, orderer => ([], [], orderer)
  | room + 1, orderer =>
    match leastFront orderer.lanes.entries with
    | none => ([], orderer.waitable, orderer)
    | some (chain, event) =>
      match orderer.blocking chain event.key with
      | [] =>
        let (events, awaited, rest) :=
          takeOrdered room (orderer.changeLane chain fun lane => lane.popFront.2)
        (event :: events, awaited, rest)
      | awaited => ([], awaited, orderer)

def drain (orderer : Orderer) : Orderer :=
  { orderer with lanes := orderer.lanes.map fun _ lane => lane.drainReady }

/-- The reorg of the first lane that has one. -/
def takeReorg (orderer : Orderer) : Option (Reorg × Orderer) :=
  (orderer.lanes.entries.findSome? fun entry => entry.2.reorg.map (entry.1, ·)).map
    fun (chain, reorg) => (reorg, orderer.changeLane chain fun lane => lane.takeReorg.2)

def takeEvents (orderer : Orderer) : List Event × List ChainId × Orderer :=
  match orderer.mode with
  | .unordered => orderer.takeUnordered
  | .ordered => takeOrdered orderer.maxEventsPerUnit orderer

/-- What to do next: first reorgs, then failures, then events and progress. -/
def nextStep (orderer : Orderer) : OrdererStep × Orderer :=
  let orderer := orderer.drain
  match orderer.takeReorg, orderer.failures with
  | some (reorg, orderer), _ => (.reorg reorg, orderer)
  | none, failure :: rest => (.failure failure, { orderer with failures := rest })
  | none, [] =>
    let (events, awaited, orderer) := orderer.takeEvents
    if !events.isEmpty || orderer.lanes.values.any (·.hasNewProgress) then (.unit events, orderer)
    else if orderer.lanes.values.all (·.isDone) then (.finished, orderer)
    else if orderer.stopRequested then (.stopped, orderer)
    else (.blocked (awaited.filter (orderer.waitable.contains ·)), orderer)

/-- Whether a wait for the next item of a chain is over. -/
def hasItem (orderer : Orderer) (chain : ChainId) : Bool :=
  (orderer.lanes.get? chain).any fun lane => lane.isWaitable && lane.waitItem.isSome

/-- Waits for an item of one of some chains, a failure or a stop. What the queues of other chains
hold does not count; without any of these it still waits. -/
def wait (orderer : Orderer) (awaited : List ChainId) : Option (Wake × Orderer) :=
  if orderer.stopRequested then some (.stopped, orderer)
  else
    match awaited.find? orderer.hasItem, orderer.failures with
    | some chain, _ =>
      some (.item, orderer.changeLane chain fun lane => lane.waitItem.getD lane)
    | none, failure :: rest => some (.failure failure, { orderer with failures := rest })
    | none, [] => none

end Orderer

end ChainIndexer
