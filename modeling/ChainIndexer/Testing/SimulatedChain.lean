import ChainIndexer.Testing.ScriptedChain

/-!
# Simulated chains

A chain held in memory whose parts can be replaced while it is read: its head, its events, how long
it takes to answer, and whether it answers at all.
-/

namespace ChainIndexer.Testing

structure SimulatedChain where
  chain : ChainId
  headNumber : Nat
  genesisTimestamp : Nat
  events : List Event
  /-- The first block of every fork so far. -/
  forks : List Nat
  /-- How long it takes to answer, in milliseconds. -/
  latency : Nat
  /-- How many requests for events are still to fail. -/
  failuresLeft : Nat
  /-- Whether events can never be read again. -/
  isBroken : Bool
  /-- How often events were asked for. -/
  eventRequests : Nat
  /-- How long readers waited for answers, in milliseconds. -/
  waited : Nat
deriving DecidableEq, Inhabited

namespace SimulatedChain

/-- The seconds between two blocks. -/
def blockTime : Nat := 10

def start (chain : ChainId) (headNumber : Nat) : SimulatedChain where
  chain := chain
  headNumber := headNumber
  genesisTimestamp := 0
  events := []
  forks := []
  latency := 0
  failuresLeft := 0
  isBroken := false
  eventRequests := 0
  waited := 0

def addEvents (events : List Event) (simulated : SimulatedChain) : SimulatedChain :=
  { simulated with events := simulated.events ++ events }

/-- Replaces the blocks from a number on, and their events. -/
def reorgFrom (first : Nat) (replacements : List Event) (simulated : SimulatedChain) :
    SimulatedChain :=
  { simulated with
    forks := simulated.forks ++ [first]
    events := simulated.events.filter (·.block < first) ++ replacements }

def block (simulated : SimulatedChain) (number : Nat) : Block :=
  forkedBlock simulated.chain simulated.forks
    (fun number => simulated.genesisTimestamp + number * blockTime) number

def page (simulated : SimulatedChain) (first last : Nat) (watched : List WatchedAddress) :
    EventPage :=
  let last := min last simulated.headNumber
  let listed := simulated.events.filter fun event =>
    decide (first ≤ event.block ∧ event.block ≤ last)
      && watched.any fun watched => event.isFrom watched.address
  { events := Event.sortByPosition (listed.map fun event =>
      placedIn simulated.chain (simulated.block event.block) event)
    firstBlock := simulated.block first
    lastBlock := simulated.block last
    blocks := (numbersThrough first last).map simulated.block }

/-- Lets a reader wait for an answer. -/
def wait (simulated : SimulatedChain) : SimulatedChain :=
  { simulated with waited := simulated.waited + simulated.latency }

/-- A read that always answers. -/
def read {α : Type} (f : SimulatedChain → α) : Call SimulatedChain SourceError α := fun simulated =>
  (.ok (f simulated), simulated.wait)

def readEvents (first last : Nat) (watched : List WatchedAddress) :
    Call SimulatedChain SourceError EventPage := fun simulated =>
  let asked := { simulated.wait with eventRequests := simulated.eventRequests + 1 }
  if asked.isBroken then (.error (.malformed "undecodable log"), asked)
  else
    match asked.failuresLeft with
    | 0 => (.ok (asked.page first last watched), asked)
    | left + 1 =>
      (.error (.transient "connection reset by peer"), { asked with failuresLeft := left })

/-- The calls on a simulated chain. -/
def source : ChainSource SimulatedChain where
  head _ := read fun simulated => simulated.block simulated.headNumber
  block _ number := read (·.block number)
  events _ first last watched := readEvents first last watched

end SimulatedChain

end ChainIndexer.Testing
