import ChainIndexer.Number.Word
import ChainIndexer.Source.Basic
import ChainIndexer.Table

/-!
# Scripted chains

A chain that follows a script: it can be forked, lengthened, made to fail, and told to change when
it is asked for something. The hash of a block names its chain, number and fork.
-/

namespace ChainIndexer.Testing

/-- The hash of a block of a chain that was forked at some blocks. -/
def forkedHash (chain : ChainId) (forks : List Nat) (number : Nat) : String :=
  "0x" ++ toString chain ++ "-" ++ toString number ++ "-"
    ++ toString (forks.filter (· ≤ number)).length

/-- A block of a chain that was forked at some blocks. -/
def forkedBlock (chain : ChainId) (forks : List Nat) (timestamp : Nat → Nat) (number : Nat) :
    Block where
  number := number
  hash := forkedHash chain forks number
  parentHash :=
    if number = 0 then "0x" ++ toString chain ++ "-genesis" else forkedHash chain forks (number - 1)
  timestamp := timestamp number

/-- An event as the block that it is in makes it. -/
def placedIn (chain : ChainId) (block : Block) (event : Event) : Event :=
  { event with chain := chain, blockHash := block.hash, timestamp := block.timestamp }

/-- The numbers from one through another. -/
def numbersThrough (first last : Nat) : List Nat :=
  List.range' first (last + 1 - first)

/-- One change of a scripted chain. -/
inductive ChainEdit where
  /-- Replaces the blocks from a number on, and drops their events. -/
  | fork (first : Nat)
  | head (number : Nat)
  | addEvents (events : List Event)
  /-- Events added to every answer, whatever was asked for. -/
  | strayEvents (events : List Event)
  /-- Blocks added to every answer. -/
  | strayBlocks (blocks : List Block)
  | listsBlocks (value : Bool)
  /-- How many blocks an answer covers at most. -/
  | maxSpan (count : Nat)
  /-- Lets the next calls of a kind fail. -/
  | fail (call : String) (count : Nat)
  /-- Lets all calls of some kinds fail for good. -/
  | malformed (calls : List String)
  /-- Makes edits at the first call of a kind with at least some number and first block. -/
  | onCall (call : String) (nth firstBlock : Option Nat) (edits : List ChainEdit)

structure ChainTrigger where
  call : String
  nth : Option Nat
  firstBlock : Option Nat
  edits : List ChainEdit

/-- Whether a trigger goes off at the call of a kind with a number and a first block. -/
def ChainTrigger.matchesCall (trigger : ChainTrigger) (call : String) (nth : Nat)
    (firstBlock : Option Nat) : Bool :=
  trigger.call = call && trigger.nth.all (· ≤ nth)
    && trigger.firstBlock.all fun first => firstBlock.any (first ≤ ·)

inductive ChainRequest where
  | head
  | block (number : Nat)
  | events (first last : Nat) (addresses : List String)
deriving DecidableEq, Repr

structure ScriptedChain where
  chain : ChainId
  headNumber : Nat
  genesisTimestamp : Nat
  blockTime : Nat
  forks : List Nat
  events : List Event
  strayEvents : List Event
  strayBlocks : List Block
  listsBlocks : Bool
  maxSpan : Option Nat
  /-- How many calls of a kind are still to fail. -/
  failures : Table String Nat
  malformed : List String
  triggers : List ChainTrigger
  /-- How many calls of a kind were made. -/
  calls : Table String Nat
  /-- What was asked for, the last request first. -/
  requests : List ChainRequest

namespace ScriptedChain

def start (chain genesisTimestamp blockTime : Nat) : ScriptedChain where
  chain := chain
  headNumber := 0
  genesisTimestamp := genesisTimestamp
  blockTime := blockTime
  forks := []
  events := []
  strayEvents := []
  strayBlocks := []
  listsBlocks := true
  maxSpan := none
  failures := .empty
  malformed := []
  triggers := []
  calls := .empty
  requests := []

def edit (script : ScriptedChain) : ChainEdit → ScriptedChain
  | .fork first =>
    { script with
      forks := script.forks ++ [first]
      events := script.events.filter (·.block < first) }
  | .head number => { script with headNumber := number }
  | .addEvents events => { script with events := script.events ++ events }
  | .strayEvents events => { script with strayEvents := events }
  | .strayBlocks blocks => { script with strayBlocks := blocks }
  | .listsBlocks value => { script with listsBlocks := value }
  | .maxSpan count => { script with maxSpan := some count }
  | .fail call count => { script with failures := script.failures.insert call count }
  | .malformed calls => { script with malformed := calls }
  | .onCall call nth firstBlock edits =>
    { script with triggers := script.triggers ++ [⟨call, nth, firstBlock, edits⟩] }

def editAll (script : ScriptedChain) (edits : List ChainEdit) : ScriptedChain :=
  edits.foldl edit script

def block (script : ScriptedChain) (number : Nat) : Block :=
  forkedBlock script.chain script.forks
    (fun number => script.genesisTimestamp + number * script.blockTime) number

/-- Counts a call and lets its triggers go off. -/
def noteCall (script : ScriptedChain) (call : String) (request : ChainRequest)
    (firstBlock : Option Nat) : ScriptedChain :=
  let nth := (script.calls.get? call).getD 0 + 1
  let goesOff (trigger : ChainTrigger) : Bool := trigger.matchesCall call nth firstBlock
  let noted :=
    { script with
      calls := script.calls.insert call nth
      requests := request :: script.requests
      triggers := script.triggers.filter (!goesOff ·) }
  noted.editAll ((script.triggers.filter goesOff).flatMap (·.edits))

/-- Answers a call, unless it is to fail. -/
def answer {α : Type} (call : String) (request : ChainRequest) (firstBlock : Option Nat)
    (value : ScriptedChain → α) : Call ScriptedChain SourceError α := fun script =>
  let script := script.noteCall call request firstBlock
  if call ∈ script.malformed then (.error (.malformed ("undecodable " ++ call)), script)
  else
    match (script.failures.get? call).getD 0 with
    | 0 => (.ok (value script), script)
    | left + 1 => (.error (.transient (call ++ " timed out")), script.edit (.fail call left))

/-- The last block that an answer for a range covers. -/
def lastCovered (script : ScriptedChain) (first last : Nat) : Nat :=
  let last := min last script.headNumber
  script.maxSpan.elim last fun span => min last (first + span - 1)

def page (first last : Nat) (watched : List WatchedAddress) (script : ScriptedChain) : EventPage :=
  let last := script.lastCovered first last
  let listed := script.events.filter fun event =>
    decide (first ≤ event.block ∧ event.block ≤ last)
      && watched.any fun watched => event.isFrom watched.address
  let numbers := if script.listsBlocks then numbersThrough first last else []
  let place (event : Event) : Event := placedIn script.chain (script.block event.block) event
  { events := listed.map place ++ script.strayEvents
    firstBlock := script.block first
    lastBlock := script.block last
    blocks := script.strayBlocks ++ numbers.map script.block }

/-- The calls on a scripted chain. -/
def source : ChainSource ScriptedChain where
  head _ := answer "head" .head none fun script => script.block script.headNumber
  block _ number := answer "block" (.block number) (some number) (·.block number)
  events _ first last watched :=
    answer "events" (.events first last (watched.map (·.address))) (some first)
      (page first last watched)

end ScriptedChain

end ChainIndexer.Testing
