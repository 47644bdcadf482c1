import ChainIndexer.Block
import ChainIndexer.Table

/-!
# Checkpoints

How far each chain is indexed. A checkpoint says where indexing goes on after a restart: at the
block after the processed one, or within a later block whose first events are already committed.
-/

namespace ChainIndexer

structure Checkpoint where
  chain : ChainId
  startBlock : Nat
  endBlock : Option Nat
  fetched : Option Nat
  /-- The highest block with all its events committed. -/
  processed : Option Nat
  /-- The last committed event; above `processed` when a unit ended within a block. -/
  position : Option Position
  events : Nat
  batches : Nat
  firstEventBlock : Option Nat
  /-- When the chain was first live or finished, in seconds. -/
  caughtUpAt : Option Int
  isLive : Bool
  isFinished : Bool
deriving DecidableEq, Inhabited

/-- What one committed unit did to a chain. -/
structure Progress where
  chain : ChainId
  fetched : Option Nat
  processed : Option Nat
  position : Option Position
  events : Nat
  batches : Nat
  firstEventBlock : Option Nat
  isLive : Bool
  isFinished : Bool
deriving DecidableEq, Inhabited

/-- Where a rollback moves the processed block of a chain; without a block nothing stays. -/
structure Rewind where
  chain : ChainId
  block : Option Nat
deriving DecidableEq, Repr, Inhabited

namespace Progress

def none (chain : ChainId) : Progress where
  chain := chain
  fetched := .none
  processed := .none
  position := .none
  events := 0
  batches := 0
  firstEventBlock := .none
  isLive := false
  isFinished := false

def merge (a b : Progress) : Progress where
  chain := a.chain
  fetched := max a.fetched b.fetched
  processed := max a.processed b.processed
  position := max a.position b.position
  events := a.events + b.events
  batches := max a.batches b.batches
  firstEventBlock := a.firstEventBlock.or b.firstEventBlock
  isLive := a.isLive || b.isLive
  isFinished := a.isFinished || b.isFinished

end Progress

namespace Checkpoint

def fresh (chain : Chain) : Checkpoint where
  chain := chain.id
  startBlock := chain.startBlock
  endBlock := chain.endBlock
  fetched := none
  processed := none
  position := none
  events := 0
  batches := 0
  firstEventBlock := none
  caughtUpAt := none
  isLive := false
  isFinished := false

/-- Events up to this position are committed, though their block is not processed. -/
def skipThrough (checkpoint : Checkpoint) : Option Position :=
  checkpoint.position.filter fun position =>
    match checkpoint.processed with
    | some processed => processed < position.block
    | none => true

/-- The first block to fetch. -/
def resumeBlock (checkpoint : Checkpoint) : Nat :=
  match checkpoint.skipThrough, checkpoint.processed with
  | some position, _ => position.block
  | none, some processed => max (processed + 1) checkpoint.startBlock
  | none, none => checkpoint.startBlock

def isCaughtUp (checkpoint : Checkpoint) : Bool := checkpoint.caughtUpAt.isSome

/-- The checkpoint after some progress, committed at a given time. -/
def update (checkpoint : Checkpoint) (progress : Progress) (now : Int) : Checkpoint :=
  let isLive := checkpoint.isLive || progress.isLive
  let isFinished := checkpoint.isFinished || progress.isFinished
  { checkpoint with
    fetched := max checkpoint.fetched progress.fetched
    processed := max checkpoint.processed progress.processed
    position := max checkpoint.position progress.position
    events := checkpoint.events + progress.events
    batches := max checkpoint.batches progress.batches
    firstEventBlock := checkpoint.firstEventBlock.or progress.firstEventBlock
    isLive := isLive
    isFinished := isFinished
    caughtUpAt := checkpoint.caughtUpAt.or (if isLive || isFinished then some now else none) }

/-- The checkpoint with everything above a block undone. -/
def rewind (checkpoint : Checkpoint) (block : Option Nat) : Checkpoint :=
  { checkpoint with
    fetched := min checkpoint.fetched block
    processed := min checkpoint.processed block
    position := checkpoint.position.filter fun position =>
      match block with
      | some block => position.block ≤ block
      | none => false
    isLive := false
    isFinished := false }

/-- The stored checkpoint under a chain's present bounds: it stays finished only if the chain still
has an end, and that end is processed. -/
def resume (stored : Checkpoint) (chain : Chain) : Checkpoint :=
  { stored with
    endBlock := chain.endBlock
    isFinished := stored.isFinished &&
      match chain.endBlock, stored.processed with
      | some endBlock, some processed => decide (endBlock ≤ processed)
      | _, _ => false }

end Checkpoint

/-- The checkpoints of the chains of one run. -/
structure Tracker where
  checkpoints : Table ChainId Checkpoint
deriving DecidableEq, Inhabited

namespace Tracker

/-- Resumes stored checkpoints, each once, and starts fresh ones for the other chains. -/
def startAll : List Chain → Table ChainId Checkpoint → List (ChainId × Checkpoint)
  | [], _ => []
  | chain :: rest, stored =>
    let checkpoint :=
      match stored.get? chain.id with
      | some checkpoint => checkpoint.resume chain
      | none => .fresh chain
    (chain.id, checkpoint) :: startAll rest (stored.erase chain.id)

def start (chains : List Chain) (stored : List Checkpoint) : Tracker :=
  let byChain := stored.map fun checkpoint => (checkpoint.chain, checkpoint)
  ⟨.ofList (startAll chains (.ofList byChain))⟩

def get? (tracker : Tracker) (chain : ChainId) : Option Checkpoint :=
  tracker.checkpoints.get? chain

def processed (tracker : Tracker) (chain : ChainId) : Option Nat :=
  (tracker.get? chain).bind (·.processed)

/-- All checkpoints, in chain order. -/
def all (tracker : Tracker) : List Checkpoint := tracker.checkpoints.values

/-- The checkpoints that progress leads to; chains without a checkpoint are left out. -/
def updated (tracker : Tracker) (progress : List Progress) (now : Int) : List Checkpoint :=
  progress.filterMap fun progress =>
    (tracker.get? progress.chain).map (·.update progress now)

/-- The checkpoints that rewinds lead to; chains without a checkpoint are left out. -/
def rewound (tracker : Tracker) (rewinds : List Rewind) : List Checkpoint :=
  rewinds.filterMap fun rewind =>
    (tracker.get? rewind.chain).map (·.rewind rewind.block)

def replace (tracker : Tracker) (checkpoints : List Checkpoint) : Tracker :=
  ⟨tracker.checkpoints.insertAll (checkpoints.map fun checkpoint => (checkpoint.chain, checkpoint))⟩

end Tracker

end ChainIndexer
