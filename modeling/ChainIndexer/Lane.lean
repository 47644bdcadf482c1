import ChainIndexer.Checkpoint
import ChainIndexer.Fetch.Queue
import ChainIndexer.Number.Word

/-!
# Lanes

One chain as the orderer sees it: its queue, and the events taken from the queue but not yet
committed. A lane takes nothing more from its queue while events are pending, so that a full queue
holds back the fetcher.
-/

namespace ChainIndexer

structure Lane where
  chain : ChainId
  queue : ItemQueue
  pending : List Event
  fetchedThrough : Option Block
  batches : Nat
  /-- Blocks to remember once everything up to them is committed. -/
  unrecorded : List Block
  hasNewProgress : Bool
  isLive : Bool
  isFinished : Bool
  isClosed : Bool
  reorg : Option Reorg
deriving DecidableEq, Inhabited

namespace Lane

def start (chain : ChainId) (depth : Nat) : Lane where
  chain := chain
  queue := .start depth
  pending := []
  fetchedThrough := none
  batches := 0
  unrecorded := []
  hasNewProgress := false
  isLive := false
  isFinished := false
  isClosed := false
  reorg := none

def absorb (lane : Lane) : QueueItem → Lane
  | .batch batch =>
    { lane with
      isLive := batch.reachedHead
      batches := batch.batches
      pending := lane.pending ++ batch.events
      unrecorded := lane.unrecorded ++ batch.blocks
      fetchedThrough := some batch.lastBlock
      hasNewProgress := true }
  | .reorg reorg => { lane with reorg := some reorg }
  | .finished => { lane with isFinished := true, hasNewProgress := true }

/-- Takes items from the queue until events are pending or a reorg shows up. -/
def drainItems (lane : Lane) : List QueueItem → Lane
  | [] =>
    if lane.pending.isEmpty && lane.reorg.isNone && !lane.queue.hasSender then
      { lane with queue := { lane.queue with items := [] }, isClosed := true }
    else { lane with queue := { lane.queue with items := [] } }
  | item :: rest =>
    if lane.pending.isEmpty && lane.reorg.isNone && !lane.isClosed then
      (lane.absorb item).drainItems rest
    else { lane with queue := { lane.queue with items := item :: rest } }

/-- What holds of a lane with the items it may take holds once it has taken some, if it is kept by
each of them, and by leaving the others in the queue. -/
theorem drainItems_induction {P : Lane → List QueueItem → Prop} {lane : Lane}
    {items : List QueueItem} (h : P lane items)
    (hleave : ∀ (lane : Lane) items isClosed, P lane items →
      P { lane with queue := { lane.queue with items := items }, isClosed := isClosed } items)
    (habsorb : ∀ (lane : Lane) item rest, lane.pending = [] → P lane (item :: rest) →
      P (lane.absorb item) rest) :
    P (lane.drainItems items) (lane.drainItems items).queue.items := by
  induction items generalizing lane with
  | nil =>
    rw [drainItems]
    split
    next => exact hleave lane [] true h
    next => exact hleave lane [] lane.isClosed h
  | cons item rest ih =>
    rw [drainItems]
    split
    next hempty =>
      simp only [Bool.and_eq_true, List.isEmpty_iff] at hempty
      exact ih (habsorb lane item rest hempty.1.1 h)
    next => exact hleave lane (item :: rest) lane.isClosed h

def drainReady (lane : Lane) : Lane := lane.drainItems lane.queue.items

/-- Waits for one item: takes it, or learns that none will come; without either it still waits. -/
def waitItem (lane : Lane) : Option Lane :=
  match lane.queue.items with
  | item :: rest => some ({ lane with queue := { lane.queue with items := rest } }.absorb item)
  | [] => if lane.queue.hasSender then none else some { lane with isClosed := true }

def takeReorg (lane : Lane) : Option Reorg × Lane := (lane.reorg, { lane with reorg := none })

def frontKey (lane : Lane) : Option EventKey := lane.pending.head?.map Event.key

def popFront (lane : Lane) : Option Event × Lane :=
  (lane.pending.head?, { lane with pending := lane.pending.tail })

def takeFront (lane : Lane) (maxEvents : Nat) : List Event × Lane :=
  (lane.pending.take maxEvents, { lane with pending := lane.pending.drop maxEvents })

/-- Puts events back before the pending ones. -/
def restore (lane : Lane) (events : List Event) : Lane :=
  { lane with pending := events ++ lane.pending }

def hasPending (lane : Lane) : Bool := !lane.pending.isEmpty

def isDone (lane : Lane) : Bool := lane.isFinished && lane.pending.isEmpty

/-- Whether waiting for the queue can change anything. -/
def isWaitable (lane : Lane) : Bool :=
  lane.pending.isEmpty && !lane.isFinished && !lane.isClosed && lane.reorg.isNone

/-- The first place after a block in the order over all chains. -/
def keyAfter (chain : ChainId) (block : Block) : EventKey :=
  ⟨block.timestamp, chain, block.number + 1, 0⟩

/-- Whether no event that is still to come on this lane stands before a key. -/
def cannotPrecede (lane : Lane) (key : EventKey) : Bool :=
  lane.isFinished || lane.isLive ||
    lane.fetchedThrough.any fun block => key < keyAfter lane.chain block

/-- The highest block with no event left to commit. -/
def processed (lane : Lane) : Option Nat :=
  match lane.pending.head? with
  | some event => Word.checkedSub event.block 1
  | none => lane.fetchedThrough.map (·.number)

/-- What the lane did since the last report, given its events that a unit commits, with the blocks
to remember now. -/
def progress (lane : Lane) (committed : List Event) :
    Option (Progress × List RecordedBlock) × Lane :=
  if committed.isEmpty && !lane.hasNewProgress then (none, lane)
  else
    let recorded := lane.unrecorded.filter fun block => lane.processed.any (block.number ≤ ·)
    let progress : Progress :=
      { chain := lane.chain
        fetched := lane.fetchedThrough.map (·.number)
        processed := lane.processed
        position := committed.getLast?.map Event.position
        events := committed.length
        batches := lane.batches
        firstEventBlock := committed.head?.map (·.block)
        isLive := lane.isLive && lane.pending.isEmpty
        isFinished := lane.isDone }
    (some (progress, recorded.map fun block => ⟨lane.chain, block⟩),
      { lane with
        hasNewProgress := false
        unrecorded := lane.unrecorded.filter fun block =>
          !lane.processed.any (block.number ≤ ·) })

end Lane

end ChainIndexer
