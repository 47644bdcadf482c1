import ChainIndexer.Block

/-!
# Fetched items

What a fetcher hands over, in the order in which it was fetched.
-/

namespace ChainIndexer

/-- The events of one fetched range of blocks, by position. -/
structure FetchedBatch where
  chain : ChainId
  fromBlock : Nat
  /-- The last block that the range covers. -/
  lastBlock : Block
  head : Nat
  events : List Event
  /-- How many batches of the chain were fetched, this one included. -/
  batches : Nat
  /-- Blocks to remember once the batch is committed. -/
  blocks : List Block
deriving DecidableEq, Inhabited

def FetchedBatch.reachedHead (batch : FetchedBatch) : Bool := batch.head ≤ batch.lastBlock.number

inductive QueueItem where
  | batch (batch : FetchedBatch)
  | reorg (reorg : Reorg)
  /-- The chain reached its end block. -/
  | finished
deriving DecidableEq, Inhabited

/-- A bounded queue from a fetcher. After the fetcher is gone what is left can still be taken. -/
structure ItemQueue where
  depth : Nat
  items : List QueueItem
  hasSender : Bool
deriving DecidableEq, Inhabited

namespace ItemQueue

/-- A queue that holds at least one item. -/
def start (depth : Nat) : ItemQueue := ⟨max depth 1, [], true⟩

def isFull (queue : ItemQueue) : Bool := queue.depth ≤ queue.items.length

def push (queue : ItemQueue) (item : QueueItem) : ItemQueue :=
  { queue with items := queue.items ++ [item] }

def close (queue : ItemQueue) : ItemQueue := { queue with hasSender := false }

end ItemQueue

end ChainIndexer
