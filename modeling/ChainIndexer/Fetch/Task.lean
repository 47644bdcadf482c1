import ChainIndexer.Fetch.Fetcher

/-!
# Running fetchers

A fetcher at work for a pipeline: it fetches, hands over what it got once the queue has room, and
ends at a reorg, at the end of its chain, or with a failure.
-/

namespace ChainIndexer

/-- What a running fetcher does next. -/
inductive TaskPhase where
  /-- Starts a round of fetching. -/
  | fetch
  /-- Takes what a round gave, once the round is over. -/
  | take
  | send (item : QueueItem)
  | ended
deriving DecidableEq, Inhabited

structure FetcherTask where
  fetcher : Fetcher
  /-- Which fetcher of its chain it is, counted from one. -/
  generation : Nat
  phase : TaskPhase
  /-- When it goes on, in milliseconds. -/
  dueAt : Nat
deriving DecidableEq, Inhabited

namespace FetcherTask

def start (fetcher : Fetcher) (generation clock : Nat) : FetcherTask :=
  ⟨fetcher, generation, .fetch, clock⟩

def goOn (task : FetcherTask) (phase : TaskPhase) (dueAt : Nat) : FetcherTask :=
  { task with phase := phase, dueAt := dueAt }

/-- The task after a round of fetching that was over at a given time. -/
def afterRound (task : FetcherTask) (clock : Nat) : Except FetchError Fetched → FetcherTask
  | .ok (.batch batch) => task.goOn (.send (.batch batch)) clock
  | .ok (.reorg reorg) => task.goOn (.send (.reorg reorg)) clock
  | .ok .finished => task.goOn (.send .finished) clock
  | .ok .atHead => task.goOn .fetch (clock + task.fetcher.settings.headPollingMillis)
  | .error _ => task.goOn .ended clock

/-- What comes after an item was handed over: more only after a batch. -/
def phaseAfter : QueueItem → TaskPhase
  | .batch _ => .fetch
  | .reorg _ => .ended
  | .finished => .ended

end FetcherTask

end ChainIndexer
