import ChainIndexer.Checkpoint
import ChainIndexer.Config
import ChainIndexer.Fetch.BatchSize
import ChainIndexer.Fetch.Error
import ChainIndexer.Fetch.Queue
import ChainIndexer.Fetch.Window
import ChainIndexer.Retry

/-!
# Fetchers

A fetcher asks a source for the events of one chain, range after range. Before it hands a range
over it checks that the range follows on the blocks seen before; if not, the chain was forked, and
the fetcher looks for the highest block it saw that is still there.
-/

namespace ChainIndexer

structure FetchSettings where
  batchSize : BatchSize
  retries : RetryPolicy
  headPollingMillis : Nat
  maxRecordedBlocks : Nat
  queueDepth : Nat
deriving DecidableEq, Repr, Inhabited

def FetchSettings.ofConfig (config : Config) : FetchSettings where
  batchSize := .start config.blocksPerBatch config.minBlocksPerBatch config.maxBlocksPerBatch
    config.targetResponseMillis config.maxEventsPerResponse
  retries := ⟨config.maxFetchRetries, config.retryBackoffMillis⟩
  headPollingMillis := config.headPollingMillis
  maxRecordedBlocks := config.maxRecordedBlocks
  queueDepth := config.queueDepth

structure Fetcher where
  chain : ChainId
  settings : FetchSettings
  nextBlock : Nat
  endBlock : Option Nat
  /-- The head that the source named last. -/
  head : Option Block
  batchSize : BatchSize
  batches : Nat
  window : BlockWindow
  /-- Events up to this position are committed already. -/
  skipThrough : Option Position
deriving DecidableEq, Inhabited

/-- What one round of fetching gave. -/
inductive Fetched where
  | batch (batch : FetchedBatch)
  | reorg (reorg : Reorg)
  /-- The source has no further block yet. -/
  | atHead
  | finished
deriving DecidableEq, Inhabited

/-- What a fetcher works with and does not change. -/
structure FetchContext (τ : Type) where
  source : ChainSource τ
  handlers : HandlerTable
  /-- The addresses to ask for. -/
  watched : List WatchedAddress
  /-- How long an answer takes. -/
  responseMicros : Nat

/-- A fetcher at work: itself, its source, and the milliseconds it paused. -/
structure FetchState (τ : Type) where
  fetcher : Fetcher
  source : τ
  paused : Nat

namespace Fetcher

variable {τ α : Type}

def start (chain : Chain) (checkpoint : Checkpoint) (window : BlockWindow)
    (settings : FetchSettings) : Fetcher where
  chain := chain.id
  settings := settings
  nextBlock := checkpoint.resumeBlock
  endBlock := chain.endBlock
  head := none
  batchSize := settings.batchSize
  batches := checkpoint.batches
  window := window
  skipThrough := checkpoint.skipThrough

/-- One request as an attempt: transient failures may be tried again. -/
def attempt (call : Call τ SourceError α) (source : τ) : Attempt SourceError α × τ :=
  match call source with
  | (.ok value, source) => (.done value, source)
  | (.error (.transient reason), source) => (.failed (.transient reason), source)
  | (.error (.malformed reason), source) => (.fatal (.malformed reason), source)

def ofOutcome (operation : FetchOperation) : Outcome SourceError α → Except FetchError α
  | .done value => .ok value
  | .fatal (.malformed reason) => .error (.malformed reason)
  | .fatal (.transient reason) => .error (.malformed reason)
  | .exhausted attempts error => .error (.retriesExhausted operation attempts error)

def pause (millis : Nat) (state : FetchState τ) : FetchState τ :=
  { state with paused := state.paused + millis }

/-- Makes a request, with retries. -/
def request (operation : FetchOperation) (call : Call τ SourceError α) (state : FetchState τ) :
    Except FetchError α × FetchState τ :=
  let attempt (state : FetchState τ) : Attempt SourceError α × FetchState τ :=
    let (result, source) := attempt call state.source
    (result, { state with source := source })
  let (outcome, state) := state.fetcher.settings.retries.run attempt pause state
  (ofOutcome operation outcome, state)

/-- The last block to ask for: a batch from the next block on, up to the head and the end. -/
def lastRequested (fetcher : Fetcher) (head : Nat) : Nat :=
  let last := min (fetcher.nextBlock + fetcher.batchSize.value - 1) head
  fetcher.endBlock.elim last (min last ·)

/-- `lastRequested`, unless the number behind a batch is no word. -/
def lastRequested? (fetcher : Fetcher) (head : Nat) : Option Nat := do
  let behind ← Word.checkedAdd fetcher.nextBlock fetcher.batchSize.value
  let last ← Word.checkedSub behind 1
  return min (min last head) (fetcher.endBlock.getD Word.max)

/-- One request for events from the next block on. -/
def attemptEvents (context : FetchContext τ) (last : Nat) (state : FetchState τ) :
    Attempt SourceError EventPage × FetchState τ :=
  let fetcher := state.fetcher
  let (result, source) :=
    attempt (context.source.events fetcher.chain fetcher.nextBlock last context.watched)
      state.source
  (result, { state with source := source })

/-- Halves the batch size and pauses. -/
def halve (millis : Nat) (state : FetchState τ) : FetchState τ :=
  let fetcher := { state.fetcher with batchSize := state.fetcher.batchSize.shrink }
  pause millis { state with fetcher := fetcher }

/-- Asks for events, for half as many blocks after each failure. -/
def requestEvents (context : FetchContext τ) (head : Nat) (state : FetchState τ) :
    Except FetchError EventPage × FetchState τ :=
  let attempt (state : FetchState τ) : Attempt SourceError EventPage × FetchState τ :=
    attemptEvents context (state.fetcher.lastRequested head) state
  let (outcome, state) := state.fetcher.settings.retries.run attempt halve state
  (ofOutcome .events outcome, state)

/-- `requestEvents`, unless a range on the way comes from a number that is no word. -/
def requestEvents? (context : FetchContext τ) (head : Nat) (state : FetchState τ) :
    Option (Except FetchError EventPage × FetchState τ) :=
  let attempt (state : FetchState τ) : Attempt (Option SourceError) EventPage × FetchState τ :=
    match state.fetcher.lastRequested? head with
    | none => (.fatal none, state)
    | some last =>
      let (result, state) := attemptEvents context last state
      (result.unbroken, state)
  let (outcome, state) := state.fetcher.settings.retries.run attempt halve state
  outcome.ended?.map fun outcome => (ofOutcome .events outcome, state)

/-- Looks among recorded blocks, highest first, for one that the source still has. -/
def locateSafeBlock (context : FetchContext τ) :
    List Block → FetchState τ → Except FetchError Reorg × FetchState τ
  | [], state => (.error (.reorgBeyondWindow (state.fetcher.window.lowest?.getD 0)), state)
  | recorded :: rest, state =>
    match request .block (context.source.block state.fetcher.chain recorded.number) state with
    | (.error error, state) => (.error error, state)
    | (.ok current, state) =>
      if current.hash = recorded.hash then
        let fetcher :=
          { state.fetcher with
            window := state.fetcher.window.truncateAbove recorded.number
            nextBlock := recorded.number + 1
            head := none }
        (.ok ⟨fetcher.chain, current⟩, { state with fetcher := fetcher })
      else locateSafeBlock context rest state

/-- Whether an event is to be indexed: it has a handler, its address is watched at its block, and
it is not committed yet. -/
def wants (context : FetchContext τ) (skipThrough : Option Position) (event : Event) : Bool :=
  context.handlers.hasHandler event.contract event.name
    && (context.watched.find? (·.address = Text.lowercase event.address)).any
      (·.startBlock ≤ event.block)
    && skipThrough.all (· < event.position)

/-- The blocks of a page to remember: its ends, those around events, and the highest ones. -/
def blocksToRecord (maxRecorded : Nat) (page : EventPage) (events : List Event) : List Block :=
  let windowStart := page.lastBlock.number - maxRecorded
  let isAroundEvent (number : Nat) : Bool :=
    events.any fun event => event.block = number ∨ event.block = number + 1
  let kept := page.blocks.filter fun block =>
    decide (page.firstBlock.number ≤ block.number ∧ block.number ≤ page.lastBlock.number)
      && (decide (windowStart < block.number) || isAroundEvent block.number)
  let blocks := Table.ofList (kept.map fun block => (block.number, block))
  let blocks := blocks.insert page.firstBlock.number page.firstBlock
  (blocks.insert page.lastBlock.number page.lastBlock).values

/-- The batch for a page, and the fetcher moved on behind it. -/
def toBatch (context : FetchContext τ) (fetcher : Fetcher) (head : Nat) (page : EventPage) :
    FetchedBatch × Fetcher :=
  let events := Event.sortByPosition (page.events.filter (wants context fetcher.skipThrough))
  let blocks := blocksToRecord fetcher.settings.maxRecordedBlocks page events
  ({ chain := fetcher.chain
     fromBlock := fetcher.nextBlock
     lastBlock := page.lastBlock
     head := head
     events := events
     batches := fetcher.batches + 1
     blocks := blocks },
    { fetcher with
      skipThrough := fetcher.skipThrough.filter (page.lastBlock.number < ·.block)
      window := fetcher.window.recordAll blocks
      nextBlock := page.lastBlock.number + 1
      batches := fetcher.batches + 1 })

/-- Whether a page follows on the block recorded before it, if one is. -/
def followsRecorded (fetcher : Fetcher) (page : EventPage) : Bool :=
  fetcher.nextBlock = 0 ||
    (fetcher.window.get? (fetcher.nextBlock - 1)).all (·.hash = page.firstBlock.parentHash)

/-- The number of the head, asked for again once the known one is used up. -/
def findHead (context : FetchContext τ) (state : FetchState τ) :
    Except FetchError Nat × FetchState τ :=
  match state.fetcher.head.filter (state.fetcher.nextBlock ≤ ·.number) with
  | some head => (.ok head.number, state)
  | none =>
    match request .head (context.source.head state.fetcher.chain) state with
    | (.error error, state) => (.error error, state)
    | (.ok head, state) =>
      (.ok head.number, { state with fetcher := { state.fetcher with head := some head } })

/-- One round of fetching. -/
def fetchNext (context : FetchContext τ) (state : FetchState τ) :
    Except FetchError Fetched × FetchState τ :=
  if state.fetcher.endBlock.any (· < state.fetcher.nextBlock) then (.ok .finished, state)
  else
    match findHead context state with
    | (.error error, state) => (.error error, state)
    | (.ok head, state) =>
      if head < state.fetcher.nextBlock then (.ok .atHead, state)
      else
        match requestEvents context head state with
        | (.error error, state) => (.error error, state)
        | (.ok page, state) =>
          if state.fetcher.followsRecorded page then
            let (batch, fetcher) := toBatch context state.fetcher head page
            let fetcher :=
              { fetcher with
                batchSize := fetcher.batchSize.adjust context.responseMicros page.events.length }
            (.ok (.batch batch), { state with fetcher := fetcher })
          else
            match locateSafeBlock context state.fetcher.window.descending state with
            | (.error error, state) => (.error error, state)
            | (.ok reorg, state) => (.ok (.reorg reorg), state)

/-- Whether the ranges that a round asks for and the batch size that it leaves come from words. -/
def hasWords (context : FetchContext τ) (state : FetchState τ) : Bool :=
  state.fetcher.endBlock.any (· < state.fetcher.nextBlock) ||
    match findHead context state with
    | (.error _, _) => true
    | (.ok head, state) =>
      head < state.fetcher.nextBlock ||
        match requestEvents? context head state with
        | none => false
        | some (.error _, _) => true
        | some (.ok page, state) =>
          !state.fetcher.followsRecorded page ||
            (state.fetcher.batchSize.adjust? context.responseMicros page.events.length).isSome

/-- One round of fetching, unless it would leave the words. -/
def fetchNext? (context : FetchContext τ) (state : FetchState τ) :
    Option (Except FetchError Fetched × FetchState τ) :=
  if hasWords context state then some (fetchNext context state) else none

end Fetcher

end ChainIndexer
