import ChainIndexer.Pipeline.Basic

/-!
# The indexer

A pipeline together with the sources its fetchers ask and a clock. One step lets the pipeline do
what it can do; while the pipeline waits for some chains, every fetcher that is due goes on until it
has to wait; once none is due, the clock moves to the time of the next one.
-/

namespace ChainIndexer

/-- What an indexer works with and does not change. -/
structure IndexerContext (τ σ : Type) where
  config : Config
  handlers : HandlerTable
  repo : Repo σ
  source : ChainSource τ
  /-- The time of day at the start, in seconds. -/
  now : Int
  /-- How long a source takes for an answer. -/
  responseMicros : Nat
  /-- How long readers of a source have waited for answers so far, in milliseconds. -/
  waited : τ → Nat

structure Indexer (τ σ : Type) where
  pipeline : Pipeline σ
  sources : Table ChainId τ
  /-- Milliseconds since the start. -/
  clock : Nat
  /-- The chains that the pipeline waits for, while it does. -/
  awaited : Option (List ChainId)

/-- How a run goes on. -/
inductive IndexerPhase where
  | running
  /-- Everything that was due is done, and the clock has moved on. -/
  | waiting
  | ended (result : Except IndexingError IndexingSummary)
  /-- Nothing will ever happen again. -/
  | stuck
deriving Inhabited

namespace Indexer

variable {τ σ : Type}

def pipelineContext (context : IndexerContext τ σ) (indexer : Indexer τ σ) : PipelineContext σ where
  config := context.config
  handlers := context.handlers
  repo := context.repo
  now := context.now
  clock := indexer.clock

def changeTask (indexer : Indexer τ σ) (chain : ChainId) (task : FetcherTask) : Indexer τ σ :=
  { indexer with
    pipeline := { indexer.pipeline with tasks := indexer.pipeline.tasks.insert chain task } }

/-- Ends the queue of a chain behind what it holds. -/
def closeLane (indexer : Indexer τ σ) (chain : ChainId) : Indexer τ σ :=
  let close (lane : Lane) : Lane := { lane with queue := lane.queue.close }
  { indexer with
    pipeline :=
      { indexer.pipeline with orderer := indexer.pipeline.orderer.changeLane chain close } }

/-- One round of fetching, with the source as it is now. -/
def round (context : IndexerContext τ σ) (indexer : Indexer τ σ) (chain : ChainId)
    (task : FetcherTask) (source : τ) : Except FetchError Fetched × FetchState τ :=
  let fetchContext : FetchContext τ :=
    { source := context.source
      handlers := context.handlers
      watched := indexer.pipeline.registry.watchedOn chain
      responseMicros := context.responseMicros }
  Fetcher.fetchNext fetchContext ⟨task.fetcher, source, 0⟩

/-- Makes a round of fetching, and reports if it failed. -/
def takeRound (context : IndexerContext τ σ) (chain : ChainId) (task : FetcherTask) (source : τ)
    (indexer : Indexer τ σ) : Indexer τ σ :=
  let (result, state) := indexer.round context chain task source
  let task := { task with fetcher := state.fetcher }
  let fetched :=
    { indexer with sources := indexer.sources.insert chain state.source }.changeTask chain
      (task.afterRound indexer.clock result)
  match result with
  | .ok _ => fetched
  | .error error =>
    let orderer := fetched.pipeline.orderer
    let failures := orderer.failures ++ [⟨chain, task.generation, error⟩]
    let pipeline := { fetched.pipeline with orderer := { orderer with failures := failures } }
    { fetched with pipeline := pipeline }.closeLane chain

/-- Starts a round of fetching. One that takes time is made when that time is over, so that it sees
the source as it is by then. -/
def startRound (context : IndexerContext τ σ) (chain : ChainId) (task : FetcherTask) (source : τ)
    (indexer : Indexer τ σ) : Indexer τ σ :=
  let (_, state) := indexer.round context chain task source
  match state.paused + (context.waited state.source - context.waited source) with
  | 0 => indexer.takeRound context chain task source
  | millis => indexer.changeTask chain (task.goOn .take (indexer.clock + millis))

/-- Puts an item into the queue of a chain. -/
def send (chain : ChainId) (task : FetcherTask) (item : QueueItem) (indexer : Indexer τ σ) :
    Indexer τ σ :=
  let push (lane : Lane) : Lane := { lane with queue := lane.queue.push item }
  let orderer := indexer.pipeline.orderer.changeLane chain push
  let task := task.goOn (FetcherTask.phaseAfter item) indexer.clock
  let sent := { indexer with pipeline := { indexer.pipeline with orderer := orderer } }.changeTask
    chain task
  match item with
  | .batch _ => sent
  | .reorg _ => sent.closeLane chain
  | .finished => sent.closeLane chain

/-- Whether a fetcher has something to do, now or once it is due. -/
def canGoOn (indexer : Indexer τ σ) (chain : ChainId) (task : FetcherTask) : Bool :=
  match task.phase with
  | .fetch | .take => indexer.sources.contains chain
  | .send _ => (indexer.pipeline.orderer.lanes.get? chain).any fun lane => !lane.queue.isFull
  | .ended => false

/-- Lets the fetcher of a chain go on. -/
def runTask (context : IndexerContext τ σ) (indexer : Indexer τ σ) (chain : ChainId) :
    Indexer τ σ :=
  match indexer.pipeline.tasks.get? chain with
  | none => indexer
  | some task =>
    match task.phase, indexer.sources.get? chain with
    | .fetch, some source => indexer.startRound context chain task source
    | .take, some source => indexer.takeRound context chain task source
    | .fetch, none | .take, none => indexer
    | .send item, _ => indexer.send chain task item
    | .ended, _ => indexer

/-- The chains whose fetchers can go on, with the times when they are due. -/
def pending (indexer : Indexer τ σ) : List (ChainId × Nat) :=
  (indexer.pipeline.tasks.entries.filter fun entry => indexer.canGoOn entry.1 entry.2).map
    fun entry => (entry.1, entry.2.dueAt)

/-- Lets the fetcher of a chain go on until it has to wait: for a later time, or for room in its
queue. Nothing else happens meanwhile, so it may fill the queue. -/
def exhaustTask (context : IndexerContext τ σ) (chain : ChainId) :
    (fuel : Nat) → Indexer τ σ → Indexer τ σ
  | 0, indexer => indexer
  | fuel + 1, indexer =>
    match indexer.pipeline.tasks.get? chain with
    | none => indexer
    | some task =>
      if indexer.canGoOn chain task && task.dueAt ≤ indexer.clock then
        exhaustTask context chain fuel (indexer.runTask context chain)
      else indexer

/-- Twice the room in a queue, for a round and a handover of each item, and one more round. -/
def taskFuel (context : IndexerContext τ σ) : Nat := 2 * max context.config.queueDepth 1 + 1

/-- Lets the fetchers that are due go on, or moves the clock to the time when the next one is;
without any fetcher that can go on nothing happens any more. -/
def runTasks (context : IndexerContext τ σ) (indexer : Indexer τ σ) : IndexerPhase × Indexer τ σ :=
  let pending := indexer.pending
  match pending.filter (·.2 ≤ indexer.clock), (pending.map (·.2)).min? with
  | [], none => (.stuck, indexer)
  | [], some next => (.waiting, { indexer with clock := next })
  | due, _ =>
    let exhaust (indexer : Indexer τ σ) (chain : ChainId) : Indexer τ σ :=
      exhaustTask context chain (taskFuel context) indexer
    (.running, (due.map (·.1)).foldl exhaust indexer)

def step (context : IndexerContext τ σ) (indexer : Indexer τ σ) : IndexerPhase × Indexer τ σ :=
  let (status, pipeline) :=
    Pipeline.goOn (indexer.pipelineContext context) indexer.awaited indexer.pipeline
  let advanced := { indexer with pipeline := pipeline, awaited := none }
  match status with
  | .error error => (.ended (.error error), advanced)
  | .ok .stopped => (.ended (.ok (pipeline.summary true)), advanced)
  | .ok .finished => (.ended (.ok (pipeline.summary false)), advanced)
  | .ok .advanced => (.running, advanced)
  | .ok (.blocked awaited) => runTasks context { advanced with awaited := some awaited }

/-- Makes up to some steps, until the run ends or a test holds while the indexer waits. -/
def runUntil (context : IndexerContext τ σ) (holds : Indexer τ σ → Bool) :
    (fuel : Nat) → Indexer τ σ → IndexerPhase × Indexer τ σ
  | 0, indexer => (.stuck, indexer)
  | fuel + 1, indexer =>
    match step context indexer with
    | (.running, indexer) => runUntil context holds fuel indexer
    | (.waiting, indexer) =>
      if holds indexer then (.waiting, indexer) else runUntil context holds fuel indexer
    | (phase, indexer) => (phase, indexer)

/-- Lets a run go on until a test holds, if it does not hold yet. -/
def await (context : IndexerContext τ σ) (fuel : Nat) (holds : Indexer τ σ → Bool)
    (indexer : Indexer τ σ) : IndexerPhase × Indexer τ σ :=
  if holds indexer then (.waiting, indexer) else runUntil context holds fuel indexer

/-- Makes up to some steps, until the run ends. -/
def run (context : IndexerContext τ σ) (fuel : Nat) (indexer : Indexer τ σ) :
    IndexerPhase × Indexer τ σ :=
  runUntil context (fun _ => false) fuel indexer

def requestStop (indexer : Indexer τ σ) : Indexer τ σ :=
  { indexer with pipeline := indexer.pipeline.requestStop }

/-- Boots an indexer and starts a fetcher for each chain. If that fails the store stays as it is by
then. -/
def start (context : IndexerContext τ σ) (sources : Table ChainId τ) (repo : σ) :
    Except IndexingError Unit × Indexer τ σ :=
  match boot context.repo context.config repo with
  | (.error error, repo) =>
    (.error error, ⟨.ofBooted context.config default repo, sources, 0, none⟩)
  | (.ok booted, repo) =>
    let indexer : Indexer τ σ := ⟨.ofBooted context.config booted repo, sources, 0, none⟩
    let chains := (context.config.chains.map (·.id)).mergeSort
    let (result, pipeline) :=
      Pipeline.startFetchers (indexer.pipelineContext context) chains indexer.pipeline
    (result, { indexer with pipeline := pipeline })

end Indexer

end ChainIndexer
