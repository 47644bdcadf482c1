import ChainIndexer.Fetch.Task
import ChainIndexer.Orderer
import ChainIndexer.Pipeline.Boot
import ChainIndexer.Pipeline.Writer
import ChainIndexer.Processing
import ChainIndexer.Rollback.Planner

/-!
# The pipeline

The one path on which events are processed: it takes what the orderer says comes next, processes
and commits units of events, rolls back, and restarts fetchers. A chain that fails ends the whole
run if chains are ordered, and is left behind by the others if they are not.
-/

namespace ChainIndexer

/-- How a run ended. -/
structure IndexingSummary where
  checkpoints : List Checkpoint
  /-- The chains that were left behind, in the order in which they failed. -/
  degraded : List ChainId
  units : Nat
  events : Nat
  rollbacks : Nat
  /-- Whether the run was stopped before all chains were finished. -/
  stopped : Bool
deriving Inhabited

/-- What a pipeline works with and does not change. -/
structure PipelineContext (σ : Type) where
  config : Config
  handlers : HandlerTable
  repo : Repo σ
  /-- The time of day, in seconds. -/
  now : Int
  /-- The time since the start of the run, in milliseconds. -/
  clock : Nat

structure Pipeline (σ : Type) where
  registry : Registry
  tracker : Tracker
  orderer : Orderer
  /-- The fetchers of the chains that are still indexed. -/
  tasks : Table ChainId FetcherTask
  /-- How many fetchers each chain had. -/
  generations : Table ChainId Nat
  schedule : PruningSchedule
  degraded : List ChainId
  units : Nat
  events : Nat
  rollbacks : Nat
  /-- What handlers left behind for readers of a run. -/
  notes : List Json
  repo : σ

/-- What one step of a pipeline came to. -/
inductive PipelineStatus where
  | advanced
  /-- There is nothing to do before one of these chains brings something. -/
  | blocked (awaited : List ChainId)
  | stopped
  | finished
deriving DecidableEq, Inhabited

/-- The retries of writes. -/
def Config.writeRetries (config : Config) : RetryPolicy :=
  ⟨config.maxCommitRetries, config.retryBackoffMillis⟩

/-- Holds progress back to before an event that registers addresses: its chain is fetched again
from there. -/
def Progress.holdBefore (event : Event) (progress : Progress) : Progress :=
  if progress.chain = event.chain then
    { progress with
      processed := min progress.processed (Word.checkedSub event.block 1)
      isLive := false
      isFinished := false }
  else progress

/-- Whether a block may be remembered although an event registers addresses. -/
def RecordedBlock.isBefore (recorded : RecordedBlock) (event : Event) : Bool :=
  recorded.chain ≠ event.chain ∨ recorded.block.number < event.block

namespace Pipeline

variable {σ α : Type}

/-- A change of a pipeline that answers, or ends the run with an error. -/
abbrev Action (σ α : Type) := Call (Pipeline σ) IndexingError α

def ofBooted (config : Config) (booted : Booted) (repo : σ) : Pipeline σ where
  registry := booted.registry
  tracker := booted.tracker
  orderer := .start config.mode config.maxEventsPerUnit
  tasks := .empty
  generations := .empty
  schedule := ⟨.empty⟩
  degraded := []
  units := 0
  events := 0
  rollbacks := 0
  notes := []
  repo := repo

def generation (pipeline : Pipeline σ) (chain : ChainId) : Nat :=
  (pipeline.generations.get? chain).getD 0

def summary (pipeline : Pipeline σ) (stopped : Bool) : IndexingSummary where
  checkpoints := pipeline.tracker.all
  degraded := pipeline.degraded
  units := pipeline.units
  events := pipeline.events
  rollbacks := pipeline.rollbacks
  stopped := stopped

/-- Makes a call on the store. -/
def onRepo (call : Call σ RepoError α) (wrap : RepoError → IndexingError) : Action σ α :=
  fun pipeline =>
    match call pipeline.repo with
    | (.ok value, repo) => (.ok value, { pipeline with repo := repo })
    | (.error error, repo) => (.error (wrap error), { pipeline with repo := repo })

/-- Makes a call that changes the store, with retries. -/
def write (context : PipelineContext σ) (call : Call σ RepoError Unit) : Action σ Unit :=
  fun pipeline =>
    let outcome := context.config.writeRetries.write call pipeline.repo
    (outcome.result, { pipeline with repo := outcome.repo })

def abort (pipeline : Pipeline σ) (chain : ChainId) : Pipeline σ :=
  { pipeline with tasks := pipeline.tasks.erase chain }

/-- Puts in a fetcher of a chain, and a lane for what it fetches. -/
def spawn (context : PipelineContext σ) (chain : Chain) (checkpoint : Checkpoint)
    (recent : List Block) (pipeline : Pipeline σ) : Pipeline σ :=
  let settings := FetchSettings.ofConfig context.config
  let window := BlockWindow.start settings.maxRecordedBlocks recent
  let generation := pipeline.generation chain.id + 1
  { pipeline with
    generations := pipeline.generations.insert chain.id generation
    tasks := pipeline.tasks.insert chain.id
      (.start (.start chain checkpoint window settings) generation context.clock)
    orderer := pipeline.orderer.addLane (.start chain.id settings.queueDepth) }

/-- Starts to fetch a chain at its checkpoint, in place of an earlier fetcher. -/
def startFetcher (context : PipelineContext σ) (chain : ChainId) : Action σ Unit := do
  match context.config.chains.find? (·.id = chain), (← get).tracker.get? chain with
  | some found, some checkpoint =>
    modify (·.abort chain)
    let recent ← onRepo (context.repo.recentBlocks chain context.config.maxRecordedBlocks)
      fun error => .chainFailed chain (.repo error)
    modify (spawn context found checkpoint recent)
  | _, _ => return ()

def startFetchers (context : PipelineContext σ) : List ChainId → Action σ Unit
  | [] => return ()
  | chain :: rest => do
    startFetcher context chain
    startFetchers context rest

/-- Leaves a chain behind. -/
def degrade (chain : ChainId) (pipeline : Pipeline σ) : Pipeline σ :=
  { pipeline.abort chain with
    orderer := pipeline.orderer.removeLane chain
    degraded :=
      if chain ∈ pipeline.degraded then pipeline.degraded else pipeline.degraded ++ [chain] }

/-- Ends the run or leaves the chain behind, as the order of chains demands. -/
def failChain (context : PipelineContext σ) (chain : ChainId) (error : IndexingError) :
    Action σ Unit :=
  match context.config.mode with
  | .ordered => throw error
  | .unordered => modify (degrade chain)

/-- Prunes the chains that are due. -/
def pruneDue (context : PipelineContext σ) (config : PruningConfig) : List ChainId → Action σ Unit
  | [] => return ()
  | chain :: rest => do
    let pipeline ← get
    match pipeline.tracker.processed chain with
    | some processed =>
      if pipeline.schedule.isDue config chain context.now then
        onRepo (context.repo.prune chain (config.minBlock processed)) .repo
        modify fun pipeline =>
          { pipeline with schedule := pipeline.schedule.markPruned chain context.now }
    | none => pure ()
    pruneDue context config rest

/-- Gives back the events that are not applied and takes the progress that the others make. -/
def takeProgress (committed rest : List Event) :
    Action σ (List Progress × List RecordedBlock) := fun pipeline =>
  let (progress, blocks, orderer) := (pipeline.orderer.restore rest).progress committed
  (.ok (progress, blocks), { pipeline with orderer := orderer })

def noteCommit (unit : WriteUnit) (pipeline : Pipeline σ) : Pipeline σ :=
  { pipeline with
    tracker := pipeline.tracker.replace unit.checkpoints
    units := pipeline.units + 1
    events := pipeline.events + unit.rawEvents.length }

/-- Commits what processing gave. After a registration the chain is fetched again from the
registering event on. -/
def commitProcessed (context : PipelineContext σ) (events : List Event)
    (processed : ProcessedUnit) : Action σ Unit := do
  let committed := events.take processed.applied
  let (progress, blocks) ← takeProgress committed (events.drop processed.applied)
  let registering := if processed.registrations.isEmpty then none else committed.getLast?
  let progress := progress.map fun progress =>
    registering.elim progress fun event => progress.holdBefore event
  let unit : WriteUnit :=
    { rawEvents := committed
      changes := processed.changes
      history := processed.history
      registrations := processed.registrations
      checkpoints := (← get).tracker.updated progress context.now
      blocks := blocks.filter fun recorded => registering.all recorded.isBefore }
  if unit.isEmpty then
    return ()
  write context (context.repo.commit unit)
  modify (noteCommit unit)
  match registering with
  | some event => startFetcher context event.chain
  | none => pure ()
  match context.config.pruning with
  | some config => pruneDue context config (progress.map (·.chain))
  | none => pure ()

def handleUnit (context : PipelineContext σ) (events : List Event) : Action σ Unit := do
  let pipeline ← get
  let processing :=
    processEvents context.repo context.handlers pipeline.registry events pipeline.repo
  set { pipeline with
    registry := processing.registry
    repo := processing.repo
    notes := pipeline.notes ++ processing.notes }
  match processing.result with
  | .ok processed => commitProcessed context events processed
  | .error (.repo error) => throw (.repo error)
  | .error (.handler event error) =>
    failChain context event.chain (.handler event.chain event.position error)

/-- Rolls back what a reorg made stale, and fetches again the chains that it moved back. -/
def handleReorg (context : PipelineContext σ) (reorg : Reorg) : Action σ Unit := do
  let plan ← onRepo
    (RollbackPlan.make context.repo context.config.mode reorg (← get).tracker)
    (.rollbackFailed reorg.chain)
  write context (context.repo.applyRollback plan)
  modify fun pipeline => { pipeline with tracker := pipeline.tracker.replace plan.checkpoints }
  let registrations ← onRepo context.repo.registrations .repo
  modify fun pipeline =>
    { pipeline with
      registry := pipeline.registry.reload registrations
      rollbacks := pipeline.rollbacks + 1 }
  let pipeline ← get
  startFetchers context ((plan.rewinds.map (·.chain)).filter pipeline.orderer.hasLane)

/-- A failure of a fetcher that was replaced since is of no interest. -/
def handleFailure (context : PipelineContext σ) (failure : ChainFailure) : Action σ Unit := do
  if (← get).generations.get? failure.chain = some failure.generation then
    failChain context failure.chain (.chainFailed failure.chain failure.error)

/-- Does what comes next. -/
def advance (context : PipelineContext σ) : Action σ PipelineStatus := do
  let pipeline ← get
  if pipeline.orderer.stopRequested then
    return .stopped
  let (step, orderer) := pipeline.orderer.nextStep
  set { pipeline with orderer := orderer }
  match step with
  | .unit events =>
    handleUnit context events
    return .advanced
  | .reorg reorg =>
    handleReorg context reorg
    return .advanced
  | .failure failure =>
    handleFailure context failure
    return .advanced
  | .stopped => return .stopped
  | .finished => return .finished
  | .blocked awaited => return .blocked awaited

/-- Goes on after a wait for some chains, if it is over. A failure that ends it is dealt with before
anything that came in meanwhile. -/
def resume (context : PipelineContext σ) (awaited : List ChainId) : Action σ PipelineStatus := do
  let pipeline ← get
  match pipeline.orderer.wait awaited with
  | some (.item, orderer) =>
    set { pipeline with orderer := orderer }
    advance context
  | some (.failure failure, orderer) =>
    set { pipeline with orderer := orderer }
    handleFailure context failure
    return .advanced
  | some (.stopped, _) => return .stopped
  | none => return .blocked awaited

/-- Does what comes next, or goes on to wait for some chains. -/
def goOn (context : PipelineContext σ) : (awaited : Option (List ChainId)) → Action σ PipelineStatus
  | none => advance context
  | some awaited => resume context awaited

/-- Asks the pipeline to stop before its next step. -/
def requestStop (pipeline : Pipeline σ) : Pipeline σ :=
  { pipeline with orderer := { pipeline.orderer with stopRequested := true } }

end Pipeline

end ChainIndexer
