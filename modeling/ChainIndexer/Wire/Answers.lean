import ChainIndexer.Indexer
import ChainIndexer.Number.Decimal
import ChainIndexer.Testing.ScriptedChain
import ChainIndexer.Wire.Decode
import ChainIndexer.Wire.Tables

/-!
# Writing what components report

The JSON forms of fetched items, progress reports, checked configurations and runs.
-/

namespace ChainIndexer.Wire

open Testing

/-- The members of an object. -/
def members (value : Json) : List (String × Json) := value.asObject?.getD []

/-- The members of an object by chain. -/
def chainMembers (value : Json) (name : String) : List (ChainId × Json) :=
  (object? value name).filterMap fun (id, member) => (Decimal.nat? id Word.count).map (·, member)

/-- An error without its text if it is of a kind whose texts are not shown. -/
def withoutText (kind : String) (answer : Json) : Json :=
  if answer.get? "error" = some (.str kind) then obj [("error", .str kind)] else answer

def panicJson (message : Option String) : Json := errorJson "Panic" message

def requestJson : ChainRequest → Json
  | .head => .str "head"
  | .block number => .arr [.str "block", .nat number]
  | .events first last addresses =>
    .arr [.str "events", .nat first, .nat last, .arr (addresses.map .str)]

def batchJson (batch : FetchedBatch) : Json :=
  obj [("chain_id", .nat batch.chain), ("from", .nat batch.fromBlock),
    ("last", blockJson batch.lastBlock), ("head", .nat batch.head),
    ("reached_head", .bool batch.reachedHead), ("events", .arr (batch.events.map eventIdJson)),
    ("batches_fetched", .nat batch.batches), ("blocks", .arr (batch.blocks.map shortBlockJson))]

def fetchedJson : Except FetchError Fetched → Json
  | .ok (.batch batch) => obj [("batch", batchJson batch)]
  | .ok (.reorg reorg) => obj [("reorg", reorgJson reorg)]
  | .ok .atHead => .str "at_head"
  | .ok .finished => .str "finished"
  | .error error => fetchErrorJson error

def validatedJson (config : Config) : Json :=
  let verdict := match config.validate with
    | .ok () => .str "ok"
    | .error error => configErrorJson error
  obj [("validate", verdict), ("config", configJson config)]

def trackerJson (tracker : Tracker) : Json :=
  .arr (tracker.all.map fun checkpoint =>
    obj (checkpointMembers checkpoint ++ [("resume", .nat checkpoint.resumeBlock),
      ("skip_through", .ofOption positionJson checkpoint.skipThrough),
      ("caught_up", .bool checkpoint.isCaughtUp)]))

def reportJson (report : Progress × List RecordedBlock) : Json :=
  .arr [progressJson report.1, .arr (report.2.map recordedJson)]

def writeUnitJson (unit : WriteUnit) : Json :=
  obj [("raw_events", .arr (unit.rawEvents.map eventJson)),
    ("changes", .arr (unit.changes.map changeJson)),
    ("history", .arr (unit.history.map historyEntryJson)),
    ("registrations", .arr (unit.registrations.map registrationJson)),
    ("checkpoints", .arr (unit.checkpoints.map checkpointJson)),
    ("blocks", .arr (unit.blocks.map recordedJson))]

def summaryJson (summary : IndexingSummary) (hideBatches showUnits : Bool) : Json :=
  obj [("checkpoints", .arr (summary.checkpoints.map (shownCheckpointJson hideBatches))),
    ("degraded", .arr (summary.degraded.mergeSort.map .nat)),
    ("events_processed", .nat summary.events), ("rollbacks", .nat summary.rollbacks),
    ("stopped", .bool summary.stopped),
    ("units", if showUnits then .nat summary.units else .null)]

/-- What a run that is over answers. -/
def runMembers (hideBatches showUnits : Bool) :
    Except IndexingError IndexingSummary → List (String × Json)
  | .ok summary => [("summary", summaryJson summary hideBatches showUnits)]
  | .error error => members (indexingErrorJson error)

/-- Whether chains are processed up to given blocks. -/
def hasProcessed (store : Store) (blocks : List (ChainId × Json)) : Bool :=
  blocks.all fun (chain, block) =>
    ((store.checkpoints.get? chain).bind (·.processed)).any (asNat block ≤ ·)

/-- Whether a store has come as far as a phase of a run waits for. -/
def reached (store : Store) (goal : Json) : Bool :=
  let fieldOf (kind id name : String) : Option Json :=
    (store.entities.get? ⟨kind, id⟩).bind (·.get? name)
  let isFinished (chain : Json) : Bool :=
    (store.checkpoints.get? (asNat chain)).any (·.isFinished)
  let hasBalance (entry : String × Json) : Bool :=
    ((fieldOf "Balance" entry.1 "amount").bind Json.asWord?).any (asNat entry.2 ≤ ·)
  hasProcessed store (chainMembers goal "processed")
    && (list goal "finished").all isFinished
    && (field? goal "journal").all
      (· = ((fieldOf "Journal" "journal" "entries").getD (.arr [])))
    && (object? goal "balances").all hasBalance

end ChainIndexer.Wire
