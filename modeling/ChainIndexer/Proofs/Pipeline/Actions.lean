import ChainIndexer.Pipeline.Basic
import ChainIndexer.Proofs.Call
import ChainIndexer.Proofs.Release.Stream

/-!
# What the actions of a pipeline come to

Each action of a pipeline is taken apart here once, into the calls that it makes and the states that
it makes them in. What is proved of runs is proved of these parts.
-/

namespace ChainIndexer

/-- What a pipeline answers once it has done what a step asks for. -/
def OrdererStep.status : OrdererStep → PipelineStatus
  | .unit _ | .reorg _ | .failure _ => .advanced
  | .stopped => .stopped
  | .finished => .finished
  | .blocked awaited => .blocked awaited

namespace Pipeline

variable {σ : Type} {context : PipelineContext σ} {before after : Pipeline σ}

/-! ### Failures -/

theorem failChain_cases {chain : ChainId} {error : IndexingError}
    (h : failChain context chain error before = (.ok (), after)) :
    context.config.mode = .unordered ∧ after = degrade chain before := by
  rw [failChain] at h
  cases hmode : context.config.mode with
  | ordered =>
    rw [hmode] at h
    cases h
  | unordered =>
    rw [hmode] at h
    cases h
    exact ⟨rfl, rfl⟩

/-- A failure ends the chain if it is one of the fetcher that the chain has now. -/
theorem handleFailure_cases {failure : ChainFailure} {result : Except IndexingError Unit}
    (h : handleFailure context failure before = (result, after)) :
    (before.generations.get? failure.chain = some failure.generation ∧
      failChain context failure.chain (.chainFailed failure.chain failure.error) before =
        (result, after)) ∨
    before.generations.get? failure.chain ≠ some failure.generation ∧ result = .ok () ∧
      after = before := by
  rw [handleFailure, Call.bind_apply, Call.get_apply] at h
  dsimp only at h
  split at h
  next hcurrent => exact Or.inl ⟨hcurrent, h⟩
  next hreplaced =>
    cases h
    exact Or.inr ⟨hreplaced, rfl, rfl⟩

/-! ### Fetchers -/

/-- Puts in a fetcher that goes on from a checkpoint, in place of an earlier one. -/
def restart (context : PipelineContext σ) (chain : ChainId) (found : Chain)
    (checkpoint : Checkpoint) : Action σ Unit := do
  modify (·.abort chain)
  let recent ← onRepo (context.repo.recentBlocks chain context.config.maxRecordedBlocks)
    fun error => .chainFailed chain (.repo error)
  modify (spawn context found checkpoint recent)

theorem startFetcher_apply (context : PipelineContext σ) (chain : ChainId)
    (pipeline : Pipeline σ) :
    startFetcher context chain pipeline =
      match context.config.chains.find? (·.id = chain), pipeline.tracker.get? chain with
      | some found, some checkpoint => restart context chain found checkpoint pipeline
      | _, _ => (.ok (), pipeline) := by
  rw [startFetcher, Call.bind_apply, Call.get_apply]
  dsimp only
  cases context.config.chains.find? (·.id = chain) with
  | none => rfl
  | some found => cases pipeline.tracker.get? chain <;> rfl

/-- Fetches the chain of a registering event anew. -/
def refetch (context : PipelineContext σ) : Option Event → Action σ Unit
  | some event => startFetcher context event.chain
  | none => pure ()

/-- Fetches the chain of a registering event anew and goes on. A commit that is unfolded has what
follows in both cases. -/
def refetchThen (context : PipelineContext σ) (registering : Option Event) (next : Action σ Unit) :
    Action σ Unit :=
  match registering with
  | some event => do
    startFetcher context event.chain
    next
  | none => do
    pure ()
    next

theorem refetchThen_eq (context : PipelineContext σ) (registering : Option Event)
    (next : Action σ Unit) :
    refetchThen context registering next =
      (do
        refetch context registering
        next) := by
  cases registering <;> rfl

/-! ### Units -/

/-- Prunes the chains that are due, if any are to be pruned. -/
def pruneIfAsked (context : PipelineContext σ) (chains : List ChainId) : Action σ Unit :=
  match context.config.pruning with
  | some config => pruneDue context config chains
  | none => pure ()

/-- The event that ends a unit because it registers addresses. -/
def registering (events : List Event) (processed : ProcessedUnit) : Option Event :=
  if processed.registrations.isEmpty then none else (events.take processed.applied).getLast?

/-- What the lanes report once a unit of events is processed and they have back what of it is not
applied. -/
def report (orderer : Orderer) (events : List Event) (processed : ProcessedUnit) :
    List Progress × List RecordedBlock × Orderer :=
  (orderer.restore (events.drop processed.applied)).progress (events.take processed.applied)

/-- What is stored once some events are processed. -/
def unitOf {σ : Type} (pipeline : Pipeline σ) (now : Int) (events : List Event)
    (processed : ProcessedUnit) : WriteUnit :=
  let report :=
    (pipeline.orderer.restore (events.drop processed.applied)).progress
      (events.take processed.applied)
  { rawEvents := events.take processed.applied
    changes := processed.changes
    history := processed.history
    registrations := processed.registrations
    checkpoints :=
      pipeline.tracker.updated (report.1.map (Progress.held (registering events processed))) now
    blocks := report.2.1.filter fun recorded =>
      (registering events processed).all recorded.isBefore }

/-- A pipeline once the lanes have reported. -/
def reported (pipeline : Pipeline σ) (events : List Event) (processed : ProcessedUnit) :
    Pipeline σ :=
  { pipeline with orderer := (report pipeline.orderer events processed).2.2 }

theorem commitProcessed_eq (context : PipelineContext σ) (before : Pipeline σ)
    (events : List Event) (processed : ProcessedUnit) :
    commitProcessed context events processed before =
      if (before.unitOf context.now events processed).isEmpty = true then
        (.ok (), before.reported events processed)
      else
        (do
          write context (context.repo.commit (before.unitOf context.now events processed))
          modify (noteCommit (before.unitOf context.now events processed))
          refetch context (registering events processed)
          pruneIfAsked context
            ((report before.orderer events processed).1.map (·.chain)) : Action σ Unit)
          (before.reported events processed) := by
  have hchains : ((report before.orderer events processed).1.map
      (Progress.held (registering events processed))).map (·.chain) =
        (report before.orderer events processed).1.map (·.chain) := by
    rw [List.map_map]
    exact List.map_congr_left fun progress _ => Progress.held_chain _ progress
  rw [← hchains]
  change (if (before.unitOf context.now events processed).isEmpty = true then
      (pure () : Action σ Unit)
    else do
      write context (context.repo.commit (before.unitOf context.now events processed))
      modify (noteCommit (before.unitOf context.now events processed))
      refetchThen context (registering events processed) (pruneIfAsked context
        (((report before.orderer events processed).1.map
          (Progress.held (registering events processed))).map (·.chain))))
      (before.reported events processed) = _
  rw [refetchThen_eq]
  split
  next => rfl
  next => rfl

/-- What is processed of a unit is committed, and a unit that cannot be processed fails its chain or
ends the run. -/
theorem handleUnit_eq (pipeline : Pipeline σ) {events : List Event} {processing : Processing σ}
    (hprocessing : processEvents context.repo context.handlers pipeline.registry events
      pipeline.repo = processing) :
    handleUnit context events pipeline =
      let noted :=
        { pipeline with
          registry := processing.registry
          repo := processing.repo
          notes := pipeline.notes ++ processing.notes }
      match processing.result with
      | .ok processed => commitProcessed context events processed noted
      | .error (.repo error) => (.error (.repo error), noted)
      | .error (.handler event error) =>
        failChain context event.chain (.handler event.chain event.position error) noted := by
  rw [handleUnit, Call.bind_apply, Call.get_apply]
  dsimp only
  rw [Call.set_bind_apply, hprocessing]
  cases processing.result with
  | ok processed => rfl
  | error error => cases error <;> rfl

/-! ### Steps -/

/-- Does what a step asks for. -/
def perform (context : PipelineContext σ) : OrdererStep → Action σ Unit
  | .unit events => handleUnit context events
  | .reorg reorg => handleReorg context reorg
  | .failure failure => handleFailure context failure
  | .stopped | .finished | .blocked _ => pure ()

theorem advance_of_nextStep {step : OrdererStep} {orderer : Orderer}
    (hrunning : before.orderer.stopRequested = false)
    (hstep : before.orderer.nextStep = (step, orderer)) :
    advance context before =
      (perform context step >>= fun _ => pure step.status) { before with orderer := orderer } := by
  rw [advance, Call.bind_apply, Call.get_apply]
  dsimp only
  rw [hrunning, if_neg Bool.false_ne_true, hstep]
  dsimp only
  rw [Call.set_bind_apply]
  cases step <;> rfl

theorem advance_of_stopRequested (hstop : before.orderer.stopRequested = true) :
    advance context before = (.ok .stopped, before) := by
  rw [advance, Call.bind_apply, Call.get_apply]
  dsimp only
  rw [if_pos hstop]
  rfl

/-- A pipeline that was not asked to stop does what the next step of its orderer asks for. -/
theorem advance_cases {result : Except IndexingError PipelineStatus}
    (h : advance context before = (result, after)) :
    (before.orderer.stopRequested = true ∧ result = .ok .stopped ∧ after = before) ∨
    ∃ step orderer done, before.orderer.stopRequested = false ∧
      before.orderer.nextStep = (step, orderer) ∧
      perform context step { before with orderer := orderer } = (done, after) ∧
      result = done.map fun _ => step.status := by
  cases hstop : before.orderer.stopRequested with
  | true =>
    rw [advance_of_stopRequested hstop] at h
    cases h
    exact Or.inl ⟨rfl, rfl, rfl⟩
  | false =>
    cases hstep : before.orderer.nextStep with
    | mk step orderer =>
    rw [advance_of_nextStep hstop hstep] at h
    refine Or.inr ⟨step, orderer, ?_⟩
    obtain ⟨error, rfl, hfailed⟩ | ⟨_, done, hdone, h⟩ := Call.bind_cases h
    · exact ⟨_, rfl, rfl, hfailed, rfl⟩
    · cases h
      exact ⟨_, rfl, rfl, hdone, rfl⟩

theorem advance_eq_ok {status : PipelineStatus}
    (h : advance context before = (.ok status, after)) :
    (before.orderer.stopRequested = true ∧ status = .stopped ∧ after = before) ∨
    ∃ step orderer, before.orderer.stopRequested = false ∧
      before.orderer.nextStep = (step, orderer) ∧
      perform context step { before with orderer := orderer } = (.ok (), after) ∧
      status = step.status := by
  obtain ⟨hstop, hstatus, hsame⟩ | ⟨step, orderer, done, hrunning, hstep, hdone, hstatus⟩ :=
    advance_cases h
  · cases hstatus
    exact Or.inl ⟨hstop, rfl, hsame⟩
  · cases done with
    | error error => cases hstatus
    | ok value =>
      cases hstatus
      exact Or.inr ⟨step, orderer, hrunning, hstep, hdone, rfl⟩

end Pipeline

/-! ### Waits -/

namespace Orderer

variable {orderer after : Orderer} {awaited : List ChainId}

/-- An item that ends a wait is one that draining all lanes would have taken, too. -/
theorem drain_of_hasItem {chain : ChainId} (h : orderer.hasItem chain = true) :
    (orderer.changeLane chain fun lane => lane.waitItem.getD lane).drain = orderer.drain := by
  have hlanes : (orderer.changeLane chain fun lane => lane.waitItem.getD lane).drain.lanes =
      orderer.drain.lanes := by
    refine Table.ext_get? fun other => ?_
    rw [get?_drain, get?_drain, changeLane, Table.get?_modify]
    split
    next hsame =>
      subst hsame
      obtain ⟨lane, hlane, hends⟩ := (Option.any_eq_true _ _).1 h
      rw [Bool.and_eq_true, Option.isSome_iff_exists] at hends
      obtain ⟨hwaitable, taken, hwait⟩ := hends
      rw [hlane, Option.map_some, Option.map_some, Option.map_some, hwait, Option.getD_some,
        Lane.drainReady_waitItem hwaitable hwait]
    next => rfl
  exact congrArg (fun lanes => { orderer with lanes := lanes }) hlanes

theorem nextStep_of_hasItem {chain : ChainId} (h : orderer.hasItem chain = true) :
    (orderer.changeLane chain fun lane => lane.waitItem.getD lane).nextStep =
      orderer.nextStep := by
  rw [nextStep, nextStep, drain_of_hasItem h]

/-- A wait ends with something to take for the next step, or with a failure, whatever the queues
hold. -/
theorem wait_eq_some {wake : Wake} (h : orderer.wait awaited = some (wake, after)) :
    match wake with
    | .item => orderer.stopRequested = false ∧ after.stopRequested = false ∧
        after.nextStep = orderer.nextStep
    | .failure failure => ∃ rest, orderer.failures = failure :: rest ∧
        after = { orderer with failures := rest }
    | .stopped => orderer.stopRequested = true := by
  rw [wait] at h
  split at h
  next hstop =>
    cases h
    exact hstop
  next hstop =>
    have hrunning := Bool.eq_false_iff.2 hstop
    split at h
    next chain hfound =>
      cases h
      exact ⟨hrunning, hrunning, nextStep_of_hasItem (List.find?_some hfound)⟩
    next failure rest _ hfailures =>
      cases h
      exact ⟨rest, hfailures, rfl⟩
    next => cases h

end Orderer

namespace Pipeline

variable {σ : Type} {context : PipelineContext σ} {before after : Pipeline σ}

/-- A pipeline that has heard of a failure, with others still to hear of. -/
def heard (pipeline : Pipeline σ) (rest : List ChainFailure) : Pipeline σ :=
  { pipeline with orderer := { pipeline.orderer with failures := rest } }

/-- What a pipeline does next depends on what its orderer says is next. -/
theorem advance_of_orderer {orderer : Orderer} (hnext : orderer.nextStep = before.orderer.nextStep)
    (hrunning : before.orderer.stopRequested = false) (hsame : orderer.stopRequested = false) :
    advance context { before with orderer := orderer } = advance context before := by
  cases hstep : before.orderer.nextStep with
  | mk step next =>
    have hmoved : ({ before with orderer := orderer } : Pipeline σ).orderer.nextStep =
        (step, next) := hnext.trans hstep
    rw [advance_of_nextStep hrunning hstep, advance_of_nextStep hsame hmoved]

/-- A pipeline that goes on, after a wait or without one, does what comes next, unless it still waits
or a failure came first. -/
theorem goOn_cases {awaited : Option (List ChainId)} {result : Except IndexingError PipelineStatus}
    (h : goOn context awaited before = (result, after)) :
    advance context before = (result, after) ∨
    (∃ chains, result = .ok (.blocked chains) ∧ after = before) ∨
    ∃ failure rest done, before.orderer.failures = failure :: rest ∧
      handleFailure context failure (before.heard rest) = (done, after) ∧
      result = done.map fun _ => .advanced := by
  cases awaited with
  | none => exact Or.inl h
  | some chains =>
    rw [goOn, resume, Call.bind_apply, Call.get_apply] at h
    dsimp only at h
    cases hwait : before.orderer.wait chains with
    | none =>
      rw [hwait] at h
      cases h
      exact Or.inr (Or.inl ⟨chains, rfl, rfl⟩)
    | some woken =>
      obtain ⟨wake, orderer⟩ := woken
      have hwoken := Orderer.wait_eq_some hwait
      rw [hwait] at h
      cases wake with
      | stopped =>
        cases h
        exact Or.inl (advance_of_stopRequested hwoken)
      | item =>
        dsimp only at h
        rw [Call.set_bind_apply] at h
        obtain ⟨hrunning, hsame, hnext⟩ := hwoken
        exact Or.inl (advance_of_orderer hnext hrunning hsame ▸ h)
      | failure failure =>
        obtain ⟨rest, hfailures, rfl⟩ := hwoken
        dsimp only at h
        rw [Call.set_bind_apply] at h
        refine Or.inr (Or.inr ⟨failure, rest, ?_⟩)
        obtain ⟨error, rfl, hfailed⟩ | ⟨_, done, hdone, h⟩ := Call.bind_cases h
        · exact ⟨_, hfailures, hfailed, rfl⟩
        · cases h
          exact ⟨_, hfailures, hdone, rfl⟩

theorem goOn_eq_ok {awaited : Option (List ChainId)} {status : PipelineStatus}
    (h : goOn context awaited before = (.ok status, after)) :
    advance context before = (.ok status, after) ∨ after = before ∨
    ∃ failure rest, before.orderer.failures = failure :: rest ∧
      handleFailure context failure (before.heard rest) = (.ok (), after) := by
  obtain hadvance | ⟨_, -, hsame⟩ | ⟨failure, rest, done, hfailures, hdone, hstatus⟩ := goOn_cases h
  · exact Or.inl hadvance
  · exact Or.inr (Or.inl hsame)
  · cases done with
    | error error => cases hstatus
    | ok value => exact Or.inr (Or.inr ⟨failure, rest, hfailures, hdone⟩)

end Pipeline

end ChainIndexer
