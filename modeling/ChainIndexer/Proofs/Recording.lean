import ChainIndexer.Proofs.Runs

/-!
# Notes of what is written

A store that takes a note of the chains whose checkpoints it writes tells which these are. It
answers as the store without the note does, so that each run of an indexer is that of one which
takes notes, with the notes left out.
-/

namespace ChainIndexer

/-- A store with a note of the chains whose checkpoints it has written. -/
structure Recorded (σ : Type) where
  inner : σ
  written : List ChainId

variable {σ ν τ ε α β : Type}

/-- What is seen of a store with a note of what it writes, with that note. -/
def Recorded.seenBy (view : σ → ν) (state : Recorded σ) : Recorded ν :=
  ⟨view state.inner, state.written⟩

/-! ### Noting what is written -/

namespace Call

/-- A call that writes no checkpoint. -/
def onInner (call : Call σ ε α) : Call (Recorded σ) ε α := fun state =>
  let (result, inner) := call state.inner
  (result, { state with inner := inner })

/-- A call that writes checkpoints of some chains, unless it fails. -/
def noting (chains : List ChainId) (call : Call σ ε Unit) : Call (Recorded σ) ε Unit :=
  fun state =>
    match call state.inner with
    | (.ok (), inner) => (.ok (), ⟨inner, state.written ++ chains⟩)
    | (.error error, inner) => (.error error, { state with inner := inner })

variable {view : σ → ν} {call : Call σ ε α} {seen : Call ν ε α}

theorem onInner_bind (call : Call σ ε α) (next : α → Call σ ε β) :
    onInner (call >>= next) = onInner call >>= fun value => onInner (next value) := by
  funext state
  rw [onInner, bind_apply, bind_apply, onInner]
  cases call state.inner with
  | mk result inner =>
    cases result with
    | ok value => rfl
    | error error => rfl

theorem onInner_pure (value : α) : onInner (pure value : Call σ ε α) = pure value := rfl

theorem noting_eq_ok {chains : List ChainId} {call : Call σ ε Unit} {state after : Recorded σ}
    (h : noting chains call state = (.ok (), after)) :
    call state.inner = (.ok (), after.inner) ∧ after.written = state.written ++ chains := by
  rw [noting] at h
  cases hcall : call state.inner with
  | mk result inner =>
    rw [hcall] at h
    cases result with
    | error error => cases h
    | ok value =>
      cases h
      exact ⟨rfl, rfl⟩

theorem onInner_backs (h : call.Backs view seen) :
    (onInner call).Backs (Recorded.seenBy view) (onInner seen) := by
  refine ⟨fun state value after hrun => ?_, fun state error after hrun => ?_⟩
  · obtain ⟨hcall, rfl⟩ := Prod.mk.inj hrun
    rw [onInner, Recorded.seenBy, h.ok state.inner value _ (Prod.ext hcall rfl)]
    rfl
  · obtain ⟨hcall, rfl⟩ := Prod.mk.inj hrun
    rw [Recorded.seenBy, Recorded.seenBy, h.error state.inner error _ (Prod.ext hcall rfl)]

theorem onInner_reads (h : call.Reads view seen) :
    (onInner call).Reads (Recorded.seenBy view) (onInner seen) := by
  refine ⟨(onInner_backs h.backs).ok, fun state result after hrun => ?_⟩
  obtain ⟨hcall, rfl⟩ := Prod.mk.inj hrun
  rw [Recorded.seenBy, Recorded.seenBy, h.keeps state.inner result _ (Prod.ext hcall rfl)]

theorem noting_backs {call : Call σ ε Unit} {seen : Call ν ε Unit} (h : call.Backs view seen)
    (chains : List ChainId) :
    (noting chains call).Backs (Recorded.seenBy view) (noting chains seen) := by
  refine ⟨fun state value after hrun => ?_, fun state error after hrun => ?_⟩
  · obtain ⟨hcall, hwritten⟩ := noting_eq_ok hrun
    rw [noting, Recorded.seenBy, h.ok state.inner () _ hcall, Recorded.seenBy, hwritten]
  · rw [noting] at hrun
    cases hcall : call state.inner with
    | mk result inner =>
      rw [hcall] at hrun
      cases result with
      | ok value => cases hrun
      | error cause =>
        cases hrun
        rw [Recorded.seenBy, Recorded.seenBy, h.error state.inner error inner hcall]

end Call

/-- A store that takes a note of the chains whose checkpoints it writes. -/
def Repo.recording (repo : Repo σ) : Repo (Recorded σ) where
  migrate := .onInner repo.migrate
  reset := .onInner repo.reset
  resetCount := .onInner repo.resetCount
  countReset := .onInner repo.countReset
  commit unit := .noting (unit.checkpoints.map (·.chain)) (repo.commit unit)
  entity key := .onInner (repo.entity key)
  checkpoints := .onInner repo.checkpoints
  registrations := .onInner repo.registrations
  recentBlocks chain limit := .onInner (repo.recentBlocks chain limit)
  latestOrigins keys := .onInner (repo.latestOrigins keys)
  historyIn scope := .onInner (repo.historyIn scope)
  recordAt key origin := .onInner (repo.recordAt key origin)
  firstInvalidatedBlocks scope := .onInner (repo.firstInvalidatedBlocks scope)
  applyRollback plan := .noting (plan.checkpoints.map (·.chain)) (repo.applyRollback plan)
  prune chain minBlock := .onInner (repo.prune chain minBlock)

theorem Repo.Backed.recording {repo : Repo σ} {memory : Repo ν} {view : σ → ν}
    (h : repo.Backed memory view) :
    repo.recording.Backed memory.recording (Recorded.seenBy view) where
  migrate := Call.onInner_backs h.migrate
  reset := Call.onInner_backs h.reset
  resetCount := Call.onInner_reads h.resetCount
  countReset := Call.onInner_backs h.countReset
  commit unit := Call.noting_backs (h.commit unit) _
  entity key := Call.onInner_reads (h.entity key)
  checkpoints := Call.onInner_reads h.checkpoints
  registrations := Call.onInner_reads h.registrations
  recentBlocks chain limit := Call.onInner_reads (h.recentBlocks chain limit)
  latestOrigins keys := Call.onInner_reads (h.latestOrigins keys)
  historyIn scope := Call.onInner_reads (h.historyIn scope)
  recordAt key origin := Call.onInner_reads (h.recordAt key origin)
  firstInvalidatedBlocks scope := Call.onInner_reads (h.firstInvalidatedBlocks scope)
  applyRollback plan := Call.noting_backs (h.applyRollback plan) _
  prune chain minBlock := Call.onInner_backs (h.prune chain minBlock)

/-! ### Booting -/

theorem countResets_recording (repo : Repo σ) (times : Nat) :
    countResets repo.recording times = .onInner (countResets repo times) := by
  induction times with
  | zero => rfl
  | succ times ih =>
    rw [countResets, countResets, ih, Call.onInner_bind]
    rfl

theorem resetIfAsked_recording (repo : Repo σ) (asked : Nat) :
    resetIfAsked repo.recording asked = .onInner (resetIfAsked repo asked) := by
  rw [resetIfAsked, resetIfAsked, Call.onInner_bind]
  refine congrArg (repo.recording.resetCount >>= ·) (funext fun made => ?_)
  split
  next => rw [countResets_recording, Call.onInner_bind]; rfl
  next => rfl

/-- Booting writes no checkpoint. -/
theorem boot_recording (repo : Repo σ) (config : Config) (state : Recorded σ) :
    boot repo.recording config state =
      ((boot repo config state.inner).1, ⟨(boot repo config state.inner).2, state.written⟩) := by
  have hread : bootRepo repo.recording config = .onInner (bootRepo repo config) := by
    rw [bootRepo, bootRepo, resetIfAsked_recording]
    simp only [Call.onInner_bind, Call.onInner_pure]
    rfl
  rw [boot, boot, hread]
  cases config.validate with
  | error error => rfl
  | ok value =>
    dsimp only
    rw [Call.onInner]
    cases bootRepo repo config state.inner with
    | mk result after =>
      cases result with
      | ok booted => rfl
      | error error => rfl

/-! ### Leaving the note out -/

namespace Call

variable {ρ : Type} {view : ρ → σ}

/-- Whether a call answers and changes a state as another one does with what is seen of it. -/
def Mimics (view : ρ → σ) (call : Call ρ ε α) (seen : Call σ ε α) (state : ρ) : Prop :=
  seen (view state) = ((call state).1, view (call state).2)

variable {call : Call ρ ε α} {seen : Call σ ε α} {state : ρ}

theorem Mimics.pure (view : ρ → σ) (value : α) (state : ρ) :
    (pure value : Call ρ ε α).Mimics view (pure value) state := rfl

theorem Mimics.throw (view : ρ → σ) (error : ε) (state : ρ) :
    (throw error : Call ρ ε α).Mimics view (throw error) state := rfl

theorem Mimics.bind {next : α → Call ρ ε β} {seenNext : α → Call σ ε β}
    (h : call.Mimics view seen state)
    (hnext : ∀ value after, (next value).Mimics view (seenNext value) after) :
    (call >>= next).Mimics view (seen >>= seenNext) state := by
  rw [Mimics, bind_apply, bind_apply, h]
  cases call state with
  | mk result after =>
    cases result with
    | ok value => exact hnext value after
    | error error => rfl

theorem Mimics.get {next : ρ → Call ρ ε α} {seenNext : σ → Call σ ε α}
    (h : (next state).Mimics view (seenNext (view state)) state) :
    (get >>= next).Mimics view (get >>= seenNext) state := h

theorem Mimics.set {next : Call ρ ε α} {seenNext : Call σ ε α} {after : ρ}
    (h : next.Mimics view seenNext after) :
    (set after >>= fun _ : PUnit => next).Mimics view
      (set (view after) >>= fun _ : PUnit => seenNext) state := h

theorem Mimics.mapM {items : List β} {call : β → Call ρ ε α} {seen : β → Call σ ε α}
    (h : ∀ item state, (call item).Mimics view (seen item) state) (state : ρ) :
    (items.mapM call).Mimics view (items.mapM seen) state := by
  induction items generalizing state with
  | nil => rfl
  | cons first rest ih =>
    rw [List.mapM_cons, List.mapM_cons]
    exact (h first state).bind fun value after =>
      (ih after).bind fun values last => .pure view (value :: values) last

theorem onInner_mimics (call : Call σ ε α) (state : Recorded σ) :
    (onInner call).Mimics Recorded.inner call state := rfl

theorem noting_mimics (chains : List ChainId) (call : Call σ ε Unit) (state : Recorded σ) :
    (noting chains call).Mimics Recorded.inner call state := by
  rw [Mimics, noting]
  cases call state.inner with
  | mk result after =>
    cases result with
    | ok value => rfl
    | error error => rfl

end Call

variable {repo : Repo σ}

theorem RollbackPlan.make_mimics (mode : Mode) (reorg : Reorg) (tracker : Tracker)
    (state : Recorded σ) :
    (make repo.recording mode reorg tracker).Mimics Recorded.inner (make repo mode reorg tracker)
      state := by
  refine (Call.onInner_mimics _ state).bind fun records between => ?_
  refine (Call.Mimics.mapM (fun entry state => ?_) between).bind fun restores after => ?_
  · rw [restore, restore]
    split
    next => exact .pure ..
    next =>
      refine (Call.onInner_mimics _ state).bind fun found last => ?_
      cases found with
      | none => exact .throw ..
      | some previous => exact .pure ..
  · refine Call.Mimics.bind ?_ fun rewinds last => .pure ..
    unfold rewindsFor
    cases RollbackScope.ofReorg mode reorg with
    | chain reorged safeBlock => exact .pure ..
    | global reorged safeBlock safeTimestamp =>
      exact (Call.onInner_mimics _ after).bind fun first last => .pure ..

theorem RetryPolicy.runFrom_mimics {ρ : Type} (view : ρ → σ) {policy : RetryPolicy}
    {attempt : ρ → Attempt ε α × ρ} {seen : σ → Attempt ε α × σ} {recover : Nat → ρ → ρ}
    {seenRecover : Nat → σ → σ}
    (hattempt : ∀ state, seen (view state) = ((attempt state).1, view (attempt state).2))
    (hrecover : ∀ millis state, seenRecover millis (view state) = view (recover millis state))
    (left retries : Nat) (state : ρ) :
    policy.runFrom seen seenRecover left retries (view state) =
      ((policy.runFrom attempt recover left retries state).1,
        view (policy.runFrom attempt recover left retries state).2) := by
  induction left generalizing retries state with
  | zero =>
    unfold runFrom
    rw [hattempt]
    cases attempt state with
    | mk result after => cases result <;> rfl
  | succ left ih =>
    unfold runFrom
    rw [hattempt]
    cases attempt state with
    | mk result after =>
      cases result with
      | done value => rfl
      | fatal error => rfl
      | failed error =>
        dsimp only
        rw [hrecover]
        exact ih _ _

/-- What is left of a write without the note. -/
def WriteOutcome.forget (outcome : WriteOutcome (Recorded σ)) : WriteOutcome σ :=
  { outcome with repo := outcome.repo.inner }

theorem RetryPolicy.write_mimics {call : Call (Recorded σ) RepoError Unit}
    {seen : Call σ RepoError Unit} (h : ∀ state, call.Mimics Recorded.inner seen state)
    (policy : RetryPolicy) (state : Recorded σ) :
    policy.write seen state.inner = (policy.write call state).forget := by
  unfold write RetryPolicy.run
  dsimp only
  generalize hseen : runFrom policy _ _ _ _ (state.inner, 0) = left
  generalize hcalled : runFrom policy _ _ _ _ (state, 0) = outcome
  have hleft : left = (outcome.1, (outcome.2.1.inner, outcome.2.2)) := by
    rw [← hseen, ← hcalled]
    refine runFrom_mimics (fun now : Recorded σ × Nat => (now.1.inner, now.2)) (fun now => ?_)
      (fun _ _ => rfl) _ _ (state, 0)
    have hcall : seen now.1.inner = _ := h now.1
    rw [hcall]
    cases call now.1 with
    | mk result after =>
      cases result with
      | ok value => rfl
      | error error => rfl
  rw [hleft]
  obtain ⟨result, after⟩ := outcome
  cases result with
  | done value => rfl
  | fatal error => rfl
  | exhausted attempts error => rfl

theorem Loader.run_recording (loader : Loader α) (loaded : LoadedEntities) (state : Recorded σ) :
    loader.run repo loaded state.inner =
      ((loader.run repo.recording loaded state).1, (loader.run repo.recording loaded state).2.1,
        (loader.run repo.recording loaded state).2.2.inner) := by
  induction loader generalizing loaded state with
  | done value => rfl
  | fail error => rfl
  | load key next ih =>
    rw [run, run]
    cases loaded.get? key with
    | some fields => exact ih _ _ _
    | none =>
      have hread : (repo.recording.entity key).Mimics Recorded.inner (repo.entity key) state :=
        Call.onInner_mimics _ _
      rw [Call.Mimics] at hread
      dsimp only
      rw [hread]
      cases repo.recording.entity key state with
      | mk result after =>
        cases result with
        | ok fields => exact ih _ _ after
        | error error => exact ih _ _ after

theorem runLoaders_mimics (handlers : HandlerTable) (events : List Event) (loaded : LoadedEntities)
    (state : Recorded σ) :
    runLoaders repo handlers events loaded state.inner =
      ((runLoaders repo.recording handlers events loaded state).1,
        (runLoaders repo.recording handlers events loaded state).2.inner) := by
  induction events generalizing loaded state with
  | nil => rfl
  | cons event rest ih =>
    rw [runLoaders, runLoaders]
    cases handlers.forEvent? event with
    | none => exact ih loaded state
    | some handler =>
      dsimp only
      rw [Loader.run_recording]
      obtain ⟨result, more, after⟩ := (handler.load event).run repo.recording loaded state
      cases result with
      | ok value => exact ih more after
      | error error => rfl

/-- What is left of processing without the note. -/
def Processing.forget (processing : Processing (Recorded σ)) : Processing σ :=
  { processing with repo := processing.repo.inner }

theorem processEvents_recording (handlers : HandlerTable) (registry : Registry)
    (events : List Event) (state : Recorded σ) :
    processEvents repo handlers registry events state.inner =
      (processEvents repo.recording handlers registry events state).forget := by
  rw [processEvents, processEvents, runLoaders_mimics]
  obtain ⟨loading, loadedState⟩ := runLoaders repo.recording handlers events .empty state
  cases loading with
  | error error => rfl
  | ok loaded =>
    dsimp only
    obtain ⟨handled, failure⟩ := runHandlers handlers loaded events (.start registry)
    cases failure with
    | some error => rfl
    | none =>
      dsimp only
      by_cases hempty : handled.writes.isEmpty = true
      · rw [if_pos hempty, if_pos hempty]
        rfl
      · rw [if_neg hempty, if_neg hempty]
        generalize (handled.writes.map (·.1.key)).eraseDups = keys
        have hlatest : (repo.recording.latestOrigins keys).Mimics Recorded.inner
            (repo.latestOrigins keys) loadedState := Call.onInner_mimics _ _
        rw [Call.Mimics] at hlatest
        rw [hlatest]
        cases repo.recording.latestOrigins keys loadedState with
        | mk result after =>
          cases result with
          | ok latest => rfl
          | error error => rfl

/-! ### Pipelines -/

/-- A pipeline over a store without the note. -/
def Pipeline.forget (pipeline : Pipeline (Recorded σ)) : Pipeline σ :=
  { pipeline with repo := pipeline.repo.inner }

def PipelineContext.recording (context : PipelineContext σ) : PipelineContext (Recorded σ) :=
  { context with repo := context.repo.recording }

@[simp]
theorem PipelineContext.recording_config (context : PipelineContext σ) :
    context.recording.config = context.config := rfl

@[simp]
theorem PipelineContext.recording_now (context : PipelineContext σ) :
    context.recording.now = context.now := rfl

namespace Pipeline

@[simp]
theorem forget_tracker (pipeline : Pipeline (Recorded σ)) :
    pipeline.forget.tracker = pipeline.tracker := rfl

@[simp]
theorem forget_orderer (pipeline : Pipeline (Recorded σ)) :
    pipeline.forget.orderer = pipeline.orderer := rfl

@[simp]
theorem forget_generations (pipeline : Pipeline (Recorded σ)) :
    pipeline.forget.generations = pipeline.generations := rfl

@[simp]
theorem forget_schedule (pipeline : Pipeline (Recorded σ)) :
    pipeline.forget.schedule = pipeline.schedule := rfl

variable {context : PipelineContext σ} {pipeline : Pipeline (Recorded σ)}

/-- Whether a step does without the note what it does with it. -/
abbrev Forgets (action : Action (Recorded σ) α) (seen : Action σ α)
    (pipeline : Pipeline (Recorded σ)) : Prop :=
  Call.Mimics forget action seen pipeline

theorem onRepo_forgets {call : Call (Recorded σ) RepoError α} {seen : Call σ RepoError α}
    (h : ∀ state, call.Mimics Recorded.inner seen state) (wrap : RepoError → IndexingError)
    (pipeline : Pipeline (Recorded σ)) :
    Forgets (onRepo call wrap) (onRepo seen wrap) pipeline := by
  have hcall : seen pipeline.forget.repo = _ := h pipeline.repo
  rw [Forgets, Call.Mimics, onRepo, onRepo, hcall]
  cases call pipeline.repo with
  | mk result after =>
    cases result with
    | ok value => rfl
    | error error => rfl

theorem write_forgets {call : Call (Recorded σ) RepoError Unit} {seen : Call σ RepoError Unit}
    (h : ∀ state, call.Mimics Recorded.inner seen state) (pipeline : Pipeline (Recorded σ)) :
    Forgets (write context.recording call) (write context seen) pipeline := by
  have hwrite : context.config.writeRetries.write seen pipeline.forget.repo = _ :=
    RetryPolicy.write_mimics h context.config.writeRetries pipeline.repo
  rw [Forgets, Call.Mimics, write, write, hwrite]
  rfl

theorem modify_forgets {change : Pipeline (Recorded σ) → Pipeline (Recorded σ)}
    {seen : Pipeline σ → Pipeline σ} (h : seen pipeline.forget = (change pipeline).forget) :
    Forgets (modify change) (modify seen) pipeline := by
  change (_, seen pipeline.forget) = _
  rw [h]
  rfl

theorem startFetcher_forgets (chain : ChainId) (pipeline : Pipeline (Recorded σ)) :
    Forgets (startFetcher context.recording chain) (startFetcher context chain) pipeline := by
  rw [startFetcher, startFetcher]
  refine .get ?_
  rw [forget_tracker, PipelineContext.recording_config]
  cases context.config.chains.find? (·.id = chain) with
  | none => rfl
  | some found =>
    cases pipeline.tracker.get? chain with
    | none => rfl
    | some checkpoint =>
      refine (modify_forgets rfl).bind fun _ aborted => ?_
      refine (onRepo_forgets (Call.onInner_mimics _) _ aborted).bind fun recent read => ?_
      exact modify_forgets rfl

theorem startFetchers_forgets (chains : List ChainId) (pipeline : Pipeline (Recorded σ)) :
    Forgets (startFetchers context.recording chains) (startFetchers context chains) pipeline := by
  induction chains generalizing pipeline with
  | nil => rfl
  | cons chain rest ih => exact (startFetcher_forgets chain pipeline).bind fun _ after => ih after

theorem failChain_forgets (chain : ChainId) (error : IndexingError)
    (pipeline : Pipeline (Recorded σ)) :
    Forgets (failChain context.recording chain error) (failChain context chain error) pipeline := by
  rw [failChain, failChain, PipelineContext.recording_config]
  cases context.config.mode with
  | ordered => rfl
  | unordered => exact modify_forgets rfl

theorem pruneDue_forgets (config : PruningConfig) (chains : List ChainId)
    (pipeline : Pipeline (Recorded σ)) :
    Forgets (pruneDue context.recording config chains) (pruneDue context config chains)
      pipeline := by
  induction chains generalizing pipeline with
  | nil => rfl
  | cons chain rest ih =>
    rw [pruneDue, pruneDue]
    refine .get ?_
    rw [forget_tracker, forget_schedule, PipelineContext.recording_now]
    cases pipeline.tracker.processed chain with
    | none => exact ih pipeline
    | some processed =>
      dsimp only
      by_cases hdue : pipeline.schedule.isDue config chain context.now = true
      · rw [if_pos hdue, if_pos hdue]
        refine (onRepo_forgets (Call.onInner_mimics _) _ pipeline).bind fun _ pruned => ?_
        exact (modify_forgets rfl).bind fun _ after => ih after
      · rw [if_neg hdue, if_neg hdue]
        exact ih pipeline

theorem takeProgress_forgets (committed rest : List Event) (pipeline : Pipeline (Recorded σ)) :
    Forgets (takeProgress committed rest) (takeProgress committed rest) pipeline := by
  rfl

theorem commitProcessed_forgets (events : List Event) (processed : ProcessedUnit)
    (pipeline : Pipeline (Recorded σ)) :
    Forgets (commitProcessed context.recording events processed)
      (commitProcessed context events processed) pipeline := by
  unfold commitProcessed
  refine (takeProgress_forgets _ _ pipeline).bind fun (progress, blocks) reported => ?_
  refine .get ?_
  rw [forget_tracker, PipelineContext.recording_now, PipelineContext.recording_config]
  generalize (if processed.registrations.isEmpty = true then none
    else (events.take processed.applied).getLast?) = registering
  dsimp only
  generalize progress.map _ = progress
  generalize ({ rawEvents := _, changes := _, history := _, registrations := _, checkpoints := _,
                blocks := _ } : WriteUnit) = unit
  have hprune : ∀ started : Pipeline (Recorded σ), Forgets
      (pruneIfAsked context.recording (progress.map (·.chain)))
      (pruneIfAsked context (progress.map (·.chain))) started := by
    intro started
    rw [pruneIfAsked, pruneIfAsked, PipelineContext.recording_config]
    cases context.config.pruning with
    | none => rfl
    | some config => exact pruneDue_forgets config _ started
  by_cases hempty : unit.isEmpty = true
  · rw [if_pos hempty, if_pos hempty]
    rfl
  · rw [if_neg hempty, if_neg hempty]
    refine (write_forgets (Call.noting_mimics _ _) reported).bind fun _ written => ?_
    refine (modify_forgets rfl).bind fun _ noted => ?_
    cases registering with
    | none => exact hprune noted
    | some event =>
      exact (startFetcher_forgets event.chain noted).bind fun _ started => hprune started

theorem handleUnit_forgets (events : List Event) (pipeline : Pipeline (Recorded σ)) :
    Forgets (handleUnit context.recording events) (handleUnit context events) pipeline := by
  rw [handleUnit, handleUnit]
  refine .get ?_
  have hprocess : processEvents context.repo context.handlers pipeline.forget.registry events
      pipeline.forget.repo = (processEvents context.recording.repo context.recording.handlers
        pipeline.registry events pipeline.repo).forget := processEvents_recording ..
  rw [hprocess]
  generalize processEvents context.recording.repo _ _ _ _ = processing
  obtain ⟨result, registry, notes, repo⟩ := processing
  refine .set ?_
  cases result with
  | ok processed => exact commitProcessed_forgets events processed _
  | error error =>
    cases error with
    | repo error => rfl
    | handler event error => exact failChain_forgets ..

theorem handleReorg_forgets (reorg : Reorg) (pipeline : Pipeline (Recorded σ)) :
    Forgets (handleReorg context.recording reorg) (handleReorg context reorg) pipeline := by
  rw [handleReorg, handleReorg]
  refine .get ?_
  rw [forget_tracker, PipelineContext.recording_config]
  refine (onRepo_forgets (RollbackPlan.make_mimics _ _ _) _ pipeline).bind fun plan planned => ?_
  refine (write_forgets (Call.noting_mimics _ _) planned).bind fun _ written => ?_
  refine (modify_forgets rfl).bind fun _ moved => ?_
  refine (onRepo_forgets (Call.onInner_mimics _) _ moved).bind fun registrations read => ?_
  refine (modify_forgets rfl).bind fun _ reloaded => ?_
  refine .get ?_
  exact startFetchers_forgets _ reloaded

theorem handleFailure_forgets (failure : ChainFailure) (pipeline : Pipeline (Recorded σ)) :
    Forgets (handleFailure context.recording failure) (handleFailure context failure)
      pipeline := by
  rw [handleFailure, handleFailure]
  refine .get ?_
  rw [forget_generations]
  split
  next => exact failChain_forgets _ _ pipeline
  next => rfl

/-- A step of a pipeline is that of one which takes notes, with the notes left out. -/
theorem advance_forgets (pipeline : Pipeline (Recorded σ)) :
    Forgets (advance context.recording) (advance context) pipeline := by
  rw [advance, advance]
  refine .get ?_
  rw [forget_orderer]
  by_cases hstop : pipeline.orderer.stopRequested = true
  · rw [if_pos hstop, if_pos hstop]
    rfl
  · rw [if_neg hstop, if_neg hstop]
    obtain ⟨step, orderer⟩ := pipeline.orderer.nextStep
    refine .set ?_
    cases step with
    | unit events =>
      exact (handleUnit_forgets events _).bind fun _ after => .pure forget _ after
    | reorg reorg =>
      exact (handleReorg_forgets reorg _).bind fun _ after => .pure forget _ after
    | failure failure =>
      exact (handleFailure_forgets failure _).bind fun _ after => .pure forget _ after
    | stopped => rfl
    | finished => rfl
    | blocked awaited => rfl

theorem goOn_forgets (awaited : Option (List ChainId)) (pipeline : Pipeline (Recorded σ)) :
    Forgets (goOn context.recording awaited) (goOn context awaited) pipeline := by
  cases awaited with
  | none => exact advance_forgets pipeline
  | some chains =>
    rw [goOn, goOn, resume, resume]
    refine .get ?_
    rw [forget_orderer]
    cases pipeline.orderer.wait chains with
    | none => rfl
    | some woken =>
      obtain ⟨wake, orderer⟩ := woken
      cases wake with
      | item => exact .set (advance_forgets _)
      | failure failure =>
        exact .set ((handleFailure_forgets failure _).bind fun _ after => .pure forget _ after)
      | stopped => rfl

end Pipeline

/-! ### Runs -/

/-- An indexer over a store without the note. -/
def Indexer.forget (indexer : Indexer τ (Recorded σ)) : Indexer τ σ :=
  { indexer with pipeline := indexer.pipeline.forget }

/-- An indexer that takes notes of what it writes. -/
def IndexerContext.recording (context : IndexerContext τ σ) : IndexerContext τ (Recorded σ) :=
  { context with repo := context.repo.recording }

namespace Indexer

variable {context : IndexerContext τ σ} {sources : Table ChainId τ} {state : σ}
  {first indexer after : Indexer τ σ}

theorem takeRound_forget (indexer : Indexer τ (Recorded σ)) (id : ChainId) (task : FetcherTask)
    (source : τ) :
    indexer.forget.takeRound context id task source =
      (indexer.takeRound context.recording id task source).forget := by
  have hround : indexer.forget.round context id task source =
      indexer.round context.recording id task source := rfl
  rw [takeRound, takeRound, hround]
  cases indexer.round context.recording id task source with
  | mk result fetched =>
    cases result with
    | ok value => rfl
    | error error => rfl

theorem runTask_forget (indexer : Indexer τ (Recorded σ)) (id : ChainId) :
    indexer.forget.runTask context id = (indexer.runTask context.recording id).forget := by
  have htask : indexer.forget.pipeline.tasks.get? id = indexer.pipeline.tasks.get? id := rfl
  have hsource : indexer.forget.sources.get? id = indexer.sources.get? id := rfl
  rw [runTask, runTask, htask, hsource]
  cases indexer.pipeline.tasks.get? id with
  | none => rfl
  | some task =>
    dsimp only
    cases task.phase with
    | ended => rfl
    | send item => cases item <;> rfl
    | take =>
      cases indexer.sources.get? id with
      | none => rfl
      | some source => exact takeRound_forget indexer id task source
    | fetch =>
      cases indexer.sources.get? id with
      | none => rfl
      | some source =>
        have hround : indexer.forget.round context id task source =
            indexer.round context.recording id task source := rfl
        have hwaited : context.recording.waited = context.waited := rfl
        dsimp only
        rw [startRound, startRound, hround, hwaited]
        dsimp only
        generalize (indexer.round context.recording id task source).2.paused + _ = pause
        cases pause with
        | zero => exact takeRound_forget indexer id task source
        | succ millis => rfl

theorem start_forget (context : IndexerContext τ σ) (sources : Table ChainId τ)
    (state : Recorded σ) :
    start context sources state.inner = ((start context.recording sources state).1,
      (start context.recording sources state).2.forget) := by
  have hboot : boot context.recording.repo context.recording.config state =
    ((boot context.repo context.config state.inner).1,
      ⟨(boot context.repo context.config state.inner).2, state.written⟩) := boot_recording ..
  rw [start, start, hboot]
  cases boot context.repo context.config state.inner with
  | mk result after =>
    cases result with
    | error error => rfl
    | ok booted =>
      have hfetchers : Pipeline.startFetchers
          (pipelineContext context ⟨.ofBooted context.config booted after, sources, 0, none⟩)
          ((context.config.chains.map (·.id)).mergeSort)
          (.ofBooted context.config booted after) = _ :=
        Pipeline.startFetchers_forgets _ (.ofBooted context.config booted ⟨after, state.written⟩)
      dsimp only
      rw [hfetchers]
      rfl

/-- What happens in a run may happen with notes. -/
theorem Moves.exists_recorded {recorded : Indexer τ (Recorded σ)}
    (h : Moves context recorded.forget after) :
    ∃ next, Moves context.recording recorded next ∧ next.forget = after := by
  cases h with
  | @advance now status pipeline awaited hadvance =>
    have hforgets : Pipeline.goOn { recorded.forget.pipelineContext context with now := now }
        awaited recorded.forget.pipeline = _ := Pipeline.goOn_forgets awaited recorded.pipeline
    obtain ⟨hstatus, hpipeline⟩ := Prod.mk.inj (hadvance.symm.trans hforgets)
    have hrecorded : Pipeline.goOn { recorded.pipelineContext context.recording with now := now }
        awaited recorded.pipeline = (.ok status, _) := Prod.ext hstatus.symm rfl
    refine ⟨_, .advance awaited hrecorded, ?_⟩
    rw [hpipeline]
    rfl
  | fetch id => exact ⟨_, .fetch id, (runTask_forget recorded id).symm⟩
  | report failure => exact ⟨_, .report failure, rfl⟩
  | wait sources clock awaited => exact ⟨_, .wait sources clock awaited, rfl⟩
  | stop => exact ⟨_, .stop, rfl⟩

/-- Whether some chains are those whose checkpoints a run has written since it started. -/
def Writes (context : IndexerContext τ σ) (sources : Table ChainId τ) (state : σ)
    (indexer : Indexer τ σ) (written : List ChainId) : Prop :=
  ∃ first recorded, start context.recording sources ⟨state, []⟩ = (.ok (), first) ∧
    Continues context.recording first recorded ∧ recorded.forget = indexer ∧
    recorded.pipeline.repo.written = written

theorem Continues.exists_writes (hstart : start context sources state = (.ok (), first))
    (h : Continues context first indexer) :
    ∃ written, Writes context sources state indexer written := by
  suffices hrecorded : ∃ started recorded,
      start context.recording sources ⟨state, []⟩ = (.ok (), started) ∧
        Continues context.recording started recorded ∧ recorded.forget = indexer by
    obtain ⟨started, recorded, hstarted, hrun, hforget⟩ := hrecorded
    exact ⟨_, started, recorded, hstarted, hrun, hforget, rfl⟩
  induction h with
  | refl =>
    have hforget := start_forget context sources ⟨state, []⟩
    rw [hstart] at hforget
    obtain ⟨hresult, hfirst⟩ := Prod.mk.inj hforget
    exact ⟨_, _, Prod.ext hresult.symm rfl, .refl, hfirst.symm⟩
  | tail _ hmove ih =>
    obtain ⟨started, recorded, hstarted, hrun, rfl⟩ := ih
    obtain ⟨next, hnext, rfl⟩ := hmove.exists_recorded
    exact ⟨started, next, hstarted, hrun.tail hnext, rfl⟩

end Indexer

end ChainIndexer
