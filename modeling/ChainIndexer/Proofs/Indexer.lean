import ChainIndexer.Indexer
import ChainIndexer.Proofs.Pipeline.Boot

/-!
# Steps of fetchers

A step of a fetcher touches its own chain only, and moves what is left of it towards the pipeline.
What the pipeline and the fetchers keep at each of their steps holds however the indexer lets them
take turns.
-/

namespace ChainIndexer

/-- A round keeps what a lane and its fetcher bring, whatever it gives. -/
theorem Lane.Serves.afterRound {τ : Type} {context : FetchContext τ} {lane : Lane}
    {task : FetcherTask} {chain : ChainId} {logs : (chain : ChainId) → ChainLog chain}
    {registry : Registry} {covers : Position → Bool} {taken : List Event} {source : τ}
    {state : FetchState τ} {result : Except FetchError Fetched}
    (h : lane.Serves task (logs chain) covers ((logs chain).events.filter fun event =>
      registry.wants context.handlers event && !covers event.position) taken)
    (hidle : task.sending = []) (hkeyed : registry.Keyed)
    (hwatched : context.watched = registry.watchedOn chain) (hhonest : context.source.Honest logs)
    (hround : Fetcher.fetchNext context ⟨task.fetcher, source, 0⟩ = (result, state))
    (clock : Nat) :
    lane.Serves ({ task with fetcher := state.fetcher }.afterRound clock result) (logs chain) covers
      ((logs chain).events.filter fun event =>
        registry.wants context.handlers event && !covers event.position) taken := by
  have hspec := Fetcher.fetchNext_spec h.positive hround
  have hanswered : ∀ page, Fetcher.Answered context task.fetcher page →
      page.Honest (logs chain) context.watched task.fetcher.nextBlock := by
    intro page hpage
    have hsource := hpage.honest hhonest
    rwa [h.fetcherChain] at hsource
  cases result with
  | error error => exact h.of_stays hspec hidle.symm
  | ok fetched =>
    cases fetched with
    | batch batch =>
      obtain ⟨page, hpage, hmoves⟩ := hspec
      exact h.fetch hidle hmoves hkeyed hwatched (hanswered page hpage) rfl
    | reorg reorg =>
      -- The chain is never forked, so what is on record is what the page follows on.
      obtain ⟨page, hpage, hfork⟩ := hspec
      rw [Fetcher.followsRecorded_of_follows h.follows.window (hanswered page hpage).first] at hfork
      cases hfork
    | atHead => exact h.of_stays hspec hidle.symm
    | finished => exact h.finish hidle hspec rfl

namespace Pipeline

variable {pipeline : Pipeline Store} {config : Config} {handlers : HandlerTable}
  {logs : (chain : ChainId) → ChainLog chain} {orderer : Orderer}
  {tasks : Table ChainId FetcherTask}

/-- A change at one chain keeps a pipeline steady if the lane and the fetcher of the chain still
bring the same. -/
theorem Steady.changeAt (h : pipeline.Steady config handlers logs) (id : ChainId) (f : Lane → Lane)
    (hmode : orderer.mode = pipeline.orderer.mode)
    (hlanes : ∀ other, orderer.lanes.get? other =
      if other = id then (pipeline.orderer.lanes.get? id).map f
      else pipeline.orderer.lanes.get? other)
    (htasks : ∀ other, other ≠ id → tasks.get? other = pipeline.tasks.get? other)
    (hchain : ∀ lane, (f lane).chain = lane.chain)
    (hserves : ∀ chain ∈ config.chains, chain.id = id → ∀ lane task,
      pipeline.tasks.get? chain.id = some task →
      lane.Serves task (logs chain.id) (pipeline.repo.checkpointOf chain).covers
        (pipeline.left handlers logs chain) [] →
      ∃ after, tasks.get? chain.id = some after ∧
        (f lane).Serves after (logs chain.id) (pipeline.repo.checkpointOf chain).covers
          (pipeline.left handlers logs chain) []) :
    { pipeline with orderer := orderer, tasks := tasks }.Steady config handlers logs := by
  refine ⟨h.sound.of_lanes rfl rfl rfl hmode fun _ _ hget =>
    Lane.exists_of_changed hlanes hchain hget, fun chain hmem => ?_⟩
  have hbefore := h.serves chain hmem
  rw [Serves] at hbefore ⊢
  dsimp only
  rw [hlanes]
  by_cases hsame : chain.id = id
  · rw [if_pos hsame, ← hsame]
    cases hlane : pipeline.orderer.lanes.get? chain.id with
    | none => rfl
    | some lane =>
      rw [hlane] at hbefore
      obtain ⟨task, htask, hbrings⟩ := hbefore
      exact hserves chain hmem hsame lane task htask hbrings
  · rw [if_neg hsame, htasks chain.id hsame]
    exact hbefore

end Pipeline

namespace Indexer

variable {τ : Type} {context : IndexerContext τ Store} {indexer : Indexer τ Store}
  {config : Config} {handlers : HandlerTable} {logs : (chain : ChainId) → ChainLog chain}
  {id : ChainId} {task after : FetcherTask} {source : τ}

theorem mem_sorted_ids {config : Config} {id : ChainId} :
    id ∈ (config.chains.map (·.id)).mergeSort ↔ ∃ chain ∈ config.chains, chain.id = id := by
  rw [List.mem_mergeSort, List.mem_map]

/-- An indexer starts by booting, and then starts the fetchers of configured chains. -/
theorem start_eq_ok {σ : Type} {context : IndexerContext τ σ} {indexer : Indexer τ σ} {store : σ}
    {sources : Table ChainId τ}
    (hstart : start context sources store = (.ok (), indexer)) :
    ∃ booted repo, boot context.repo context.config store = (.ok booted, repo) ∧
      Pipeline.startFetchers
        (pipelineContext context ⟨.ofBooted context.config booted repo, sources, 0, none⟩)
        ((context.config.chains.map (·.id)).mergeSort)
        (.ofBooted context.config booted repo) = (.ok (), indexer.pipeline) := by
  rw [start] at hstart
  cases hboot : boot context.repo context.config store with
  | mk result repo =>
    rw [hboot] at hstart
    cases result with
    | error error => cases hstart
    | ok booted =>
      dsimp only at hstart
      generalize hfetchers : Pipeline.startFetchers _ _ _ = outcome at hstart
      obtain ⟨result, pipeline⟩ := outcome
      cases hstart
      exact ⟨booted, repo, rfl, hfetchers⟩

/-- What a fetcher does next: nothing, a round, the wait until a round is over, or the handover of
an item. -/
inductive FetcherStep {σ : Type} (context : IndexerContext τ σ) (indexer : Indexer τ σ)
    (id : ChainId) : Indexer τ σ → Prop
  | idle : FetcherStep context indexer id indexer
  | round {task : FetcherTask} (source : τ) (htask : indexer.pipeline.tasks.get? id = some task)
      (hphase : task.phase = .fetch ∨ task.phase = .take) :
      FetcherStep context indexer id (indexer.takeRound context id task source)
  | pause {task : FetcherTask} (dueAt : Nat) (htask : indexer.pipeline.tasks.get? id = some task)
      (hphase : task.phase = .fetch) :
      FetcherStep context indexer id (indexer.changeTask id (task.goOn .take dueAt))
  | send {task : FetcherTask} {item : QueueItem}
      (htask : indexer.pipeline.tasks.get? id = some task) (hphase : task.phase = .send item) :
      FetcherStep context indexer id (indexer.send id task item)

theorem fetcherStep_of_runTask {σ : Type} {context : IndexerContext τ σ}
    {indexer after : Indexer τ σ} (hafter : indexer.runTask context id = after) :
    FetcherStep context indexer id after := by
  subst hafter
  rw [runTask]
  cases htask : indexer.pipeline.tasks.get? id with
  | none => exact .idle
  | some task =>
    dsimp only
    cases hphase : task.phase with
    | fetch =>
      cases indexer.sources.get? id with
      | none => exact .idle
      | some source =>
        dsimp only
        rw [startRound]
        dsimp only
        generalize (indexer.round context id task source).2.paused + _ = pause
        cases pause with
        | zero => exact .round source htask (Or.inl hphase)
        | succ millis => exact .pause _ htask hphase
    | take =>
      cases indexer.sources.get? id with
      | none => exact .idle
      | some source => exact .round source htask (Or.inr hphase)
    | send item => exact .send htask hphase
    | ended => exact .idle

section Fetchers

variable {σ : Type} {context : IndexerContext τ σ} {indexer : Indexer τ σ} {Q : Pipeline σ → Prop}
  (hclose : ∀ {indexer : Indexer τ σ}, Q indexer.pipeline → ∀ id, Q (indexer.closeLane id).pipeline)

include hclose in
/-- What a round leads to is kept if the round failed and this is reported, too. -/
theorem takeRound_induction {source : τ} {result : Except FetchError Fetched}
    {state : FetchState τ} (hround : indexer.round context id task source = (result, state))
    (hreport : ∀ {pipeline : Pipeline σ} (failures : List ChainFailure), Q pipeline →
      Q { pipeline with orderer := { pipeline.orderer with failures := failures } })
    (h : Q { indexer.pipeline with
      tasks := indexer.pipeline.tasks.insert id
        ({ task with fetcher := state.fetcher }.afterRound indexer.clock result) }) :
    Q (indexer.takeRound context id task source).pipeline := by
  rw [takeRound, hround]
  cases result with
  | ok fetched => exact h
  | error error =>
    have hreported :=
      hreport (indexer.pipeline.orderer.failures ++ [⟨id, task.generation, error⟩]) h
    exact hclose hreported id

include hclose in
/-- What a handover leads to is kept if the queue is closed behind the item, too. -/
theorem send_induction {item : QueueItem}
    (h : Q { indexer.pipeline with
      orderer := indexer.pipeline.orderer.changeLane id fun lane =>
        { lane with queue := lane.queue.push item }
      tasks := indexer.pipeline.tasks.insert id
        (task.goOn (FetcherTask.phaseAfter item) indexer.clock) }) :
    Q (indexer.send id task item).pipeline := by
  let sent : Indexer τ σ :=
    { indexer with
      pipeline :=
        { indexer.pipeline with
          orderer := indexer.pipeline.orderer.changeLane id fun lane =>
            { lane with queue := lane.queue.push item }
          tasks := indexer.pipeline.tasks.insert id
            (task.goOn (FetcherTask.phaseAfter item) indexer.clock) } }
  have hsent : Q sent.pipeline := h
  cases item with
  | batch batch => exact hsent
  | reorg reorg => exact hclose hsent id
  | finished => exact hclose hsent id

end Fetchers

theorem changeTask_steady (h : indexer.pipeline.Steady config handlers logs)
    (htask : indexer.pipeline.tasks.get? id = some task)
    (hserves : ∀ chain ∈ config.chains, chain.id = id → ∀ lane : Lane,
      lane.Serves task (logs chain.id) (indexer.pipeline.repo.checkpointOf chain).covers
        (indexer.pipeline.left handlers logs chain) [] →
      lane.Serves after (logs chain.id) (indexer.pipeline.repo.checkpointOf chain).covers
        (indexer.pipeline.left handlers logs chain) []) :
    (indexer.changeTask id after).pipeline.Steady config handlers logs := by
  refine h.changeAt id (fun lane => lane) rfl (fun other => ?_) (fun other hother => ?_)
    (fun _ => rfl) ?_
  · split
    next hsame => rw [hsame, Option.map_id']
    next => rfl
  · exact (Table.get?_insert ..).trans (if_neg hother)
  · intro chain hchain hid lane before hbefore hbrings
    subst hid
    rw [htask] at hbefore
    cases hbefore
    exact ⟨after, (Table.get?_insert ..).trans (if_pos rfl), hserves chain hchain rfl lane hbrings⟩

theorem closeLane_steady (h : indexer.pipeline.Steady config handlers logs) (id : ChainId) :
    (indexer.closeLane id).pipeline.Steady config handlers logs := by
  refine h.changeAt id (fun lane => { lane with queue := lane.queue.close }) rfl
    (fun other => Table.get?_modify ..) (fun _ _ => rfl) (fun _ => rfl) ?_
  intro chain _ _ lane task htask hbrings
  exact ⟨task, htask, hbrings.of_lane rfl rfl rfl rfl rfl fun _ hmem => hmem⟩

theorem takeRound_steady (h : indexer.pipeline.Steady context.config context.handlers logs)
    (hhonest : context.source.Honest logs) (htask : indexer.pipeline.tasks.get? id = some task)
    (hidle : task.sending = []) (source : τ) :
    (indexer.takeRound context id task source).pipeline.Steady context.config context.handlers
      logs := by
  cases hround : indexer.round context id task source with
  | mk result state =>
    refine takeRound_induction (Q := fun pipeline => pipeline.Steady context.config context.handlers
      logs) closeLane_steady hround (fun failures hkept => ?_) ?_
    · exact ⟨hkept.sound.of_lanes rfl rfl rfl rfl fun _ lane hlane => ⟨lane, hlane, rfl⟩,
        hkept.serves⟩
    · refine changeTask_steady h htask fun chain hchain hid lane hbrings => ?_
      subst hid
      exact hbrings.afterRound hidle (h.sound.reflects.keyed h.sound.store.registers) rfl hhonest
        hround _

theorem send_steady (h : indexer.pipeline.Steady config handlers logs)
    (htask : indexer.pipeline.tasks.get? id = some task) {item : QueueItem}
    (hphase : task.phase = .send item) :
    (indexer.send id task item).pipeline.Steady config handlers logs := by
  refine send_induction (Q := fun pipeline => pipeline.Steady config handlers logs)
    closeLane_steady ?_
  refine h.changeAt id (fun lane => { lane with queue := lane.queue.push item }) rfl
    (fun other => Table.get?_modify ..)
    (fun other hother => (Table.get?_insert ..).trans (if_neg hother)) (fun _ => rfl) ?_
  intro chain _ hid lane before hbefore hbrings
  subst hid
  rw [htask] at hbefore
  cases hbefore
  exact ⟨_, (Table.get?_insert ..).trans (if_pos rfl),
    hbrings.push (FetcherTask.sending_of_send hphase) rfl (task.sending_phaseAfter item _)⟩

/-- A step of a fetcher of an honest source keeps a pipeline steady. -/
theorem runTask_steady (h : indexer.pipeline.Steady context.config context.handlers logs)
    (hhonest : context.source.Honest logs) (id : ChainId) :
    (indexer.runTask context id).pipeline.Steady context.config context.handlers logs := by
  generalize hafter : indexer.runTask context id = after
  cases fetcherStep_of_runTask hafter with
  | idle => exact h
  | round source htask hphase =>
    exact takeRound_steady h hhonest htask (FetcherTask.sending_of_round hphase) source
  | pause dueAt htask hphase =>
    refine changeTask_steady h htask fun chain _ _ lane hbrings => ?_
    exact hbrings.of_stays (.refl _) (FetcherTask.sending_of_round (Or.inl hphase)).symm
  | send htask hphase => exact send_steady h htask hphase

/-! ### Runs with a schedule -/

section Schedule

variable {σ : Type} {context : IndexerContext τ σ} {indexer after : Indexer τ σ}
  {Q : Indexer τ σ → Prop}
  (hfetch : ∀ {indexer : Indexer τ σ}, Q indexer → ∀ id, Q (indexer.runTask context id))
  (hwait : ∀ {indexer : Indexer τ σ}, Q indexer → ∀ clock awaited,
    Q { indexer with clock := clock, awaited := awaited })
  (hadvance : ∀ {indexer : Indexer τ σ} {status : PipelineStatus} {pipeline : Pipeline σ},
    Q indexer → ∀ awaited,
    Pipeline.goOn (indexer.pipelineContext context) awaited indexer.pipeline =
      (.ok status, pipeline) →
    Q { indexer with pipeline := pipeline })

include hfetch in
theorem exhaustTask_induction (h : Q indexer) (id : ChainId) (fuel : Nat) :
    Q (exhaustTask context id fuel indexer) := by
  induction fuel generalizing indexer with
  | zero => exact h
  | succ fuel ih =>
    rw [exhaustTask]
    cases indexer.pipeline.tasks.get? id with
    | none => exact h
    | some task =>
      dsimp only
      split
      next => exact ih (hfetch h id)
      next => exact h

include hfetch hwait in
theorem runTasks_induction (h : Q indexer) : Q (indexer.runTasks context).2 := by
  rw [runTasks]
  split
  next => exact h
  next => exact hwait h _ _
  next due _ _ =>
    exact List.foldlRecOn _ _ h fun _ hkept id _ => exhaustTask_induction hfetch hkept id _

include hfetch hwait hadvance in
/-- A step that does not end in an error keeps what the pipeline and the fetchers keep. -/
theorem step_induction {phase : IndexerPhase} (h : Q indexer)
    (hstep : indexer.step context = (phase, after))
    (hphase : ∀ error, phase ≠ .ended (.error error)) : Q after := by
  rw [step] at hstep
  cases hresult : Pipeline.goOn (indexer.pipelineContext context) indexer.awaited
    indexer.pipeline with
  | mk result pipeline =>
    rw [hresult] at hstep
    cases result with
    | error error =>
      cases hstep
      exact absurd rfl (hphase error)
    | ok status =>
      have hadvanced : ∀ awaited, Q { indexer with pipeline := pipeline, awaited := awaited } :=
        hwait (hadvance h indexer.awaited hresult) indexer.clock
      cases status with
      | blocked awaited =>
        have hafter : (runTasks context
            { indexer with pipeline := pipeline, awaited := some awaited }).2 = after :=
          congrArg Prod.snd hstep
        rw [← hafter]
        exact runTasks_induction hfetch hwait (hadvanced _)
      | advanced =>
        cases hstep
        exact hadvanced none
      | stopped =>
        cases hstep
        exact hadvanced none
      | finished =>
        cases hstep
        exact hadvanced none

include hfetch hwait hadvance in
theorem runUntil_induction {holds : Indexer τ σ → Bool} {fuel : Nat} {phase : IndexerPhase}
    (h : Q indexer) (hrun : indexer.runUntil context holds fuel = (phase, after))
    (hphase : ∀ error, phase ≠ .ended (.error error)) : Q after := by
  induction fuel generalizing indexer with
  | zero =>
    cases hrun
    exact h
  | succ fuel ih =>
    rw [runUntil] at hrun
    cases hstep : indexer.step context with
    | mk stepped next =>
      rw [hstep] at hrun
      have hnext : (∀ error, stepped ≠ .ended (.error error)) → Q next :=
        step_induction hfetch hwait hadvance h hstep
      cases stepped with
      | running => exact ih (hnext nofun) hrun
      | waiting =>
        dsimp only at hrun
        split at hrun
        next =>
          cases hrun
          exact hnext nofun
        next => exact ih (hnext nofun) hrun
      | ended result =>
        cases hrun
        exact hnext hphase
      | stuck =>
        cases hrun
        exact hnext hphase

end Schedule

end Indexer

end ChainIndexer
