import ChainIndexer.Proofs.Fork.Commit
import ChainIndexer.Proofs.Fork.Rollback
import ChainIndexer.Proofs.Pipeline.Boot

/-!
# Pipelines over chains that may be forked

What a pipeline has stored of a chain and what is on its way along the lane of the chain hold
together, and the lane goes on where the store can be resumed.
-/

namespace ChainIndexer

/-- Whether a store can be resumed for every configured chain, and for some others, should they be
configured again. What it has of a configured chain holds together. -/
structure Store.Resumable (store : Store) (config : Config) (others : Set Chain)
    (testimony : (chain : ChainId) → Testimony chain) : Prop where
  keyed : ∀ chain checkpoint, store.checkpoints.get? chain = some checkpoint →
    checkpoint.chain = chain
  traces : ∀ chain ∈ config.chains, store.Traces chain
  told : ∀ chain ∈ config.chains,
    (testimony chain.id).Tells (store.eventsOf chain.id) (store.blocksOf chain.id)
  others : ∀ chain ∈ others, (∀ configured ∈ config.chains, configured.id ≠ chain.id) →
    store.Traces chain

theorem Store.Resumable.empty (config : Config) (others : Set Chain)
    (testimony : (chain : ChainId) → Testimony chain) (resetCount : Nat) :
    { Store.empty with resetCount := resetCount }.Resumable config others testimony where
  keyed := fun _ _ h => nomatch h
  traces := fun chain _ => .empty chain resetCount
  told := fun chain _ => (testimony chain.id).nil
  others := fun chain _ _ => .empty chain resetCount

/-! ### Lanes over a store -/

/-- Whether a lane goes on where a store can be resumed, and all that is on its way holds together
with what the store has. -/
structure Lane.Runs (lane : Lane) (task : FetcherTask) (store : Store) (chain : Chain)
    (testimony : Testimony chain.id) (taken : List Event) : Prop where
  traces : lane.Traces task chain (store.checkpointOf chain).openBlock (store.blocksOf chain.id)
    taken
  told : testimony.Tells (store.eventsOf chain.id ++ (taken ++ lane.ahead task))
    (store.blocksOf chain.id ++ lane.aheadBlocks task)
  vouched : ∀ reorg, lane.Announces (lane.incoming task) reorg → testimony.Vouches reorg.safeBlock

namespace Lane.Runs

variable {lane lane' : Lane} {task task' : FetcherTask} {store : Store} {chain : Chain}
  {testimony : Testimony chain.id} {taken taken' committed rest : List Event}

theorem of_traces (h : lane.Runs task store chain testimony taken)
    (htraces : lane'.Traces task' chain (store.checkpointOf chain).openBlock
      (store.blocksOf chain.id) taken')
    (hahead : taken' ++ lane'.ahead task' = taken ++ lane.ahead task)
    (hblocks : lane'.aheadBlocks task' = lane.aheadBlocks task)
    (hannounces : ∀ reorg, lane'.Announces (lane'.incoming task') reorg →
      lane.Announces (lane.incoming task) reorg) :
    lane'.Runs task' store chain testimony taken' := by
  refine ⟨htraces, ?_, fun reorg hannounced => h.vouched reorg (hannounces reorg hannounced)⟩
  rw [hahead, hblocks]
  exact h.told

theorem congr (h : lane.Runs task store chain testimony taken) (hchain : lane'.chain = lane.chain)
    (hpending : lane'.pending = lane.pending)
    (hfetched : lane'.fetchedThrough = lane.fetchedThrough)
    (hreorg : ∀ reorg, lane'.reorg = some reorg → lane.reorg = some reorg)
    (hunrecorded : lane'.unrecorded = lane.unrecorded)
    (hincoming : lane'.incoming task' = lane.incoming task)
    (hstays : task'.isFetching = true →
      task.isFetching = true ∧ task.fetcher.Stays task'.fetcher) :
    lane'.Runs task' store chain testimony taken := by
  obtain ⟨htraces, hahead, hblocks⟩ :=
    h.traces.congr hchain hpending hfetched hreorg hunrecorded hincoming hstays
  refine h.of_traces htraces (congrArg _ hahead) hblocks fun reorg hannounced => ?_
  rw [Announces, hincoming] at hannounced
  exact hannounced.imp_left (hreorg reorg)

theorem start (hstore : store.Traces chain)
    (htold : testimony.Tells (store.eventsOf chain.id) (store.blocksOf chain.id))
    {settings : FetchSettings} (hpositive : settings.batchSize.Positive)
    (hlimit : 1 ≤ settings.maxRecordedBlocks) {checkpoint : Checkpoint}
    (hagrees : checkpoint.AgreesWith (store.checkpointOf chain)) (depth generation clock : Nat) :
    (Lane.start chain.id depth).Runs
      (.start (.start chain checkpoint (.start settings.maxRecordedBlocks
        (store.recentBlocks chain.id settings.maxRecordedBlocks)) settings) generation clock)
      store chain testimony [] := by
  refine ⟨.start (hstore.remembers hpositive hlimit hagrees) .., ?_, fun reorg hannounced => ?_⟩
  · have hevents : store.eventsOf chain.id ++ ([] ++ []) = store.eventsOf chain.id :=
      List.append_nil _
    have hblocks : store.blocksOf chain.id ++ [] = store.blocksOf chain.id := List.append_nil _
    exact hevents.symm ▸ hblocks.symm ▸ htold
  · exact hannounced.elim (fun hnone => nomatch hnone) fun hmem => absurd hmem List.not_mem_nil

theorem drain (h : lane.Runs task store chain testimony []) :
    lane.drainReady.Runs task store chain testimony [] := by
  obtain ⟨htraces, hahead, hblocks⟩ := h.traces.drain
  exact h.of_traces htraces (congrArg _ hahead) hblocks fun _ => announces_of_drainItems

theorem take (h : lane.Runs task store chain testimony [])
    (hpending : lane.pending = taken ++ rest) :
    { lane with pending := rest }.Runs task store chain testimony taken := by
  refine h.of_traces (h.traces.take hpending) ?_ rfl fun _ hannounced => hannounced
  rw [ahead, ahead, hpending, List.nil_append, List.append_assoc]
  rfl

theorem restore (h : lane.Runs task store chain testimony (committed ++ rest)) :
    (lane.restore rest).Runs task store chain testimony committed := by
  refine h.of_traces h.traces.restore ?_ rfl fun _ hannounced => hannounced
  rw [ahead, ahead, List.append_assoc]
  exact congrArg (committed ++ ·) (List.append_assoc ..)

theorem takeReorg (h : lane.Runs task store chain testimony taken) :
    lane.takeReorg.2.Runs task store chain testimony taken :=
  h.congr rfl rfl rfl (fun _ hnone => nomatch hnone) rfl rfl fun hfetching => ⟨hfetching, .refl _⟩

theorem own (h : lane.Runs task store chain testimony taken) {event : Event}
    (hevent : event ∈ taken ++ lane.ahead task) : event.chain = chain.id :=
  testimony.own h.told event (List.mem_append_right _ hevent)

/-- A lane runs over any store that has the same of its chain. -/
theorem of_store {after : Store} (h : lane.Runs task store chain testimony taken)
    (hevents : after.eventsOf chain.id = store.eventsOf chain.id)
    (hblocks : after.blocksOf chain.id ⊆ store.blocksOf chain.id)
    (hblocks' : store.blocksOf chain.id ⊆ after.blocksOf chain.id)
    (hcheckpoint : after.checkpointOf chain = store.checkpointOf chain) :
    lane.Runs task after chain testimony taken := by
  refine ⟨?_, ?_, h.vouched⟩
  · rw [hcheckpoint]
    exact h.traces.mono hblocks'
  · rw [hevents]
    refine testimony.mono h.told (fun _ hmem => hmem) ?_
    exact List.append_subset.2 ⟨fun _ hmem => List.mem_append_left _ (hblocks hmem),
      List.subset_append_right _ _⟩

end Lane.Runs

/-! ### Pipelines -/

namespace Pipeline

variable {context : PipelineContext Store} {pipeline after : Pipeline Store} {config : Config}
  {others : Set Chain} {testimony : (chain : ChainId) → Testimony chain} {chain : Chain}
  {events : List Event}

/-- Whether the tracker of a pipeline stands where its store can be resumed, and it tracks
configured chains only, as all its lanes are of such chains. -/
structure Traces (pipeline : Pipeline Store) (config : Config)
    (others : Set Chain) (testimony : (chain : ChainId) → Testimony chain) : Prop where
  store : pipeline.repo.Resumable config others testimony
  keyed : pipeline.tracker.Keyed
  tracked : ∀ id checkpoint, pipeline.tracker.get? id = some checkpoint →
    ∃ chain ∈ config.chains, chain.id = id
  tracks : ∀ chain ∈ config.chains, ∃ checkpoint, pipeline.tracker.get? chain.id = some checkpoint ∧
    checkpoint.AgreesWith (pipeline.repo.checkpointOf chain)
  mode : pipeline.orderer.mode = config.mode
  lanes : ∀ id lane, pipeline.orderer.lanes.get? id = some lane →
    lane.chain = id ∧ ∃ chain ∈ config.chains, chain.id = id

/-- Whether the lane of a chain, if there is one, runs over the store behind some events that were
taken from it. -/
def Runs (pipeline : Pipeline Store) (testimony : (chain : ChainId) → Testimony chain)
    (chain : Chain) (taken : List Event) : Prop :=
  match pipeline.orderer.lanes.get? chain.id with
  | none => taken = []
  | some lane => ∃ task, pipeline.tasks.get? chain.id = some task ∧
    lane.Runs task pipeline.repo chain (testimony chain.id) taken

/-- Whether all lanes of a pipeline run, but for some events that were taken from their fronts. -/
structure Tracing (pipeline : Pipeline Store) (config : Config)
    (others : Set Chain) (testimony : (chain : ChainId) → Testimony chain)
    (events : List Event) : Prop where
  traces : pipeline.Traces config others testimony
  runs : ∀ chain ∈ config.chains,
    pipeline.Runs testimony chain (events.filter (·.chain = chain.id))
  configured : ∀ event ∈ events, ∃ chain ∈ config.chains, chain.id = event.chain
  turns : config.mode = .unordered → ∃ id, ∀ event ∈ events, event.chain = id

theorem Traces.of_lanes (h : pipeline.Traces config others testimony)
    (hrepo : after.repo = pipeline.repo) (htracker : after.tracker = pipeline.tracker)
    (hmode : after.orderer.mode = pipeline.orderer.mode)
    (hlanes : ∀ id lane, after.orderer.lanes.get? id = some lane →
      ∃ before, pipeline.orderer.lanes.get? id = some before ∧ lane.chain = before.chain) :
    after.Traces config others testimony := by
  refine ⟨?_, ?_, ?_, ?_, hmode.trans h.mode, fun id lane hlane => ?_⟩
  · rw [hrepo]
    exact h.store
  · rw [htracker]
    exact h.keyed
  · rw [htracker]
    exact h.tracked
  · rw [hrepo, htracker]
    exact h.tracks
  · obtain ⟨before, hbefore, hchain⟩ := hlanes id lane hlane
    rw [hchain]
    exact h.lanes id before hbefore

theorem Traces.tracing (h : pipeline.Traces config others testimony)
    (hruns : ∀ chain ∈ config.chains, pipeline.Runs testimony chain []) :
    pipeline.Tracing config others testimony [] :=
  ⟨h, hruns, fun _ hmem => absurd hmem List.not_mem_nil,
    fun _ => ⟨0, fun _ hmem => absurd hmem List.not_mem_nil⟩⟩

theorem Tracing.congr (h : pipeline.Tracing config others testimony events)
    (hrepo : after.repo = pipeline.repo) (htracker : after.tracker = pipeline.tracker)
    (hmode : after.orderer.mode = pipeline.orderer.mode)
    (hlanes : after.orderer.lanes = pipeline.orderer.lanes)
    (htasks : after.tasks = pipeline.tasks) :
    after.Tracing config others testimony events := by
  refine ⟨h.traces.of_lanes hrepo htracker hmode fun id lane hlane =>
    ⟨lane, hlanes ▸ hlane, rfl⟩, fun chain hchain => ?_, h.configured, h.turns⟩
  rw [Runs, hrepo, hlanes, htasks]
  exact h.runs chain hchain

/-- A change at one chain keeps all lanes running if the lane of the chain still runs. -/
theorem Tracing.changeAt (h : pipeline.Tracing config others testimony []) {orderer : Orderer}
    {tasks : Table ChainId FetcherTask} (id : ChainId) (f : Lane → Lane)
    (hmode : orderer.mode = pipeline.orderer.mode)
    (hlanes : ∀ other, orderer.lanes.get? other =
      if other = id then (pipeline.orderer.lanes.get? id).map f
      else pipeline.orderer.lanes.get? other)
    (htasks : ∀ other, other ≠ id → tasks.get? other = pipeline.tasks.get? other)
    (hchain : ∀ lane, (f lane).chain = lane.chain)
    (hruns : ∀ chain ∈ config.chains, chain.id = id → ∀ lane task,
      pipeline.tasks.get? chain.id = some task →
      lane.Runs task pipeline.repo chain (testimony chain.id) [] →
      ∃ after, tasks.get? chain.id = some after ∧
        (f lane).Runs after pipeline.repo chain (testimony chain.id) []) :
    { pipeline with orderer := orderer, tasks := tasks }.Tracing config others testimony [] := by
  refine Traces.tracing
    (h.traces.of_lanes rfl rfl hmode fun _ _ hget => Lane.exists_of_changed hlanes hchain hget)
    fun chain hmem => ?_
  have hbefore := h.runs chain hmem
  rw [Runs] at hbefore ⊢
  dsimp only
  rw [hlanes]
  by_cases hsame : chain.id = id
  · rw [if_pos hsame, ← hsame]
    cases hlane : pipeline.orderer.lanes.get? chain.id with
    | none => rfl
    | some lane =>
      rw [hlane] at hbefore
      obtain ⟨task, htask, hlaneRuns⟩ := hbefore
      exact hruns chain hmem hsame lane task htask hlaneRuns
  · rw [if_neg hsame, htasks chain.id hsame]
    exact hbefore

/-! ### Fetchers -/

/-- A new fetcher starts where the store can be resumed. -/
theorem Traces.spawn (h : pipeline.Traces context.config others testimony)
    (hvalid : context.config.validate = .ok ()) {found : Chain}
    (hfound : found ∈ context.config.chains) {checkpoint : Checkpoint}
    (hcheckpoint : pipeline.tracker.get? found.id = some checkpoint) :
    let after := Pipeline.spawn context found checkpoint
      (pipeline.repo.recentBlocks found.id context.config.maxRecordedBlocks)
      (pipeline.abort found.id)
    after.Traces context.config others testimony ∧ ∀ chain ∈ context.config.chains,
      (chain.id ≠ found.id → pipeline.Runs testimony chain []) → after.Runs testimony chain [] := by
  intro after
  have hlanes : ∀ id, after.orderer.lanes.get? id =
      if id = found.id then
        some (.start found.id (FetchSettings.ofConfig context.config).queueDepth)
      else pipeline.orderer.lanes.get? id := fun id => Table.get?_insert ..
  have htasks : ∀ id, id ≠ found.id → after.tasks.get? id = pipeline.tasks.get? id := by
    intro id hid
    refine (Table.get?_insert ..).trans ?_
    rw [if_neg hid]
    exact (Table.get?_erase ..).trans (if_neg hid)
  refine ⟨⟨h.store, h.keyed, h.tracked, h.tracks, h.mode, fun id lane hget => ?_⟩,
    fun chain hchain hruns => ?_⟩
  · rw [hlanes] at hget
    split at hget
    next heq =>
      cases hget
      exact ⟨heq.symm, found, hfound, heq.symm⟩
    next => exact h.lanes id lane hget
  · rw [Runs, hlanes]
    by_cases hsame : chain.id = found.id
    · have hdistinct := (Config.validate_eq_ok hvalid).1
      obtain rfl : chain = found := List.inj_on_of_nodup_map hdistinct hchain hfound hsame
      obtain ⟨tracked, htracked, hagrees⟩ := h.tracks chain hchain
      rw [hcheckpoint] at htracked
      cases htracked
      rw [if_pos rfl]
      exact ⟨_, (Table.get?_insert ..).trans (if_pos rfl),
        .start (h.store.traces chain hchain) (h.store.told chain hchain)
          (positive_ofConfig (Config.validate_eq_ok hvalid).2)
          (Config.maxRecordedBlocks_of_validate hvalid) hagrees ..⟩
    · have hother := hruns hsame
      rw [Runs] at hother
      rw [if_neg hsame, htasks _ hsame]
      exact hother

theorem Traces.startFetcher {id : ChainId} {result : Except IndexingError Unit}
    (h : pipeline.Traces context.config others testimony) (hrepo : context.repo = Repo.inMemory)
    (hvalid : context.config.validate = .ok ())
    (hid : ∃ chain ∈ context.config.chains, chain.id = id)
    (hstart : Pipeline.startFetcher context id pipeline = (result, after)) :
    after.Traces context.config others testimony ∧ ∀ chain ∈ context.config.chains,
      (chain.id ≠ id → pipeline.Runs testimony chain []) → after.Runs testimony chain [] := by
  obtain ⟨found, hfound, rfl, hfind⟩ := Config.exists_find?_chain hid
  obtain ⟨checkpoint, hcheckpoint, -⟩ := h.tracks found hfound
  rw [startFetcher_inMemory hrepo hfind hcheckpoint] at hstart
  cases hstart
  exact h.spawn hvalid hfound hcheckpoint

theorem Traces.startFetchers {ids : List ChainId}
    (h : pipeline.Traces context.config others testimony)
    (hrepo : context.repo = Repo.inMemory) (hvalid : context.config.validate = .ok ())
    (hids : ∀ id ∈ ids, ∃ chain ∈ context.config.chains, chain.id = id)
    (hruns : ∀ chain ∈ context.config.chains, chain.id ∉ ids → pipeline.Runs testimony chain [])
    (hstart : Pipeline.startFetchers context ids pipeline = (.ok (), after)) :
    after.Tracing context.config others testimony [] := by
  induction ids generalizing pipeline with
  | nil =>
    cases hstart
    exact h.tracing fun chain hchain => hruns chain hchain List.not_mem_nil
  | cons id rest ih =>
    rw [Pipeline.startFetchers] at hstart
    obtain ⟨_, started, hstarted, hstart⟩ := Call.bind_eq_ok hstart
    obtain ⟨htraces, hkept⟩ := h.startFetcher hrepo hvalid (hids id List.mem_cons_self) hstarted
    refine ih htraces (fun other hother => hids other (List.mem_cons_of_mem _ hother))
      (fun chain hchain hlater => ?_) hstart
    refine hkept chain hchain fun hne => hruns chain hchain fun hmem => ?_
    exact (List.mem_cons.1 hmem).elim hne hlater

theorem traces_of_boot {store repo : Store} {booted : Booted}
    (hstore : store.Resumable config others testimony)
    (hboot : boot Repo.inMemory config store = (.ok booted, repo)) :
    config.validate = .ok () ∧ (ofBooted config booted repo).Traces config others testimony := by
  obtain ⟨hvalid, hafter, rfl⟩ := boot_eq_ok hboot
  have hresumable : repo.Resumable config others testimony := by
    rcases hafter with rfl | ⟨resetCount, rfl⟩
    · exact hstore
    · exact .empty config others testimony resetCount
  obtain ⟨hkeyed, htracks⟩ :=
    Tracker.start_values hresumable.keyed (Config.validate_eq_ok hvalid).1
  refine ⟨hvalid, hresumable, hkeyed, fun _ _ hget => Tracker.exists_of_start hget,
    fun chain hchain => ?_, rfl, fun _ _ hnone => nomatch hnone⟩
  exact ⟨_, htracks chain hchain, Tracker.resumed_agreesWith _ chain⟩

/-! ### Units -/

theorem Tracing.drain (h : pipeline.Tracing config others testimony []) :
    { pipeline with orderer := pipeline.orderer.drain }.Tracing config others testimony [] := by
  refine Traces.tracing (h.traces.of_lanes rfl rfl rfl fun id lane hlane => ?_)
    fun chain hchain => ?_
  · dsimp only at hlane
    rw [Orderer.get?_drain, Option.map_eq_some_iff] at hlane
    obtain ⟨before, hbefore, rfl⟩ := hlane
    exact ⟨before, hbefore, before.drainItems_chain _⟩
  · have hruns := h.runs chain hchain
    rw [Runs] at hruns ⊢
    dsimp only
    rw [Orderer.get?_drain]
    cases hlane : pipeline.orderer.lanes.get? chain.id with
    | none => rfl
    | some lane =>
      rw [hlane] at hruns
      obtain ⟨task, htask, hlaneRuns⟩ := hruns
      exact ⟨task, htask, hlaneRuns.drain⟩

theorem Tracing.own (h : pipeline.Tracing config others testimony events) :
    pipeline.orderer.Own := by
  intro id lane hlane event hevent
  obtain ⟨-, chain, hchain, rfl⟩ := h.traces.lanes id lane hlane
  have hruns := h.runs chain hchain
  rw [Runs, hlane] at hruns
  obtain ⟨task, -, hlaneRuns⟩ := hruns
  exact hlaneRuns.own (List.mem_append_right _ (List.mem_append_left _ hevent))

theorem Tracing.take (h : pipeline.Tracing config others testimony []) {orderer : Orderer}
    (hmode : orderer.mode = pipeline.orderer.mode) (hgives : pipeline.orderer.Gives orderer events)
    (hturns : pipeline.orderer.mode = .unordered → ∃ id, ∀ event ∈ events, event.chain = id) :
    { pipeline with orderer := orderer }.Tracing config others testimony events := by
  refine ⟨h.traces.of_lanes rfl rfl hmode fun id lane hlane => ?_, fun chain hchain => ?_,
    fun event hevent => ?_, fun hunordered => hturns (h.traces.mode.trans hunordered)⟩
  · have hid := hgives id
    rw [show orderer.lanes.get? id = some lane from hlane] at hid
    generalize hbefore : pipeline.orderer.lanes.get? id = found at hid
    cases hid with
    | lane hpending => exact ⟨_, rfl, rfl⟩
  · have hid := hgives chain.id
    have hruns := h.runs chain hchain
    rw [Runs] at hruns ⊢
    dsimp only
    generalize pipeline.orderer.lanes.get? chain.id = found at hid hruns
    generalize orderer.lanes.get? chain.id = after at hid
    cases hid with
    | absent hnil => exact hnil
    | lane hpending =>
      obtain ⟨task, htask, hlaneRuns⟩ := hruns
      exact ⟨task, htask, hlaneRuns.take hpending⟩
  · have hid := hgives event.chain
    have hmem : event ∈ events.filter (·.chain = event.chain) :=
      List.mem_filter.2 ⟨hevent, decide_eq_true rfl⟩
    generalize hbefore : pipeline.orderer.lanes.get? event.chain = found at hid
    generalize orderer.lanes.get? event.chain = after at hid
    cases hid with
    | absent hnil =>
      rw [hnil] at hmem
      cases hmem
    | lane hpending => exact (h.traces.lanes _ _ hbefore).2

theorem Tracing.restore {committed rest : List Event}
    (h : pipeline.Tracing config others testimony (committed ++ rest)) :
    { pipeline with orderer := pipeline.orderer.restore rest }.Tracing config others testimony
      committed := by
  refine ⟨h.traces.of_lanes rfl rfl rfl fun id lane hlane => ?_, fun chain hchain => ?_,
    fun event hevent => h.configured event (List.mem_append_left _ hevent),
    fun hunordered => ?_⟩
  · dsimp only at hlane
    rw [Orderer.get?_restore, Option.map_eq_some_iff] at hlane
    obtain ⟨before, hbefore, rfl⟩ := hlane
    exact ⟨before, hbefore, rfl⟩
  · have hruns := h.runs chain hchain
    rw [List.filter_append] at hruns
    rw [Runs] at hruns ⊢
    dsimp only
    rw [Orderer.get?_restore]
    cases hlane : pipeline.orderer.lanes.get? chain.id with
    | none =>
      rw [hlane] at hruns
      exact (List.append_eq_nil_iff.1 hruns).1
    | some lane =>
      rw [hlane] at hruns
      obtain ⟨task, htask, hlane⟩ := hruns
      exact ⟨task, htask, hlane.restore⟩
  · obtain ⟨id, hid⟩ := h.turns hunordered
    exact ⟨id, fun event hevent => hid event (List.mem_append_left _ hevent)⟩

/-! ### Failures -/

theorem Tracing.degrade (h : pipeline.Tracing config others testimony events) {id : ChainId}
    (hevents : ∀ event ∈ events, event.chain = id) :
    (pipeline.degrade id).Tracing config others testimony [] := by
  have hlanes : ∀ other, (pipeline.degrade id).orderer.lanes.get? other =
      if other = id then none else pipeline.orderer.lanes.get? other := fun other =>
    Table.get?_erase ..
  have htasks : ∀ other, (pipeline.degrade id).tasks.get? other =
      if other = id then none else pipeline.tasks.get? other := fun other => Table.get?_erase ..
  refine Traces.tracing (h.traces.of_lanes rfl rfl rfl fun other lane hlane => ?_)
    fun chain hchain => ?_
  · rw [hlanes, Option.ite_none_left_eq_some] at hlane
    exact ⟨lane, hlane.2, rfl⟩
  · rw [Runs, hlanes, htasks]
    by_cases hsame : chain.id = id
    · rw [if_pos hsame]
    · have hruns := h.runs chain hchain
      rw [Runs, filter_chain_eq_nil hevents hsame] at hruns
      rw [if_neg hsame, if_neg hsame]
      exact hruns

theorem Tracing.failChain (h : pipeline.Tracing context.config others testimony events)
    {id : ChainId} {error : IndexingError}
    (hevents : context.config.mode = .unordered → ∀ event ∈ events, event.chain = id)
    (hfail : Pipeline.failChain context id error pipeline = (.ok (), after)) :
    after.Tracing context.config others testimony [] := by
  obtain ⟨hmode, rfl⟩ := failChain_cases hfail
  exact h.degrade (hevents hmode)

end Pipeline

end ChainIndexer
