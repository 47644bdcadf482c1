import ChainIndexer.Proofs.Pipeline.Actions
import ChainIndexer.Proofs.Pipeline.Sound
import ChainIndexer.Proofs.Processing

/-!
# Steps of a pipeline

Every step of a pipeline over memory keeps it steady, whatever comes next and whether handlers fail,
as long as no reorg is noticed.
-/

namespace ChainIndexer

theorem Repo.inMemory_commit (unit : WriteUnit) (store : Store) :
    inMemory.commit unit store = (.ok (), store.write unit) ∨
      ∃ error, inMemory.commit unit store = (.error error, store) := by
  simp only [inMemory, Store.commit]
  cases Store.firstConflict (store.history.map fun record => (record.key, record.origin))
      unit.history with
  | none => exact Or.inl rfl
  | some entry => exact Or.inr ⟨_, rfl⟩

theorem RetryPolicy.write_commit {policy : RetryPolicy} {unit : WriteUnit} {store : Store}
    (h : (policy.write (Repo.inMemory.commit unit) store).result = .ok ()) :
    (policy.write (Repo.inMemory.commit unit) store).repo = store.write unit := by
  have hfails : ∀ before error after, Repo.inMemory.commit unit before = (.error error, after) →
      id after = id before := by
    intro before error after hcall
    rcases Repo.inMemory_commit unit before with hok | ⟨cause, hcause⟩
    · rw [hok] at hcall
      cases hcall
    · rw [hcause] at hcall
      exact (Prod.mk.inj hcall).2.symm
  rcases write_cases policy hfails store with ⟨-, before, rfl, hcall⟩ | ⟨⟨error, herror⟩, -⟩
  · rcases Repo.inMemory_commit unit before with hok | ⟨cause, hcause⟩
    · exact (Prod.mk.inj (hok.symm.trans hcall)).2.symm
    · cases hcause.symm.trans hcall
  · rw [herror] at h
    cases h

theorem Config.exists_find?_chain {config : Config} {id : ChainId}
    (hid : ∃ chain ∈ config.chains, chain.id = id) :
    ∃ found ∈ config.chains, found.id = id ∧ config.chains.find? (·.id = id) = some found := by
  obtain ⟨chain, hchain, hchainId⟩ := hid
  obtain ⟨found, hfind⟩ : ∃ found, config.chains.find? (·.id = id) = some found :=
    Option.isSome_iff_exists.1 (List.find?_isSome.2 ⟨chain, hchain, decide_eq_true hchainId⟩)
  exact ⟨found, List.mem_of_find?_eq_some hfind, by simpa using List.find?_some hfind, hfind⟩

namespace Pipeline

variable {context : PipelineContext Store} {pipeline after : Pipeline Store}
  {logs : (chain : ChainId) → ChainLog chain} {events : List Event} {chain : Chain}

/-- Whether a pipeline is sound and no events are taken from its lanes. -/
structure Steady (pipeline : Pipeline Store) (config : Config) (handlers : HandlerTable)
    (logs : (chain : ChainId) → ChainLog chain) : Prop where
  sound : pipeline.Sound config handlers logs
  serves : ∀ chain ∈ config.chains, pipeline.Serves handlers logs chain []

/-! ### Fetchers -/

theorem positive_ofConfig {config : Config} (h : 1 ≤ config.minBlocksPerBatch) :
    (FetchSettings.ofConfig config).batchSize.Positive := .clamp h _

/-- A new fetcher of a chain takes the place of one that may have become useless. -/
theorem Sound.spawn (h : pipeline.Sound context.config context.handlers logs)
    (hmin : 1 ≤ context.config.minBlocksPerBatch) {found : Chain}
    (hfound : found ∈ context.config.chains) {checkpoint : Checkpoint}
    (hcheckpoint : pipeline.tracker.get? found.id = some checkpoint)
    (hserves : ∀ chain ∈ context.config.chains, chain.id ≠ found.id →
      pipeline.Serves context.handlers logs chain []) {recent : List Block}
    (hrecent : ∀ block ∈ recent, (logs found.id).Has block) :
    (Pipeline.spawn context found checkpoint recent (pipeline.abort found.id)).Steady context.config
      context.handlers logs := by
  have hlanes : ∀ id, (Pipeline.spawn context found checkpoint recent
      (pipeline.abort found.id)).orderer.lanes.get? id =
        if id = found.id then
          some (.start found.id (FetchSettings.ofConfig context.config).queueDepth)
        else pipeline.orderer.lanes.get? id := fun id => Table.get?_insert ..
  have htasks : ∀ id, id ≠ found.id → (Pipeline.spawn context found checkpoint recent
      (pipeline.abort found.id)).tasks.get? id = pipeline.tasks.get? id := by
    intro id hid
    refine (Table.get?_insert ..).trans ?_
    rw [if_neg hid]
    exact (Table.get?_erase ..).trans (if_neg hid)
  refine ⟨⟨h.store, h.reflects, h.keyed, h.tracks, h.mode, fun id lane hget => ?_⟩,
    fun chain hchain => ?_⟩
  · rw [hlanes] at hget
    split at hget
    next heq =>
      cases hget
      exact ⟨heq.symm, found, hfound, heq.symm⟩
    next => exact h.lanes id lane hget
  · by_cases hsame : chain.id = found.id
    · obtain ⟨tracked, htracked, htracks⟩ := h.tracks chain hchain
      rw [hsame, hcheckpoint] at htracked
      cases htracked
      rw [Serves, hlanes, if_pos hsame]
      refine ⟨_, (Table.get?_insert ..).trans (if_pos hsame), ?_⟩
      have hopen : ∀ event ∈ pipeline.left context.handlers logs chain,
          checkpoint.covers event.position = false := by
        intro event hevent
        rw [left, Store.left, List.mem_filter, Bool.and_eq_true, Bool.not_eq_true',
          ← htracks.covers] at hevent
        exact hevent.2.2
      have hcovers : ((Pipeline.spawn context found checkpoint recent
          (pipeline.abort found.id)).repo.checkpointOf chain).covers = checkpoint.covers :=
        htracks.covers.symm
      rw [hsame, hcovers]
      exact Lane.Serves.start hopen (positive_ofConfig hmin) (.start _ hrecent) ..
    · have hother := hserves chain hchain hsame
      rw [Serves] at hother ⊢
      rw [hlanes, if_neg hsame, htasks _ hsame]
      exact hother

theorem startFetcher_inMemory (hrepo : context.repo = Repo.inMemory) {id : ChainId} {found : Chain}
    (hfind : context.config.chains.find? (·.id = id) = some found) {checkpoint : Checkpoint}
    (hcheckpoint : pipeline.tracker.get? id = some checkpoint) :
    Pipeline.startFetcher context id pipeline = (.ok (), Pipeline.spawn context found checkpoint
      (pipeline.repo.recentBlocks id context.config.maxRecordedBlocks) (pipeline.abort id)) := by
  rw [startFetcher_apply, hfind, hcheckpoint]
  dsimp only
  rw [restart, hrepo]
  rfl

theorem Sound.startFetcher {id : ChainId} {result : Except IndexingError Unit}
    (h : pipeline.Sound context.config context.handlers logs)
    (hrepo : context.repo = Repo.inMemory) (hmin : 1 ≤ context.config.minBlocksPerBatch)
    (hid : ∃ chain ∈ context.config.chains, chain.id = id)
    (hserves : ∀ chain ∈ context.config.chains, chain.id ≠ id →
      pipeline.Serves context.handlers logs chain [])
    (hstart : Pipeline.startFetcher context id pipeline = (result, after)) :
    after.Steady context.config context.handlers logs := by
  obtain ⟨found, hfound, rfl, hfind⟩ := Config.exists_find?_chain hid
  obtain ⟨checkpoint, hcheckpoint, -⟩ := h.tracks found hfound
  rw [startFetcher_inMemory hrepo hfind hcheckpoint] at hstart
  cases hstart
  exact h.spawn hmin hfound hcheckpoint hserves fun block hblock =>
    h.store.blocks found.id block (List.mem_reverse.1 (List.mem_of_mem_take hblock))

/-! ### Units -/

/-- Whether a pipeline is sound but for some events that were taken from the fronts of its lanes. -/
structure Took (pipeline : Pipeline Store) (config : Config) (handlers : HandlerTable)
    (logs : (chain : ChainId) → ChainLog chain) (events : List Event) : Prop where
  sound : pipeline.Sound config handlers logs
  serves : ∀ chain ∈ config.chains,
    pipeline.Serves handlers logs chain (events.filter (·.chain = chain.id))
  configured : ∀ event ∈ events, ∃ chain ∈ config.chains, chain.id = event.chain
  turns : config.mode = .unordered → ∃ chain, ∀ event ∈ events, event.chain = chain

variable {config : Config} {handlers : HandlerTable}

theorem Steady.drained (h : pipeline.Steady config handlers logs) (hchain : chain ∈ config.chains)
    {lane : Lane} (hlane : pipeline.orderer.drain.lanes.get? chain.id = some lane) :
    ∃ task, pipeline.tasks.get? chain.id = some task ∧
      lane.Serves task (logs chain.id) (pipeline.repo.checkpointOf chain).covers
        (pipeline.left handlers logs chain) [] := by
  rw [Orderer.get?_drain, Option.map_eq_some_iff] at hlane
  obtain ⟨before, hbefore, rfl⟩ := hlane
  have hserves := h.serves chain hchain
  rw [Serves, hbefore] at hserves
  obtain ⟨task, htask, hbrings⟩ := hserves
  exact ⟨task, htask, hbrings.drain⟩

theorem Steady.drain_configured (h : pipeline.Steady config handlers logs) {id : ChainId}
    {lane : Lane} (hlane : pipeline.orderer.drain.lanes.get? id = some lane) :
    lane.chain = id ∧ ∃ chain ∈ config.chains, chain.id = id := by
  rw [Orderer.get?_drain, Option.map_eq_some_iff] at hlane
  obtain ⟨before, hbefore, rfl⟩ := hlane
  obtain ⟨hid, hconfigured⟩ := h.sound.lanes id before hbefore
  exact ⟨(before.drainItems_chain _).trans hid, hconfigured⟩

theorem Steady.drain_own (h : pipeline.Steady config handlers logs) :
    pipeline.orderer.drain.Own := by
  intro id lane hlane event hevent
  obtain ⟨-, chain, hchain, rfl⟩ := h.drain_configured hlane
  obtain ⟨task, -, hserves⟩ := h.drained hchain hlane
  obtain ⟨next, hholds, -⟩ := hserves.brings
  have hpending := hholds.pending
  rw [List.nil_append] at hpending
  rw [hpending] at hevent
  exact (logs chain.id).own event (List.mem_of_mem_filter (List.mem_of_mem_filter hevent))

theorem Steady.drain_reorg (h : pipeline.Steady config handlers logs) :
    ∀ id lane, pipeline.orderer.drain.lanes.get? id = some lane → lane.reorg = none := by
  intro id lane hlane
  obtain ⟨-, chain, hchain, rfl⟩ := h.drain_configured hlane
  obtain ⟨task, -, hserves⟩ := h.drained hchain hlane
  obtain ⟨next, hholds, -⟩ := hserves.brings
  exact hholds.reorg

theorem Steady.take (h : pipeline.Steady config handlers logs) {orderer : Orderer}
    (hmode : orderer.mode = pipeline.orderer.mode)
    (hgives : pipeline.orderer.drain.Gives orderer events)
    (hturns : pipeline.orderer.mode = .unordered → ∃ chain, ∀ event ∈ events, event.chain = chain) :
    { pipeline with orderer := orderer }.Took config handlers logs events := by
  refine ⟨h.sound.of_lanes rfl rfl rfl hmode fun id lane hlane => ?_, fun chain hchain => ?_,
    fun event hevent => ?_, fun hunordered => hturns (h.sound.mode.trans hunordered)⟩
  · have hid := hgives id
    rw [show orderer.lanes.get? id = some lane from hlane, Orderer.get?_drain] at hid
    generalize hbefore : pipeline.orderer.lanes.get? id = found at hid
    cases found with
    | none => cases hid
    | some before =>
      rw [Option.map_some] at hid
      cases hid with
      | lane hpending => exact ⟨before, rfl, before.drainItems_chain _⟩
  · have hid := hgives chain.id
    rw [Serves]
    dsimp only
    generalize hbefore : pipeline.orderer.drain.lanes.get? chain.id = found at hid
    generalize orderer.lanes.get? chain.id = after at hid
    cases hid with
    | absent hnil => exact hnil
    | lane hpending =>
      obtain ⟨task, htask, hserves⟩ := h.drained hchain hbefore
      exact ⟨task, htask, hserves.take hpending⟩
  · have hid := hgives event.chain
    have hmem : event ∈ events.filter (·.chain = event.chain) :=
      List.mem_filter.2 ⟨hevent, decide_eq_true rfl⟩
    generalize hbefore : pipeline.orderer.drain.lanes.get? event.chain = found at hid
    generalize orderer.lanes.get? event.chain = after at hid
    cases hid with
    | absent hnil =>
      rw [hnil] at hmem
      cases hmem
    | lane hpending => exact (h.drain_configured hbefore).2

theorem Serves.restore {committed rest : List Event}
    (h : pipeline.Serves handlers logs chain ((committed ++ rest).filter (·.chain = chain.id))) :
    { pipeline with orderer := pipeline.orderer.restore rest }.Serves handlers logs chain
      (committed.filter (·.chain = chain.id)) := by
  rw [List.filter_append] at h
  rw [Serves] at h ⊢
  dsimp only
  rw [Orderer.get?_restore]
  cases hlane : pipeline.orderer.lanes.get? chain.id with
  | none =>
    rw [hlane] at h
    exact (List.append_eq_nil_iff.1 h).1
  | some lane =>
    rw [hlane] at h
    obtain ⟨task, htask, hserves⟩ := h
    exact ⟨task, htask, hserves.restore⟩

theorem Took.restore {committed rest : List Event}
    (h : pipeline.Took config handlers logs (committed ++ rest)) :
    { pipeline with orderer := pipeline.orderer.restore rest }.Sound config handlers logs ∧
      ∀ chain ∈ config.chains,
        { pipeline with orderer := pipeline.orderer.restore rest }.Serves handlers logs chain
          (committed.filter (·.chain = chain.id)) := by
  refine ⟨h.sound.of_lanes rfl rfl rfl rfl fun id lane hlane => ?_,
    fun chain hchain => (h.serves chain hchain).restore⟩
  dsimp only at hlane
  rw [Orderer.get?_restore, Option.map_eq_some_iff] at hlane
  obtain ⟨before, hbefore, rfl⟩ := hlane
  exact ⟨before, hbefore, rfl⟩

theorem Sound.progress (h : pipeline.Sound config handlers logs)
    (hserves : ∀ chain ∈ config.chains, pipeline.Serves handlers logs chain [])
    (committed : List Event) :
    { pipeline with orderer := (pipeline.orderer.progress committed).2.2 }.Steady config handlers
      logs := by
  refine ⟨h.of_lanes rfl rfl rfl rfl fun id lane hlane => ?_, fun chain hchain => ?_⟩
  · dsimp only at hlane
    rw [Orderer.get?_progress, Option.map_eq_some_iff] at hlane
    obtain ⟨before, hbefore, rfl⟩ := hlane
    exact ⟨before, hbefore, before.progress_chain _⟩
  · have hchainServes := hserves chain hchain
    rw [Serves] at hchainServes ⊢
    dsimp only
    rw [Orderer.get?_progress]
    cases hlane : pipeline.orderer.lanes.get? chain.id with
    | none => rfl
    | some lane =>
      rw [hlane] at hchainServes
      obtain ⟨task, htask, hbrings⟩ := hchainServes
      exact ⟨task, htask, hbrings.progress _⟩

theorem write_commit_eq_ok {unit : WriteUnit}
    (h : write context (Repo.inMemory.commit unit) pipeline = (.ok (), after)) :
    after = { pipeline with repo := pipeline.repo.write unit } := by
  have hresult := congrArg Prod.fst h
  have hafter := congrArg Prod.snd h
  rw [← RetryPolicy.write_commit hresult]
  exact hafter.symm

/-- A commit stores one unit, and then starts to fetch the chain of a registering event again. -/
theorem commitProcessed_eq_ok {processed : ProcessedUnit} {unit : WriteUnit} {orderer : Orderer}
    (hrepo : context.repo = Repo.inMemory) (hpruning : context.config.pruning = none)
    (hunit : unit = pipeline.unitOf context.now events processed)
    (horderer : orderer = ((pipeline.orderer.restore (events.drop processed.applied)).progress
      unit.rawEvents).2.2)
    (h : commitProcessed context events processed pipeline = (.ok (), after)) :
    (unit.isEmpty = true ∧ after = { pipeline with orderer := orderer }) ∨
      match registering events processed with
      | none => after = noteCommit unit
          { pipeline with orderer := orderer, repo := pipeline.repo.write unit }
      | some last => Pipeline.startFetcher context last.chain (noteCommit unit
          { pipeline with orderer := orderer, repo := pipeline.repo.write unit }) =
            (.ok (), after) := by
  subst hunit horderer
  rw [commitProcessed_eq] at h
  by_cases hempty : (pipeline.unitOf context.now events processed).isEmpty = true
  · rw [if_pos hempty] at h
    cases h
    exact Or.inl ⟨hempty, rfl⟩
  · rw [if_neg hempty, hrepo] at h
    obtain ⟨_, written, hwritten, h⟩ := Call.bind_eq_ok h
    obtain ⟨_, noted, hnoted, h⟩ := Call.bind_eq_ok h
    cases hnoted
    rw [write_commit_eq_ok hwritten] at h
    obtain ⟨_, started, hstarted, h⟩ := Call.bind_eq_ok h
    rw [pruneIfAsked, hpruning] at h
    cases h
    right
    cases hregistering : registering events processed with
    | none =>
      rw [hregistering] at hstarted
      cases hstarted
      rfl
    | some last =>
      rw [hregistering] at hstarted
      exact hstarted

theorem registersAt_registering {processed : ProcessedUnit} {registry : Registry} {unit : WriteUnit}
    (hevents : unit.rawEvents = events.take processed.applied)
    (hregistrations : unit.registrations = processed.registrations)
    (h : processed.registrations = [] ∨
      ∃ last, (events.take processed.applied).getLast? = some last ∧
        ∀ registration ∈ processed.registrations,
          registration.IsFor last ∧ registry.watched.get? registration.key = none) :
    unit.RegistersAt registry (registering events processed) := by
  rw [registering]
  cases hsome : processed.registrations with
  | nil => exact hregistrations.trans hsome
  | cons first others =>
    rw [hsome] at h
    obtain ⟨last, hlast, hnew⟩ := h.resolve_left (List.cons_ne_nil _ _)
    rw [List.isEmpty_cons, if_neg Bool.false_ne_true, hlast]
    refine ⟨by rw [hevents, hlast], fun registration hmem => hnew registration ?_⟩
    rwa [hregistrations, hsome] at hmem

theorem Took.commit (h : pipeline.Took context.config context.handlers logs events)
    (hrepo : context.repo = Repo.inMemory) (hmin : 1 ≤ context.config.minBlocksPerBatch)
    (hpruning : context.config.pruning = none) {processed : ProcessedUnit} {notes : List Json}
    (hregisters : processed.registrations = [] ∨
      ∃ last, (events.take processed.applied).getLast? = some last ∧
        ∀ registration ∈ processed.registrations,
          registration.IsFor last ∧ pipeline.registry.watched.get? registration.key = none)
    (hcommit : commitProcessed context events processed
      { pipeline with
        registry := pipeline.registry.extend processed.registrations
        notes := notes } = (.ok (), after)) :
    after.Steady context.config context.handlers logs := by
  rw [← List.take_append_drop processed.applied events] at h
  obtain ⟨hsound, hserves⟩ := h.restore
  let restored : Pipeline Store :=
    { pipeline with
      orderer := pipeline.orderer.restore (events.drop processed.applied)
      notes := notes }
  let unit : WriteUnit := pipeline.unitOf context.now events processed
  have hrestored : restored.Sound context.config context.handlers logs :=
    hsound.of_lanes rfl rfl rfl rfl fun _ lane hlane => ⟨lane, hlane, rfl⟩
  have hat : unit.RegistersAt pipeline.registry (registering events processed) :=
    registersAt_registering rfl rfl hregisters
  have hrestoredServes : ∀ chain ∈ context.config.chains,
      restored.Serves context.handlers logs chain (unit.rawEvents.filter (·.chain = chain.id)) :=
    hserves
  have hblocks : ∀ recorded ∈ unit.blocks,
      recorded ∈ (restored.orderer.progress unit.rawEvents).2.1 := fun _ hrecorded =>
    (List.mem_filter.1 hrecorded).1
  have hstored := hrestored.stored hrestoredServes rfl hblocks hat
  rcases commitProcessed_eq_ok hrepo hpruning rfl rfl hcommit with ⟨hempty, hafter⟩ | hafter
  · simp only [WriteUnit.isEmpty, unitOf, Bool.and_eq_true, List.isEmpty_iff] at hempty
    have hnone := hempty.1.1.2
    have hcommitted := hempty.1.1.1.1.1
    rw [hnone] at hafter
    rw [hafter]
    refine hrestored.progress (fun chain hchain => ?_) _
    have hchainServes := hserves chain hchain
    rw [hcommitted] at hchainServes
    exact hchainServes
  · cases hregistering : registering events processed with
    | none =>
      rw [hregistering] at hafter
      have hsteady : (restored.stored unit).Steady context.config context.handlers logs := by
        refine ⟨hstored, fun chain hchain => ?_⟩
        refine hrestored.stored_serves hchain (hrestoredServes chain hchain) rfl hat ?_
        rw [hregistering]
        rintro event ⟨⟩
      rw [hafter]
      exact hsteady
    | some last =>
      rw [hregistering] at hafter
      have hlast : last ∈ events.take processed.applied := by
        rw [hregistering] at hat
        exact List.mem_of_getLast? hat.1
      refine hstored.startFetcher hrepo hmin
        (h.configured last (List.mem_append_left _ hlast)) (fun chain hchain hother => ?_) hafter
      refine hrestored.stored_serves hchain (hrestoredServes chain hchain) rfl hat ?_
      rw [hregistering]
      rintro event ⟨⟩
      exact Ne.symm hother

/-! ### Failures -/

theorem Took.degrade (h : pipeline.Took config handlers logs events) {id : ChainId}
    (hevents : ∀ event ∈ events, event.chain = id) :
    (pipeline.degrade id).Steady config handlers logs := by
  have hlanes : ∀ other, (pipeline.degrade id).orderer.lanes.get? other =
      if other = id then none else pipeline.orderer.lanes.get? other := fun other =>
    Table.get?_erase ..
  have htasks : ∀ other, (pipeline.degrade id).tasks.get? other =
      if other = id then none else pipeline.tasks.get? other := fun other => Table.get?_erase ..
  refine ⟨h.sound.of_lanes rfl rfl rfl rfl fun other lane hlane => ?_, fun chain hchain => ?_⟩
  · rw [hlanes, Option.ite_none_left_eq_some] at hlane
    exact ⟨lane, hlane.2, rfl⟩
  · rw [Serves, hlanes, htasks]
    by_cases hsame : chain.id = id
    · rw [if_pos hsame]
    · have hserves := h.serves chain hchain
      rw [Serves, filter_chain_eq_nil hevents hsame] at hserves
      rw [if_neg hsame, if_neg hsame]
      exact hserves

theorem Took.failChain (h : pipeline.Took context.config context.handlers logs events)
    {id : ChainId} {error : IndexingError}
    (hevents : context.config.mode = .unordered → ∀ event ∈ events, event.chain = id)
    (hfail : Pipeline.failChain context id error pipeline = (.ok (), after)) :
    after.Steady context.config context.handlers logs := by
  obtain ⟨hmode, rfl⟩ := failChain_cases hfail
  exact h.degrade (hevents hmode)

/-- A failure of a fetcher that does not end the run takes the chain out at most. -/
theorem Steady.handleFailure (h : pipeline.Steady context.config context.handlers logs)
    {failure : ChainFailure}
    (hdone : Pipeline.handleFailure context failure pipeline = (.ok (), after)) :
    after.Steady context.config context.handlers logs := by
  have hidle : pipeline.Took context.config context.handlers logs [] :=
    ⟨h.sound, h.serves, fun _ hmem => absurd hmem List.not_mem_nil,
      fun _ => ⟨0, fun _ hmem => absurd hmem List.not_mem_nil⟩⟩
  obtain ⟨-, hfail⟩ | ⟨-, -, rfl⟩ := handleFailure_cases hdone
  · exact hidle.failChain (fun _ _ hmem => absurd hmem List.not_mem_nil) hfail
  · exact h

/-! ### One step -/

/-- A unit that does not end the run is committed, or the chain of one of its events fails. Up to
there only what was noted is new, besides the addresses that a committed unit registers. -/
theorem handleUnit_eq_ok (hrepo : context.repo = Repo.inMemory)
    (h : handleUnit context events pipeline = (.ok (), after)) :
    ∃ notes,
      (∃ processed,
        (processed.registrations = [] ∨
          ∃ last, (events.take processed.applied).getLast? = some last ∧
            ∀ registration ∈ processed.registrations,
              registration.IsFor last ∧
                pipeline.registry.watched.get? registration.key = none) ∧
        commitProcessed context events processed
          { pipeline with
            registry := pipeline.registry.extend processed.registrations
            notes := notes } = (.ok (), after)) ∨
      ∃ event ∈ events, ∃ error,
        failChain context event.chain error { pipeline with notes := notes } = (.ok (), after) := by
  obtain ⟨hstore, hspec⟩ :=
    processEvents_spec context.handlers pipeline.registry events pipeline.repo
  generalize hprocessing : processEvents Repo.inMemory context.handlers pipeline.registry events
    pipeline.repo = processing at hstore hspec
  rw [handleUnit_eq pipeline (hrepo ▸ hprocessing), hstore] at h
  refine ⟨pipeline.notes ++ processing.notes, ?_⟩
  cases hresult : processing.result with
  | ok processed =>
    rw [hresult] at h hspec
    obtain ⟨hregistry, hregisters⟩ := hspec
    rw [hregistry] at h
    exact Or.inl ⟨processed, hregisters, h⟩
  | error error =>
    rw [hresult] at h hspec
    obtain ⟨hregistry, event, hevent, cause, rfl⟩ := hspec
    rw [hregistry] at h
    exact Or.inr ⟨event, hevent, _, h⟩

theorem Took.handleUnit (h : pipeline.Took context.config context.handlers logs events)
    (hrepo : context.repo = Repo.inMemory) (hmin : 1 ≤ context.config.minBlocksPerBatch)
    (hpruning : context.config.pruning = none)
    (hunit : Pipeline.handleUnit context events pipeline = (.ok (), after)) :
    after.Steady context.config context.handlers logs := by
  obtain ⟨notes, ⟨processed, hregisters, hcommit⟩ | ⟨event, hevent, error, hfail⟩⟩ :=
    handleUnit_eq_ok hrepo hunit
  · exact h.commit hrepo hmin hpruning hregisters hcommit
  · have hkept : Took { pipeline with notes := notes } context.config context.handlers logs
        events :=
      ⟨h.sound.of_lanes rfl rfl rfl rfl fun _ lane hlane => ⟨lane, hlane, rfl⟩, h.serves,
        h.configured, h.turns⟩
    refine hkept.failChain (fun hunordered other hother => ?_) hfail
    obtain ⟨chain, hchain⟩ := h.turns hunordered
    rw [hchain other hother, hchain event hevent]

/-- A step of a steady pipeline that does not end in an error leaves it steady. -/
theorem Steady.advance (h : pipeline.Steady context.config context.handlers logs)
    (hrepo : context.repo = Repo.inMemory) (hmin : 1 ≤ context.config.minBlocksPerBatch)
    (hpruning : context.config.pruning = none) {status : PipelineStatus}
    (hadvance : Pipeline.advance context pipeline = (.ok status, after)) :
    after.Steady context.config context.handlers logs := by
  obtain ⟨-, -, rfl⟩ | ⟨step, orderer, -, hstep, hdone, -⟩ := advance_eq_ok hadvance
  · exact h
  obtain ⟨hmode, hgives⟩ := Orderer.nextStep_gives h.drain_own h.drain_reorg hstep
  have hidle (hgives : pipeline.orderer.drain.Gives orderer []) :
      { pipeline with orderer := orderer }.Steady context.config context.handlers logs :=
    have htook := h.take hmode hgives fun _ => ⟨0, fun _ hmem => absurd hmem List.not_mem_nil⟩
    ⟨htook.sound, htook.serves⟩
  cases step with
  | unit events => exact (h.take hmode hgives.1 hgives.2).handleUnit hrepo hmin hpruning hdone
  | reorg reorg => exact absurd hgives id
  | failure failure => exact (hidle hgives).handleFailure hdone
  | stopped =>
    cases hdone
    exact hidle hgives
  | finished =>
    cases hdone
    exact hidle hgives
  | blocked awaited =>
    cases hdone
    exact hidle hgives

theorem Steady.goOn (h : pipeline.Steady context.config context.handlers logs)
    (hrepo : context.repo = Repo.inMemory) (hmin : 1 ≤ context.config.minBlocksPerBatch)
    (hpruning : context.config.pruning = none) {awaited : Option (List ChainId)}
    {status : PipelineStatus}
    (hgoes : Pipeline.goOn context awaited pipeline = (.ok status, after)) :
    after.Steady context.config context.handlers logs := by
  obtain hadvance | rfl | ⟨failure, rest, -, hdone⟩ := goOn_eq_ok hgoes
  · exact h.advance hrepo hmin hpruning hadvance
  · exact h
  · have hheard : (pipeline.heard rest).Steady context.config context.handlers logs :=
      ⟨h.sound.of_lanes rfl rfl rfl rfl fun _ lane hlane => ⟨lane, hlane, rfl⟩, h.serves⟩
    exact hheard.handleFailure hdone

end Pipeline

end ChainIndexer
