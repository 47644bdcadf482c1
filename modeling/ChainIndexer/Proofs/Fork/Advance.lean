import ChainIndexer.Proofs.Fork.Settle

/-!
# Steps of pipelines over chains that may be forked

Whatever comes next, a unit, a reorg or a failure, the store can be resumed and the lanes run.
-/

namespace ChainIndexer

theorem RetryPolicy.write_applyRollback (policy : RetryPolicy) (plan : RollbackPlan)
    (store : Store) :
    (policy.write (Repo.inMemory.applyRollback plan) store).repo = store.applyRollback plan := by
  unfold write RetryPolicy.run
  cases policy.limit <;> rfl

namespace Pipeline

variable {context : PipelineContext Store} {pipeline after : Pipeline Store} {config : Config}
  {others : Set Chain}
  {testimony : (chain : ChainId) → Testimony chain} {chain : Chain} {events : List Event}

/-! ### Units -/

theorem reports_unitOf {processed : ProcessedUnit} (now : Int) (registry : Registry)
    (notes : List Json) :
    { pipeline with
      registry := registry
      notes := notes
      orderer := pipeline.orderer.restore (events.drop processed.applied) }.Reports
        (pipeline.unitOf now events processed) (registering events processed) now := by
  refine ⟨rfl, rfl, fun event hevent => ?_⟩
  rw [registering] at hevent
  split at hevent
  next => cases hevent
  next => exact hevent

/-- A unit without anything to store comes from lanes without anything to report. -/
theorem Tracing.progress (h : pipeline.Tracing config others testimony []) {unit : WriteUnit}
    {registering : Option Event} {now : Int} (hreports : pipeline.Reports unit registering now)
    (hevents : unit.rawEvents = []) (hcheckpoints : unit.checkpoints = []) :
    { pipeline with orderer := (pipeline.orderer.progress unit.rawEvents).2.2 }.Tracing config
      others testimony [] := by
  refine h.congr rfl rfl rfl (Table.ext_get? fun id => ?_) rfl
  rw [Orderer.get?_progress, hevents]
  cases hlane : pipeline.orderer.lanes.get? id with
  | none => rfl
  | some lane =>
    rw [Option.map_some]
    refine congrArg some ((Lane.progress_eq_none (Prod.ext ?_ rfl)).2)
    refine Option.eq_none_iff_forall_ne_some.2 fun ⟨progress, recorded⟩ hprogress => ?_
    obtain ⟨hid, chain, hchain, rfl⟩ := h.traces.lanes id lane hlane
    obtain ⟨tracked, htracked, -⟩ := h.traces.tracks chain hchain
    have hreport : pipeline.orderer.report? unit.rawEvents chain.id = some progress := by
      rw [hevents, Orderer.report?, hlane, Option.bind_some, hprogress, Option.map_some]
    have hprogressChain : progress.chain = chain.id :=
      (Lane.reports_progress (Prod.ext hprogress rfl)).1.trans hid
    have hmem : tracked.update (progress.held registering) now ∈ unit.checkpoints := by
      rw [hreports.checkpoints, Orderer.progress_reports]
      refine List.mem_filterMap.2 ⟨progress.held registering, List.mem_map_of_mem
        (List.mem_filterMap.2 ⟨chain.id, List.mem_map.2 ⟨(chain.id, lane),
          Table.mem_entries_iff.2 hlane, rfl⟩, hreport⟩), ?_⟩
      rw [Progress.held_chain, hprogressChain, htracked]
      rfl
    rw [hcheckpoints] at hmem
    cases hmem

theorem Tracing.commit (h : pipeline.Tracing context.config others testimony events)
    (hrepo : context.repo = Repo.inMemory) (hvalid : context.config.validate = .ok ())
    (hpruning : context.config.pruning = none) {processed : ProcessedUnit} {registry : Registry}
    {notes : List Json}
    (hcommit : commitProcessed context events processed
      { pipeline with registry := registry, notes := notes } = (.ok (), after)) :
    after.Tracing context.config others testimony [] := by
  let unit : WriteUnit := pipeline.unitOf context.now events processed
  let restored : Pipeline Store :=
    { pipeline with
      registry := registry
      notes := notes
      orderer := pipeline.orderer.restore (events.drop processed.applied) }
  have hrestored : restored.Tracing context.config others testimony unit.rawEvents := by
    rw [← List.take_append_drop processed.applied events] at h
    exact h.restore.congr rfl rfl rfl rfl rfl
  have hreports : restored.Reports unit (registering events processed) context.now :=
    reports_unitOf context.now registry notes
  rcases commitProcessed_eq_ok hrepo hpruning rfl rfl hcommit with ⟨hempty, rfl⟩ | hafter
  · simp only [WriteUnit.isEmpty, Bool.and_eq_true, List.isEmpty_iff] at hempty
    have hevents : unit.rawEvents = [] := hempty.1.1.1.1.1
    have hcheckpoints : unit.checkpoints = [] := hempty.1.2
    rw [hevents] at hrestored
    exact hrestored.progress hreports hevents hcheckpoints
  · obtain ⟨htraces, hruns⟩ := hrestored.stored hreports
    have hlast := hreports.registering
    generalize registering events processed = found at hafter hruns hlast
    have hstored : { restored.stored unit with registry := registry }.Traces context.config
        others testimony := htraces.of_lanes rfl rfl rfl fun id lane hlane => ⟨lane, hlane, rfl⟩
    cases found with
    | none =>
      rw [hafter]
      refine hstored.tracing fun chain hchain => hruns chain hchain fun found hnone => ?_
      cases hnone
    | some event =>
      -- The chain of the event goes on with a new fetcher, the others as they are.
      obtain ⟨chain, hchain, hid⟩ :=
        hrestored.configured event (List.mem_of_getLast? (hlast event rfl))
      obtain ⟨hstarted, hkept⟩ := hstored.startFetcher hrepo hvalid ⟨chain, hchain, hid⟩ hafter
      refine hstarted.tracing fun other hother => hkept other hother fun hne => ?_
      refine hruns other hother fun found hfound => ?_
      cases hfound
      exact Ne.symm hne

theorem Tracing.handleUnit (h : pipeline.Tracing context.config others testimony events)
    (hrepo : context.repo = Repo.inMemory) (hvalid : context.config.validate = .ok ())
    (hpruning : context.config.pruning = none)
    (hunit : Pipeline.handleUnit context events pipeline = (.ok (), after)) :
    after.Tracing context.config others testimony [] := by
  obtain ⟨notes, ⟨_, -, hcommit⟩ | ⟨event, hevent, _, hfail⟩⟩ := handleUnit_eq_ok hrepo hunit
  · exact h.commit hrepo hvalid hpruning hcommit
  · have hkept : Tracing { pipeline with notes := notes } context.config others testimony
        events := h.congr rfl rfl rfl rfl rfl
    refine hkept.failChain (fun hunordered other hother => ?_) hfail
    obtain ⟨id, hid⟩ := h.turns hunordered
    rw [hid other hother, hid event hevent]

/-! ### Reorgs -/

/-- A reorg is planned for the store and the tracker as they are, and stored as planned. -/
theorem handleReorg_eq_ok (hrepo : context.repo = Repo.inMemory) {reorg : Reorg}
    (h : handleReorg context reorg pipeline = (.ok (), after)) :
    ∃ plan registry,
      Store.PlansFor plan pipeline.repo context.config.mode reorg pipeline.tracker ∧
      Pipeline.startFetchers context ((plan.rewinds.map (·.chain)).filter pipeline.orderer.hasLane)
        { pipeline with
          repo := pipeline.repo.applyRollback plan
          tracker := pipeline.tracker.replace plan.checkpoints
          registry := registry
          rollbacks := pipeline.rollbacks + 1 } = (.ok (), after) := by
  rw [handleReorg, hrepo] at h
  obtain ⟨found, got, hgot, h⟩ := Call.bind_eq_ok h
  cases hgot
  obtain ⟨plan, planned, hplanned, h⟩ := Call.bind_eq_ok h
  rw [onRepo] at hplanned
  generalize hmake : RollbackPlan.make _ _ _ _ _ = outcome at hplanned
  obtain ⟨result, store⟩ := outcome
  cases result with
  | error error => cases hplanned
  | ok made =>
    cases hplanned
    obtain ⟨rfl, hscope, hrewinds, hcheckpoints⟩ := RollbackPlan.make_eq_ok hmake
    obtain ⟨_, written, hwritten, h⟩ := Call.bind_eq_ok h
    have hafter := congrArg Prod.snd hwritten
    have hwrite : write context (Repo.inMemory.applyRollback plan) pipeline =
        (_, { pipeline with repo := pipeline.repo.applyRollback plan }) :=
      Prod.ext rfl (congrArg (fun repo => { pipeline with repo := repo })
        (RetryPolicy.write_applyRollback _ _ _))
    rw [hwrite] at hafter
    obtain ⟨_, tracked, htracked, h⟩ := Call.bind_eq_ok h
    cases htracked
    obtain ⟨registrations, read, hread, h⟩ := Call.bind_eq_ok h
    cases hread
    obtain ⟨_, reloaded, hreloaded, h⟩ := Call.bind_eq_ok h
    cases hreloaded
    obtain ⟨_, got, hgot, h⟩ := Call.bind_eq_ok h
    cases hgot
    cases hafter
    exact ⟨plan, _, ⟨hscope, hrewinds, hcheckpoints⟩, h⟩

variable {reorg : Reorg} {plan : RollbackPlan} {mode : Mode}

/-- Whether a reorg takes the last events of each configured chain, and no event of the other chains
that are to be kept. -/
structure Withstands (pipeline : Pipeline Store) (config : Config) (others : Set Chain)
    (reorg : Reorg) : Prop where
  splits : ∀ chain ∈ config.chains, pipeline.repo.Splits chain config.mode reorg
  others : ∀ chain ∈ others, (∀ configured ∈ config.chains, configured.id ≠ chain.id) →
    ∀ event ∈ pipeline.repo.eventsOf chain.id,
      (RollbackScope.ofReorg config.mode reorg).invalidatesEvent event = false

/-- The safe block of a reorg that a lane tells of is on record, if it is not open. -/
theorem safe_of_announced {lane : Lane} {task : FetcherTask} {taken : List Event}
    (h : lane.Runs task pipeline.repo chain (testimony chain.id) taken)
    (hreorg : lane.reorg = some reorg) :
    reorg.chain = chain.id ∧
      (reorg.safeBlock.number < (pipeline.repo.checkpointOf chain).openBlock →
        ∃ block ∈ pipeline.repo.blocksOf chain.id, block.number = reorg.safeBlock.number) := by
  obtain ⟨hid, block, hblock, hnumber, -⟩ := h.traces.announced reorg (Or.inl hreorg)
  obtain ⟨first, stop, hleads, hascends, -⟩ := h.traces.stretches
  have hfirst := hleads.le
  refine ⟨hid, fun hclosed => ⟨block, ?_, hnumber⟩⟩
  refine (List.mem_append.1 hblock).resolve_right fun hahead => ?_
  rcases List.mem_append.1 hahead with hlane | hcoming
  · have hrange := hleads.blocks _ hlane
    omega
  · have hrange := hascends.blocks _ hcoming
    omega

/-- A rollback leaves each chain where it can be resumed. -/
theorem TracesAt.applyRollback (hat : pipeline.TracesAt chain (testimony chain.id))
    (hkeyed : pipeline.tracker.Keyed)
    (hplan : Store.PlansFor plan pipeline.repo mode reorg pipeline.tracker)
    (hsplits : pipeline.repo.Splits chain mode reorg)
    (hsafe : chain.id = reorg.chain →
      reorg.safeBlock.number < (pipeline.repo.checkpointOf chain).openBlock →
        ∃ block ∈ pipeline.repo.blocksOf chain.id, block.number = reorg.safeBlock.number)
    (hrepo : after.repo = pipeline.repo.applyRollback plan)
    (htracker : after.tracker = pipeline.tracker.replace plan.checkpoints) :
    after.TracesAt chain (testimony chain.id) := by
  obtain ⟨checkpoint, hget, hagrees⟩ := hat.tracks
  obtain ⟨htraces, htracks⟩ :=
    hat.traces.applyRollback hsplits hkeyed hget hagrees hsafe hplan
  rw [← hrepo] at htraces htracks
  rw [← htracker] at htracks
  refine ⟨htraces, ?_, htracks⟩
  rw [hrepo]
  refine (testimony chain.id).mono hat.told ?_ (Store.blocksOf_applyRollback_subset ..)
  rw [Store.eventsOf_applyRollback]
  exact List.filter_subset_self _

theorem Tracing.handleReorg (h : pipeline.Tracing context.config others testimony [])
    (hrepo : context.repo = Repo.inMemory) (hvalid : context.config.validate = .ok ())
    (hwithstands : pipeline.Withstands context.config others reorg)
    (hforked : ∃ chain ∈ context.config.chains, chain.id = reorg.chain)
    (hsafe : ∀ chain ∈ context.config.chains, chain.id = reorg.chain →
      reorg.safeBlock.number < (pipeline.repo.checkpointOf chain).openBlock →
        ∃ block ∈ pipeline.repo.blocksOf chain.id, block.number = reorg.safeBlock.number)
    (hreorg : Pipeline.handleReorg context reorg pipeline = (.ok (), after)) :
    after.Tracing context.config others testimony [] := by
  obtain ⟨plan, registry, hplan, hstart⟩ := handleReorg_eq_ok hrepo hreorg
  have hat : ∀ chain ∈ context.config.chains, TracesAt
      { pipeline with
        repo := pipeline.repo.applyRollback plan
        tracker := pipeline.tracker.replace plan.checkpoints
        registry := registry
        rollbacks := pipeline.rollbacks + 1 } chain (testimony chain.id) := fun chain hchain =>
    (h.traces.at hchain).applyRollback h.traces.keyed hplan (hwithstands.splits chain hchain)
      (hsafe chain hchain) rfl rfl
  refine Traces.startFetchers ⟨⟨fun id checkpoint hget => ?_,
    fun chain hchain => (hat chain hchain).traces, fun chain hchain => (hat chain hchain).told,
    fun chain hchain hother => ?_⟩, fun id checkpoint hget => ?_, fun id checkpoint hget => ?_,
    fun chain hchain => (hat chain hchain).tracks, h.traces.mode, h.traces.lanes⟩ hrepo hvalid
    (fun id hid => ?_) (fun chain hchain hkept => ?_) hstart
  · exact Store.chain_of_get?_putCheckpoints h.traces.store.keyed hget
  · -- A chain that is not configured is not moved back.
    obtain ⟨forked, hconfigured, hid⟩ := hforked
    have hnone : ∀ rewind ∈ plan.rewinds, rewind.chain ≠ chain.id := by
      rw [hplan.rewinds]
      exact Store.no_rewind_of_stays (hid ▸ hother forked hconfigured)
        (hwithstands.others chain hchain hother)
    obtain ⟨hevents, hblocks, hcheckpoint, -⟩ :=
      Store.applyRollback_of_no_rewind hplan h.traces.keyed hnone
    exact ((h.traces.store.others chain hchain hother).congr hevents hblocks hcheckpoint).1
  · exact Store.chain_of_get?_putCheckpoints h.traces.keyed hget
  · by_cases hnone : pipeline.tracker.get? id = none
    · change (Store.putCheckpoints pipeline.tracker.checkpoints plan.checkpoints).get? id = _
        at hget
      rw [hplan.checkpoints, Store.get?_putRewound_of_none h.traces.keyed hnone] at hget
      exact h.traces.tracked id checkpoint hget
    · obtain ⟨tracked, htracked⟩ := Option.ne_none_iff_exists'.1 hnone
      exact h.traces.tracked id tracked htracked
  · obtain ⟨lane, hlane⟩ := Table.contains_iff.1 (List.mem_filter.1 hid).2
    exact (h.traces.lanes id lane hlane).2
  · -- A lane that stays is of a chain that is not moved back.
    have hruns := h.runs chain hchain
    rw [Runs] at hruns ⊢
    dsimp only
    cases hlane : pipeline.orderer.lanes.get? chain.id with
    | none => rfl
    | some lane =>
      rw [hlane] at hruns
      obtain ⟨task, htask, hlaneRuns⟩ := hruns
      have hnone : ∀ rewind ∈ plan.rewinds, rewind.chain ≠ chain.id := by
        intro rewind hrewind hid
        refine hkept (List.mem_filter.2 ⟨List.mem_map.2 ⟨rewind, hrewind, hid⟩, ?_⟩)
        exact Table.contains_iff.2 ⟨lane, hlane⟩
      obtain ⟨hevents, hblocks, hcheckpoint, -⟩ :=
        Store.applyRollback_of_no_rewind hplan h.traces.keyed hnone
      obtain ⟨-, hold, hnew⟩ :=
        (h.traces.store.traces chain hchain).congr hevents hblocks hcheckpoint
      exact ⟨task, htask, hlaneRuns.of_store hevents hold hnew hcheckpoint⟩

/-- A reorg comes from the lane of the chain that was forked. -/
theorem Tracing.lane_of_reorg (h : pipeline.Tracing config others testimony []) {orderer : Orderer}
    (hstep : pipeline.orderer.nextStep = (.reorg reorg, orderer)) :
    { pipeline with orderer := orderer }.Tracing config others testimony [] ∧
      ∃ chain ∈ config.chains, ∃ lane : Lane, ∃ task,
        lane.Runs task pipeline.repo chain (testimony chain.id) [] ∧ lane.reorg = some reorg := by
  have hdrained := h.drain
  obtain ⟨-, id, lane, hlane, hreorg, rfl⟩ := Orderer.nextStep_cases hdrained.own hstep
  refine ⟨?_, ?_⟩
  · exact hdrained.changeAt id (fun lane => lane.takeReorg.2) rfl
      (fun other => Table.get?_modify ..) (fun _ _ => rfl) (fun _ => rfl)
      fun _ _ _ _ task htask hruns => ⟨task, htask, hruns.takeReorg⟩
  · obtain ⟨-, chain, hchain, rfl⟩ := hdrained.traces.lanes id lane hlane
    have hruns := hdrained.runs chain hchain
    rw [Runs, hlane] at hruns
    obtain ⟨task, -, hlaneRuns⟩ := hruns
    exact ⟨chain, hchain, lane, task, hlaneRuns, hreorg⟩

/-- A failure of a fetcher that does not end the run takes the chain out at most. -/
theorem Tracing.handleFailure (h : pipeline.Tracing context.config others testimony [])
    {failure : ChainFailure}
    (hdone : Pipeline.handleFailure context failure pipeline = (.ok (), after)) :
    after.Tracing context.config others testimony [] := by
  obtain ⟨-, hfail⟩ | ⟨-, -, rfl⟩ := handleFailure_cases hdone
  · exact h.failChain (fun _ _ hmem => absurd hmem List.not_mem_nil) hfail
  · exact h

/-! ### One step -/

/-- A step that does not end in an error leaves a store that can be resumed, and lanes that run. -/
theorem Tracing.advance (h : pipeline.Tracing context.config others testimony [])
    (hrepo : context.repo = Repo.inMemory) (hvalid : context.config.validate = .ok ())
    (hpruning : context.config.pruning = none)
    (hwithstands : ∀ reorg orderer, pipeline.orderer.nextStep = (.reorg reorg, orderer) →
      pipeline.Withstands context.config others reorg) {status : PipelineStatus}
    (hadvance : Pipeline.advance context pipeline = (.ok status, after)) :
    after.Tracing context.config others testimony [] := by
  obtain ⟨-, -, rfl⟩ | ⟨step, orderer, -, hstep, hdone, -⟩ := advance_eq_ok hadvance
  · exact h
  have hdrained := h.drain
  obtain ⟨hmode, hgives⟩ := Orderer.nextStep_cases hdrained.own hstep
  have hidle (hgives : pipeline.orderer.drain.Gives orderer []) :
      { pipeline with orderer := orderer }.Tracing context.config others testimony [] :=
    hdrained.take hmode hgives fun _ => ⟨0, fun _ hmem => absurd hmem List.not_mem_nil⟩
  cases step with
  | unit events =>
    exact (hdrained.take hmode hgives.1 hgives.2).handleUnit hrepo hvalid hpruning hdone
  | reorg reorg =>
    obtain ⟨htaken, forked, hforked, lane, task, hruns, hreorg⟩ := h.lane_of_reorg hstep
    obtain ⟨hid, hsafe⟩ := safe_of_announced hruns hreorg
    have hwithstood := hwithstands reorg orderer hstep
    refine htaken.handleReorg hrepo hvalid ⟨hwithstood.splits, hwithstood.others⟩
      ⟨forked, hforked, hid.symm⟩ (fun chain hchain hsame => ?_) hdone
    obtain rfl : chain = forked :=
      List.inj_on_of_nodup_map (Config.validate_eq_ok hvalid).1 hchain hforked (hsame.trans hid)
    exact hsafe
  | failure failure => exact (hidle hgives).handleFailure hdone
  | stopped =>
    cases hdone
    exact hidle hgives
  | finished =>
    cases hdone
    exact hidle hgives
  | blocked awaited =>
    cases hdone
    exact hidle hgives

theorem Tracing.goOn (h : pipeline.Tracing context.config others testimony [])
    (hrepo : context.repo = Repo.inMemory) (hvalid : context.config.validate = .ok ())
    (hpruning : context.config.pruning = none)
    (hwithstands : ∀ reorg orderer, pipeline.orderer.nextStep = (.reorg reorg, orderer) →
      pipeline.Withstands context.config others reorg) {awaited : Option (List ChainId)}
    {status : PipelineStatus}
    (hgoes : Pipeline.goOn context awaited pipeline = (.ok status, after)) :
    after.Tracing context.config others testimony [] := by
  obtain hadvance | rfl | ⟨failure, rest, -, hdone⟩ := goOn_eq_ok hgoes
  · exact h.advance hrepo hvalid hpruning hwithstands hadvance
  · exact h
  · have hheard : (pipeline.heard rest).Tracing context.config others testimony [] :=
      h.congr rfl rfl rfl rfl rfl
    exact hheard.handleFailure hdone

end Pipeline

end ChainIndexer
