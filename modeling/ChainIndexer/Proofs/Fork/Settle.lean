import ChainIndexer.Proofs.Fork.Pipeline

/-!
# Units over chains that may be forked

A unit settles each chain that reports: what the lane of the chain has below the block that the
chain goes on from is stored, and the lane goes on from there.
-/

namespace ChainIndexer

theorem Store.chain_of_get?_putCheckpoints {table : Table ChainId Checkpoint}
    (h : ∀ chain checkpoint, table.get? chain = some checkpoint → checkpoint.chain = chain)
    {checkpoints : List Checkpoint} {chain : ChainId} {checkpoint : Checkpoint}
    (hget : (putCheckpoints table checkpoints).get? chain = some checkpoint) :
    checkpoint.chain = chain := by
  rw [putCheckpoints, Table.get?_insertAll, Option.or_eq_some_iff] at hget
  rcases hget with hnew | ⟨-, hold⟩
  · obtain ⟨entry, hfind, rfl⟩ := Option.map_eq_some_iff.1 hnew
    have hkey : entry.1 = chain := by simpa using List.find?_some hfind
    obtain ⟨stored, -, rfl⟩ := List.mem_map.1 (List.mem_reverse.1 (List.mem_of_find?_eq_some hfind))
    exact hkey
  · exact h chain checkpoint hold

/-! ### Reports -/

section Reports

variable {lane after : Lane} {committed : List Event} {progress : Progress}
  {recorded : List RecordedBlock}

/-- Whether a lane reports all that it has processed, and keeps the blocks beyond that. -/
structure Lane.Settled (lane : Lane) (committed : List Event) (progress : Progress)
    (recorded : List RecordedBlock) (after : Lane) : Prop where
  chain : progress.chain = lane.chain
  processed : progress.processed = lane.processed
  position : progress.position = committed.getLast?.map Event.position
  recorded : ∀ block, ⟨lane.chain, block⟩ ∈ recorded ↔
    block ∈ lane.unrecorded ∧ block.number < openAfter lane.processed
  rest : after = { lane with hasNewProgress := false, unrecorded := after.unrecorded }
  sublist : after.unrecorded.Sublist lane.unrecorded
  unrecorded : ∀ block, block ∈ after.unrecorded ↔
    block ∈ lane.unrecorded ∧ ¬ block.number < openAfter lane.processed

theorem Lane.settled_of_progress
    (h : lane.progress committed = (some (progress, recorded), after)) :
    lane.Settled committed progress recorded after := by
  obtain ⟨rfl, rfl, rfl⟩ := progress_eq_some h
  refine ⟨rfl, rfl, rfl, fun block => ?_, rfl, List.filter_sublist, fun block => ?_⟩
  · rw [← lt_openAfter_iff, ← List.mem_filter (p := fun block : Block =>
      lane.processed.any (block.number ≤ ·))]
    constructor
    · intro hmem
      obtain ⟨other, hother, heq⟩ := List.mem_map.1 hmem
      cases heq
      exact hother
    · exact fun hmem => List.mem_map.2 ⟨block, hmem, rfl⟩
  · rw [← lt_openAfter_iff, List.mem_filter, Bool.not_eq_true', Bool.not_eq_true]

namespace Orderer

variable {orderer : Orderer} {id : ChainId}

/-- The blocks that are recorded for a chain are those that its lane reports. -/
theorem mem_progress_blocks_iff
    (hlanes : ∀ id lane, orderer.lanes.get? id = some lane → lane.chain = id) {block : Block} :
    ⟨id, block⟩ ∈ (orderer.progress committed).2.1 ↔
      ∃ lane report, orderer.lanes.get? id = some lane ∧
        (lane.progress (committed.filter (·.chain = id))).1 = some report ∧
        ⟨id, block⟩ ∈ report.2 := by
  constructor
  · intro hmem
    obtain ⟨report, hreport, hrecorded⟩ := List.mem_flatMap.1 hmem
    obtain ⟨⟨other, lane⟩, hentry, hprogress⟩ := List.mem_filterMap.1 hreport
    have hlane := Table.mem_entries_iff.1 hentry
    have hchain : id = lane.chain := (Lane.mem_progress_recorded hprogress hrecorded).1
    obtain rfl : id = other := hchain.trans (hlanes other lane hlane)
    exact ⟨lane, report, hlane, hprogress, hrecorded⟩
  · rintro ⟨lane, report, hlane, hprogress, hrecorded⟩
    exact List.mem_flatMap.2 ⟨report, List.mem_filterMap.2
      ⟨(id, lane), Table.mem_entries_iff.2 hlane, hprogress⟩, hrecorded⟩

end Orderer

end Reports

/-! ### Units -/

namespace Pipeline

variable {pipeline : Pipeline Store} {config : Config}
  {others : Set Chain}
  {testimony : (chain : ChainId) → Testimony chain} {chain : Chain} {unit : WriteUnit}
  {registering : Option Event} {now : Int}

/-- Whether a unit stores what the lanes report, held back before an event that registers. -/
structure Reports (pipeline : Pipeline Store) (unit : WriteUnit) (registering : Option Event)
    (now : Int) : Prop where
  checkpoints : unit.checkpoints = pipeline.tracker.updated
    ((pipeline.orderer.progress unit.rawEvents).1.map (Progress.held registering)) now
  blocks : unit.blocks = (pipeline.orderer.progress unit.rawEvents).2.1.filter fun recorded =>
    registering.all recorded.isBefore
  registering : ∀ event ∈ registering, unit.rawEvents.getLast? = some event

/-- Whether the store and the tracker of a pipeline allow to resume a chain. -/
structure TracesAt (pipeline : Pipeline Store) (chain : Chain) (testimony : Testimony chain.id) :
    Prop where
  traces : pipeline.repo.Traces chain
  told : testimony.Tells (pipeline.repo.eventsOf chain.id) (pipeline.repo.blocksOf chain.id)
  tracks : ∃ checkpoint, pipeline.tracker.get? chain.id = some checkpoint ∧
    checkpoint.AgreesWith (pipeline.repo.checkpointOf chain)

theorem Traces.at (h : pipeline.Traces config others testimony) (hchain : chain ∈ config.chains) :
    pipeline.TracesAt chain (testimony chain.id) :=
  ⟨h.store.traces chain hchain, h.store.told chain hchain, h.tracks chain hchain⟩

namespace Tracing

theorem checkpoints (h : pipeline.Tracing config others testimony unit.rawEvents)
    (hreports : pipeline.Reports unit registering now) (id : ChainId) :
    (pipeline.repo.write unit).checkpoints.get? id =
        (pipeline.orderer.checkpoint? unit.rawEvents registering pipeline.tracker now id).or
          (pipeline.repo.checkpoints.get? id) ∧
      (pipeline.tracker.replace unit.checkpoints).get? id =
        (pipeline.orderer.checkpoint? unit.rawEvents registering pipeline.tracker now id).or
          (pipeline.tracker.get? id) := by
  have hlanes := fun chain lane hlane => (h.traces.lanes chain lane hlane).1
  rw [Tracker.replace, Tracker.get?, hreports.checkpoints]
  refine ⟨?_, Orderer.get?_insertAll_updated _ h.traces.keyed hlanes registering now⟩
  change (Store.putCheckpoints _ unit.checkpoints).get? id = _
  rw [Store.putCheckpoints, hreports.checkpoints]
  exact Orderer.get?_insertAll_updated _ h.traces.keyed hlanes registering now

/-- A unit leaves alone what is stored of a chain that has nothing to report. -/
theorem untouched (h : pipeline.Tracing config others testimony unit.rawEvents)
    (hreports : pipeline.Reports unit registering now)
    (hnil : unit.rawEvents.filter (·.chain = chain.id) = [])
    (hidle : ∀ lane, pipeline.orderer.lanes.get? chain.id = some lane →
      (lane.progress (unit.rawEvents.filter (·.chain = chain.id))).1 = none) :
    (pipeline.repo.write unit).eventsOf chain.id = pipeline.repo.eventsOf chain.id ∧
      (∀ number, (pipeline.repo.write unit).blocks.get? ⟨chain.id, number⟩ =
        pipeline.repo.blocks.get? ⟨chain.id, number⟩) ∧
      (pipeline.repo.write unit).checkpointOf chain = pipeline.repo.checkpointOf chain ∧
      (pipeline.tracker.replace unit.checkpoints).get? chain.id =
        pipeline.tracker.get? chain.id := by
  have hreport : pipeline.orderer.report? unit.rawEvents chain.id = none := by
    rw [Orderer.report?]
    cases hlane : pipeline.orderer.lanes.get? chain.id with
    | none => rfl
    | some lane => rw [Option.bind_some, hidle lane hlane, Option.map_none]
  obtain ⟨hstored, htracked⟩ := h.checkpoints hreports chain.id
  rw [Orderer.checkpoint?, hreport, Option.bind_none, Option.none_or] at hstored htracked
  refine ⟨?_, fun number => ?_, ?_, htracked⟩
  · rw [Store.eventsOf_write, hnil, List.append_nil]
  · refine Table.get?_insertAll_of_not_mem fun hmem => ?_
    rw [List.map_map] at hmem
    obtain ⟨⟨id, block⟩, hrecorded, heq⟩ := List.mem_map.1 hmem
    cases heq
    rw [hreports.blocks] at hrecorded
    obtain ⟨lane, report, hlane, hprogress, -⟩ :=
      (Orderer.mem_progress_blocks_iff fun id lane hlane => (h.traces.lanes id lane hlane).1).1
        (List.mem_of_mem_filter hrecorded)
    rw [hidle lane hlane] at hprogress
    cases hprogress
  · rw [Store.checkpointOf, hstored, Store.checkpointOf]

/-- A chain that has nothing to report stays where it can be resumed. -/
theorem idle (h : pipeline.Tracing config others testimony unit.rawEvents)
    (hreports : pipeline.Reports unit registering now) (hchain : chain ∈ config.chains)
    (hidle : ∀ lane, pipeline.orderer.lanes.get? chain.id = some lane →
      (lane.progress (unit.rawEvents.filter (·.chain = chain.id))).1 = none) :
    (pipeline.stored unit).TracesAt chain (testimony chain.id) ∧
      (pipeline.stored unit).Runs testimony chain [] := by
  have hruns := h.runs chain hchain
  have hnil : unit.rawEvents.filter (·.chain = chain.id) = [] := by
    rw [Runs] at hruns
    cases hlane : pipeline.orderer.lanes.get? chain.id with
    | none =>
      rw [hlane] at hruns
      exact hruns
    | some lane => exact (Lane.progress_eq_none (Prod.ext (hidle lane hlane) rfl)).1
  obtain ⟨hevents, hblocks, hcheckpoint, htracked⟩ := h.untouched hreports hnil hidle
  have hat := h.traces.at hchain
  obtain ⟨htraces, hold, hnew⟩ := hat.traces.congr hevents hblocks hcheckpoint
  refine ⟨⟨htraces, ?_, ?_⟩, ?_⟩
  · change (testimony chain.id).Tells ((pipeline.repo.write unit).eventsOf chain.id) _
    rw [hevents]
    exact (testimony chain.id).mono hat.told (fun _ hmem => hmem) hold
  · obtain ⟨checkpoint, hget, hagrees⟩ := hat.tracks
    refine ⟨checkpoint, htracked.trans hget, ?_⟩
    change checkpoint.AgreesWith ((pipeline.repo.write unit).checkpointOf chain)
    rwa [hcheckpoint]
  · have hlanes : (pipeline.stored unit).orderer.lanes.get? chain.id =
        (pipeline.orderer.lanes.get? chain.id).map fun lane =>
          (lane.progress (unit.rawEvents.filter (·.chain = chain.id))).2 :=
      Orderer.get?_progress ..
    rw [Runs] at hruns ⊢
    rw [hlanes]
    cases hlane : pipeline.orderer.lanes.get? chain.id with
    | none => rfl
    | some lane =>
      rw [hlane, hnil] at hruns
      obtain ⟨task, htask, hlaneRuns⟩ := hruns
      have hsame : (lane.progress (unit.rawEvents.filter (·.chain = chain.id))).2 = lane :=
        (Lane.progress_eq_none (Prod.ext (hidle lane hlane) rfl)).2
      refine ⟨task, htask, ?_⟩
      dsimp only
      rw [hsame]
      exact hlaneRuns.of_store hevents hold hnew hcheckpoint

/-- What a lane reports is settled at the block that its chain goes on from. -/
theorem settles (h : pipeline.Tracing config others testimony unit.rawEvents)
    (hreports : pipeline.Reports unit registering now) (hchain : chain ∈ config.chains)
    {lane after : Lane} (hlane : pipeline.orderer.lanes.get? chain.id = some lane)
    {progress : Progress} {recorded : List RecordedBlock}
    (hprogress : lane.progress (unit.rawEvents.filter (·.chain = chain.id)) =
      (some (progress, recorded), after)) :
    unit.Settles pipeline.repo chain lane (openAfter (progress.held registering).processed) ∧
      ∃ checkpoint, (pipeline.tracker.replace unit.checkpoints).get? chain.id = some checkpoint ∧
        checkpoint.AgreesWith ((pipeline.repo.write unit).checkpointOf chain) := by
  have hsettled := Lane.settled_of_progress hprogress
  have hlaneChain : lane.chain = chain.id := (h.traces.lanes chain.id lane hlane).1
  have hprogressChain : progress.chain = chain.id := hsettled.chain.trans hlaneChain
  obtain ⟨tracked, htracked, hagrees⟩ := h.traces.tracks chain hchain
  obtain ⟨hstored, hreplaced⟩ := h.checkpoints hreports chain.id
  have hreport : pipeline.orderer.report? unit.rawEvents chain.id = some progress := by
    rw [Orderer.report?, hlane, Option.bind_some, hprogress, Option.map_some]
  rw [Orderer.checkpoint?, hreport, Option.bind_some, htracked, Option.map_some,
    Option.some_or] at hstored hreplaced
  have hupdated : (pipeline.repo.write unit).checkpointOf chain =
      tracked.update (progress.held registering) now := by
    rw [Store.checkpointOf, hstored, Option.getD_some]
  refine ⟨⟨fun block => ?_, ?_, ?_, fun last hlast => ?_⟩, _, hreplaced,
    hupdated ▸ ⟨rfl, rfl, rfl, rfl, rfl⟩⟩
  · rw [hreports.blocks, List.mem_filter, Orderer.mem_progress_blocks_iff fun id lane hlane =>
      (h.traces.lanes id lane hlane).1, Progress.openAfter_held, hprogressChain,
      hsettled.processed]
    have hreported : (∃ other report, pipeline.orderer.lanes.get? chain.id = some other ∧
        (other.progress (unit.rawEvents.filter (·.chain = chain.id))).1 = some report ∧
        ⟨chain.id, block⟩ ∈ report.2) ↔
          block ∈ lane.unrecorded ∧ block.number < openAfter lane.processed := by
      rw [← hsettled.recorded, hlaneChain]
      constructor
      · rintro ⟨other, report, hother, hsame, hmem⟩
        rw [hlane] at hother
        cases hother
        rw [hprogress] at hsame
        cases hsame
        exact hmem
      · exact fun hmem => ⟨lane, _, hlane, congrArg Prod.fst hprogress, hmem⟩
    rw [hreported]
    cases registering with
    | none => simp
    | some event =>
      rw [Option.all_some, RecordedBlock.isBefore, decide_eq_true_eq]
      dsimp only
      split
      next hsame =>
        rw [Nat.lt_min, and_assoc]
        simp [hsame]
      next hother => simp [hother]
  · rw [hupdated]
    exact hagrees.startBlock
  · rw [hupdated, Checkpoint.openBlock_update, hagrees.openBlock]
  · rw [hupdated] at hlast
    rcases Checkpoint.max_position_eq_some hlast with hold | hnew
    · exact Or.inl (hagrees.position ▸ hold)
    · rw [((Lane.reports_progress hprogress).2.held registering).position,
        Option.map_eq_some_iff] at hnew
      obtain ⟨event, hevent, rfl⟩ := hnew
      exact Or.inr ⟨event, List.mem_of_getLast? hevent, rfl⟩

/-- The block that a chain goes on from is done with: nothing of the chain is left below. -/
theorem cutsAt (h : pipeline.Tracing config others testimony unit.rawEvents)
    (hreports : pipeline.Reports unit registering now) (hchain : chain ∈ config.chains)
    {lane : Lane} {task : FetcherTask}
    (hruns : lane.Runs task pipeline.repo chain (testimony chain.id)
      (unit.rawEvents.filter (·.chain = chain.id))) {progress : Progress}
    (hprogressChain : progress.chain = chain.id)
    (hprocessed : progress.processed = lane.processed) :
    lane.CutsAt task chain (pipeline.repo.checkpointOf chain).openBlock
      (pipeline.repo.blocksOf chain.id) (unit.rawEvents.filter (·.chain = chain.id))
      (openAfter (progress.held registering).processed) := by
  have hall := hruns.traces.cutsAt_processed (h.traces.store.traces chain hchain).resumable
  rw [Progress.openAfter_held, hprogressChain, hprocessed]
  cases hregistering : registering with
  | none => exact hall
  | some event =>
    dsimp only
    split
    next hsame =>
      refine hruns.traces.cutsAt_last ?_
      obtain ⟨before, hbefore⟩ :=
        List.getLast?_eq_some_iff.1 (hreports.registering event hregistering)
      rw [hbefore, List.filter_append, List.filter_singleton, decide_eq_true hsame.symm]
      exact List.getLast?_concat ..
    next => exact hall

/-- A unit leaves a chain that reports where it can be resumed, and its lane goes on from there,
unless the chain has new addresses. -/
theorem reported (h : pipeline.Tracing config others testimony unit.rawEvents)
    (hreports : pipeline.Reports unit registering now) (hchain : chain ∈ config.chains)
    {lane after : Lane} (hlane : pipeline.orderer.lanes.get? chain.id = some lane)
    {progress : Progress} {recorded : List RecordedBlock}
    (hprogress : lane.progress (unit.rawEvents.filter (·.chain = chain.id)) =
      (some (progress, recorded), after)) :
    (pipeline.stored unit).TracesAt chain (testimony chain.id) ∧
      ((∀ event ∈ registering, event.chain ≠ chain.id) →
        (pipeline.stored unit).Runs testimony chain []) := by
  have hsettled := Lane.settled_of_progress hprogress
  have hprogressChain : progress.chain = chain.id :=
    hsettled.chain.trans (h.traces.lanes chain.id lane hlane).1
  have hruns := h.runs chain hchain
  rw [Runs, hlane] at hruns
  obtain ⟨task, htask, hlaneRuns⟩ := hruns
  obtain ⟨hsettles, htracks⟩ := h.settles hreports hchain hlane hprogress
  have hcut := h.cutsAt hreports hchain hlaneRuns hprogressChain hsettled.processed
  have hstore := h.traces.store.traces chain hchain
  have htold := hlaneRuns.told
  have hmem := hsettles.mem_blocksOf_iff hstore hlaneRuns.traces
  have hstored : (pipeline.repo.write unit).eventsOf chain.id =
      pipeline.repo.eventsOf chain.id ++ unit.rawEvents.filter (·.chain = chain.id) :=
    Store.eventsOf_write ..
  have hblocks : (pipeline.repo.write unit).blocksOf chain.id ⊆
      pipeline.repo.blocksOf chain.id ++ lane.aheadBlocks task := by
    intro block hblock
    rcases (hmem block).1 hblock with hold | ⟨hnew, -⟩
    · exact List.mem_append_left _ hold
    · exact List.mem_append_right _ (List.mem_append_left _ hnew)
  refine ⟨⟨hstore.write hlaneRuns.traces hcut hsettles,
    (testimony chain.id).mono htold ?_ hblocks, htracks⟩, fun hother => ?_⟩
  · change (pipeline.repo.write unit).eventsOf chain.id ⊆ _
    rw [hstored, ← List.append_assoc]
    exact List.subset_append_left _ _
  have hlanes : (pipeline.stored unit).orderer.lanes.get? chain.id = some after := by
    refine (Orderer.get?_progress ..).trans ?_
    rw [hlane, Option.map_some, hprogress]
  have hall : openAfter (progress.held registering).processed = openAfter lane.processed := by
    rw [Progress.openAfter_held, hsettled.processed]
    cases registering with
    | none => rfl
    | some event =>
      dsimp only
      rw [if_neg fun hsame => hother event rfl (hsame.symm.trans hprogressChain)]
  have hunrecorded := hsettled.unrecorded
  have hafter := hsettled.rest
  rw [← hall] at hunrecorded
  have hsameChain : after.chain = lane.chain := by rw [hafter]
  obtain ⟨htraces, hahead, haheadBlocks⟩ := hlaneRuns.traces.settle hstore hsettles hcut.le
    hsameChain (by rw [hafter]) (by rw [hafter]) (by rw [hafter]) (by rw [hafter])
    hsettled.sublist hunrecorded
  rw [Runs, hlanes]
  refine ⟨task, htask, htraces, (testimony chain.id).mono htold (fun event hevent => ?_) ?_,
    fun reorg hannounced => hlaneRuns.vouched reorg ?_⟩
  · change event ∈ (pipeline.repo.write unit).eventsOf chain.id ++ ([] ++ after.ahead task)
      at hevent
    rwa [hstored, List.nil_append, hahead, List.append_assoc] at hevent
  · exact List.append_subset.2 ⟨hblocks, fun block hblock =>
      List.mem_append_right _ (haheadBlocks hblock)⟩
  · rw [hafter] at hannounced
    exact hannounced

/-- What a unit leaves behind can be resumed. -/
theorem stored (h : pipeline.Tracing config others testimony unit.rawEvents)
    (hreports : pipeline.Reports unit registering now) :
    (pipeline.stored unit).Traces config others testimony ∧ ∀ chain ∈ config.chains,
      (∀ event ∈ registering, event.chain ≠ chain.id) →
        (pipeline.stored unit).Runs testimony chain [] := by
  have hspec : ∀ chain ∈ config.chains,
      (pipeline.stored unit).TracesAt chain (testimony chain.id) ∧
        ((∀ event ∈ registering, event.chain ≠ chain.id) →
          (pipeline.stored unit).Runs testimony chain []) := by
    intro chain hchain
    by_cases hidle : ∀ lane, pipeline.orderer.lanes.get? chain.id = some lane →
        (lane.progress (unit.rawEvents.filter (·.chain = chain.id))).1 = none
    · obtain ⟨hat, hruns⟩ := h.idle hreports hchain hidle
      exact ⟨hat, fun _ => hruns⟩
    · push Not at hidle
      obtain ⟨lane, hlane, hreport⟩ := hidle
      obtain ⟨⟨progress, recorded⟩, hprogress⟩ := Option.ne_none_iff_exists'.1 hreport
      exact h.reported hreports hchain hlane (Prod.ext hprogress rfl)
  refine ⟨⟨⟨fun id checkpoint hget => ?_, fun chain hchain => (hspec chain hchain).1.traces,
    fun chain hchain => (hspec chain hchain).1.told, fun chain hchain hother => ?_⟩,
    fun id checkpoint hget => ?_, fun id checkpoint hget => ?_,
    fun chain hchain => (hspec chain hchain).1.tracks, h.traces.mode, fun id lane hget => ?_⟩,
    fun chain hchain => (hspec chain hchain).2⟩
  · exact Store.chain_of_get?_putCheckpoints h.traces.store.keyed hget
  · -- Nothing of a unit is of a chain that is not configured.
    have hnil : unit.rawEvents.filter (·.chain = chain.id) = [] := by
      refine List.filter_eq_nil_iff.2 fun event hevent hid => ?_
      obtain ⟨configured, hconfigured, hsame⟩ := h.configured event hevent
      exact hother configured hconfigured (hsame.trans (of_decide_eq_true hid))
    obtain ⟨hevents, hblocks, hcheckpoint, -⟩ := h.untouched hreports hnil fun lane hlane => by
      obtain ⟨-, configured, hconfigured, hsame⟩ := h.traces.lanes chain.id lane hlane
      exact absurd hsame (hother configured hconfigured)
    exact ((h.traces.store.others chain hchain hother).congr hevents hblocks hcheckpoint).1
  · exact Store.chain_of_get?_putCheckpoints h.traces.keyed hget
  · have hold := (h.checkpoints hreports id).2
    change (pipeline.tracker.replace unit.checkpoints).get? id = some checkpoint at hget
    rw [hold, Option.or_eq_some_iff] at hget
    rcases hget with hnew | ⟨-, hkept⟩
    · obtain ⟨progress, -, hupdated⟩ := Option.bind_eq_some_iff.1 hnew
      obtain ⟨tracked, htracked, -⟩ := Option.map_eq_some_iff.1 hupdated
      exact h.traces.tracked id tracked htracked
    · exact h.traces.tracked id checkpoint hkept
  · change (pipeline.orderer.progress unit.rawEvents).2.2.lanes.get? id = some lane at hget
    rw [Orderer.get?_progress, Option.map_eq_some_iff] at hget
    obtain ⟨before, hbefore, rfl⟩ := hget
    rw [Lane.progress_chain]
    exact h.traces.lanes id before hbefore

end Tracing

end Pipeline

end ChainIndexer
