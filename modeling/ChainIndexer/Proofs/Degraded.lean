import ChainIndexer.Proofs.Fork.Rollback
import ChainIndexer.Proofs.Pipeline.Own
import ChainIndexer.Proofs.Release.Stranded

/-!
# Chains that are left behind

A unit that cannot be processed leaves nothing behind but the mark of its chain: what is stored and
what is in memory stays, and so do the other chains. The chain has no lane any more, and without a
lane nothing of it is committed later, whatever its old fetcher still reports.
-/

namespace ChainIndexer

variable {τ σ : Type} {id : ChainId} {store pruned : Store}

/-! ### What is stored of other chains -/

theorem Store.eventsOf_prune {chain : ChainId} (h : id ≠ chain) (minBlock : Nat) :
    (store.prune chain minBlock).eventsOf id = store.eventsOf id := by
  rw [eventsOf, prune, List.filter_filter, eventsOf]
  refine List.filter_congr fun event _ => ?_
  by_cases hevent : event.chain = id
  · simp [hevent, h]
  · simp [hevent]

namespace Pipeline

variable {context : PipelineContext σ} {view : σ → Store} {before after last : Pipeline σ}
  {events : List Event} {processed : ProcessedUnit} {orderer : Orderer}
  {P : ChainId → Standing → Prop} {T : Checkpoint → Prop}

theorem Prunes.eventsOf {ids : List ChainId} (h : Prunes Repo.inMemory ids store pruned)
    (hid : id ∉ ids) : pruned.eventsOf id = store.eventsOf id := by
  induction h with
  | nil => rfl
  | skip _ ih => exact ih fun hmem => hid (List.mem_cons_of_mem _ hmem)
  | @prune chain minBlock _ _ _ _ hprune _ ih =>
    cases hprune
    rw [ih fun hmem => hid (List.mem_cons_of_mem _ hmem)]
    refine Store.eventsOf_prune (fun heq => hid ?_) minBlock
    rw [heq]
    exact List.mem_cons_self

/-- Whether nothing changes of what is stored and tracked of a chain. -/
structure LeavesAlone (view : σ → Store) (id : ChainId) (before after : Pipeline σ) : Prop where
  events : (view after.repo).eventsOf id = (view before.repo).eventsOf id
  stored : (view after.repo).checkpoints.get? id = (view before.repo).checkpoints.get? id
  tracked : after.tracker.get? id = before.tracker.get? id

theorem LeavesAlone.of_view (hview : view after.repo = view before.repo)
    (htracker : after.tracker = before.tracker) : LeavesAlone view id before after := by
  refine ⟨?_, ?_, ?_⟩
  · rw [hview]
  · rw [hview]
  · rw [htracker]

theorem LeavesAlone.trans (h : LeavesAlone view id before after)
    (h' : LeavesAlone view id after last) : LeavesAlone view id before last :=
  ⟨h'.events.trans h.events, h'.stored.trans h.stored, h'.tracked.trans h.tracked⟩

/-- Only chains with lanes report. -/
theorem Upholds.lane_of_report (h : before.Upholds context.config view P T)
    (hP : Upheld context.config.chains P T) (hgives : before.orderer.drain.Gives orderer events)
    {progress : Progress} (hprogress : progress ∈ (report orderer events processed).1) :
    ∃ lane, before.orderer.lanes.get? progress.chain = some lane := by
  rw [report, Orderer.progress_reports] at hprogress
  obtain ⟨chain, -, hreport⟩ := List.mem_filterMap.1 hprogress
  obtain ⟨restored, hrestored, hreported⟩ := Option.bind_eq_some_iff.1 hreport
  obtain ⟨⟨found, recorded⟩, hfound, rfl⟩ := Option.map_eq_some_iff.1 hreported
  obtain ⟨-, hnone⟩ | ⟨lane, rest, hlane, -, hgot⟩ := get?_report hgives processed chain
  · rw [hnone] at hrestored
    cases hrestored
  · rw [hgot] at hrestored
    cases hrestored
    obtain ⟨task, tracked, -, -, hholds⟩ := h.stands chain lane hlane
    have hchain : found.chain = chain :=
      (Lane.reports_progress (Prod.ext hfound rfl)).1.trans (hP.chain (hP.drain hholds))
    exact ⟨lane, hchain ▸ hlane⟩

theorem mem_degrade {chain : ChainId} (h : id ∈ before.degraded) :
    id ∈ (degrade chain before).degraded := by
  change id ∈ (if chain ∈ before.degraded then _ else _)
  split
  next => exact h
  next => exact List.mem_append_left _ h

/-- A chain without a lane reports nothing, and no event of a unit is of it. -/
theorem Upholds.commit_leavesAlone
    (hbefore : before.Upholds context.config view Standing.IsOf fun _ => True)
    (hlane : before.orderer.lanes.get? id = none)
    (hgives : before.orderer.drain.Gives orderer events) {unit : WriteUnit}
    (hunit : unit = { before with orderer := orderer }.unitOf context.now events processed)
    {repo pruned : σ} {started : Pipeline σ} {schedule : PruningSchedule}
    (hwrite : Repo.inMemory.commit unit (view before.repo) = (.ok (), view repo))
    (hview : view started.repo = view repo)
    (htracker : started.tracker = before.tracker.replace unit.checkpoints)
    (hprunes : Prunes Repo.inMemory ((report orderer events processed).1.map (·.chain))
      (view started.repo) (view pruned)) :
    LeavesAlone view id before { started with repo := pruned, schedule := schedule } := by
  have hP := Standing.IsOf.upheld context.config.chains
  have hstored := Repo.inMemory_commit_eq_ok hwrite
  rw [hview] at hprunes
  have hnone : checkpoint? context before orderer events processed id = none := by
    obtain ⟨-, hafter⟩ | ⟨lane, _, hfound, -, -⟩ := get?_report hgives processed id
    · rw [checkpoint?, Orderer.checkpoint?, Orderer.report?, hafter]
      rfl
    · rw [hlane] at hfound
      cases hfound
  have hreports : id ∉ (report orderer events processed).1.map (·.chain) := by
    intro hmem
    obtain ⟨progress, hprogress, rfl⟩ := List.mem_map.1 hmem
    obtain ⟨lane, hsome⟩ := hbefore.lane_of_report hP hgives hprogress
    rw [hlane] at hsome
    cases hsome
  have hnew : unit.rawEvents.filter (·.chain = id) = [] := by
    rw [hunit]
    refine List.filter_eq_nil_iff.2 fun event hevent => ?_
    exact List.filter_eq_nil_iff.1 (events_of_no_lane hlane hgives) event
      (List.mem_of_mem_take hevent)
  refine ⟨?_, ?_, ?_⟩
  · refine (hprunes.eventsOf hreports).trans ?_
    rw [hstored, Store.eventsOf_write, hnew, List.append_nil]
  · have hthen := hbefore.get?_commit hP hgives processed (view before.repo).checkpoints id
    rw [hnone, Option.none_or, ← hunit] at hthen
    rw [← hthen]
    refine congrArg (·.get? id) (hprunes.checkpoints.trans ?_)
    exact congrArg Store.checkpoints hstored
  · have hnow := hbefore.get?_commit hP hgives processed before.tracker.checkpoints id
    rw [hnone, Option.none_or, ← hunit] at hnow
    exact (congrArg (·.get? id) htracker).trans hnow

/-- Unless chains are ordered, a rollback goes no further than its own chain. -/
theorem rollback_leavesAlone (hmode : context.config.mode = .unordered) {reorg : Reorg}
    {plan : RollbackPlan} {repo : σ}
    (hkeyed : ∀ id checkpoint, before.tracker.get? id = some checkpoint → checkpoint.chain = id)
    (hother : id ≠ reorg.chain)
    (hplan : RollbackPlan.make Repo.inMemory context.config.mode reorg before.tracker
      (view before.repo) = (.ok plan, view before.repo))
    (hwrite : Repo.inMemory.applyRollback plan (view before.repo) = (.ok (), view repo))
    (hview : view after.repo = view repo)
    (htracker : after.tracker = before.tracker.replace plan.checkpoints) :
    LeavesAlone view id before after := by
  have hstored : view repo = (view before.repo).applyRollback plan :=
    (Prod.mk.inj hwrite).2.symm
  obtain ⟨hscope, hrewinds, hcheckpoints⟩ := RollbackPlan.eq_of_make hplan
  have hown : plan.scope = .chain reorg.chain reorg.safeBlock.number := by
    rw [hscope, hmode, RollbackScope.ofReorg]
  have hnot : id ∉ (plan.checkpoints.map fun checkpoint => (checkpoint.chain, checkpoint)).map
      (·.1) := by
    rw [hcheckpoints]
    intro hmem
    have hrewound := mem_rewound_chain hkeyed hmem
    rw [hrewinds, hmode] at hrewound
    exact hother (List.mem_singleton.1 hrewound)
  refine ⟨?_, ?_, ?_⟩
  · rw [hview, hstored, Store.eventsOf_applyRollback]
    refine List.filter_eq_self.2 fun event hevent => ?_
    have hchain : event.chain = id := of_decide_eq_true (List.mem_filter.1 hevent).2
    rw [hown, RollbackScope.invalidatesEvent, RollbackScope.invalidates, hchain]
    simp [hother]
  · rw [hview, hstored]
    exact Table.get?_insertAll_of_not_mem hnot
  · rw [htracker]
    exact Table.get?_insertAll_of_not_mem hnot

/-- No step touches a chain that is left behind. -/
theorem Step.leavesAlone {status : PipelineStatus}
    (h : Step context Repo.inMemory view before status after)
    (hmode : context.config.mode = .unordered)
    (hbefore : before.Upholds context.config view Standing.IsOf fun _ => True)
    (hid : id ∈ before.degraded) :
    LeavesAlone view id before after ∧ id ∈ after.degraded := by
  have hP := Standing.IsOf.upheld context.config.chains
  have hown := hbefore.own hP
  have hlane : before.orderer.lanes.get? id = none := by
    rw [← Option.not_isSome_iff_eq_none, hbefore.lanes id]
    exact fun hlisted => hlisted.2 hid
  cases h with
  | halted => exact ⟨.of_view rfl rfl, hid⟩
  | rested => exact ⟨.of_view rfl rfl, hid⟩
  | ignored => exact ⟨.of_view rfl rfl, hid⟩
  | lost => exact ⟨.of_view rfl rfl, mem_degrade hid⟩
  | gaveUp _ _ _ hview => exact ⟨.of_view hview rfl, mem_degrade hid⟩
  | idle _ _ hview => exact ⟨.of_view hview rfl, hid⟩
  | committed hstep hunit _ hwrite hrestarts hprunes =>
    obtain ⟨-, hgives, -⟩ := Orderer.nextStep_cases hown hstep
    have hbooks := hrestarts.sameBooks
    exact ⟨hbefore.commit_leavesAlone hlane hgives hunit hwrite hbooks.view hbooks.tracker hprunes,
      hbooks.degraded ▸ hid⟩
  | @rolledBack reorg _ _ _ _ _ hstep hplan hwrite _ hrestarts =>
    have hbooks := hrestarts.sameBooks
    have hother : id ≠ reorg.chain := by
      obtain ⟨-, reorged, lane, hdrained, hreorg, -⟩ := Orderer.nextStep_cases hown hstep
      rw [Orderer.get?_drain, Option.map_eq_some_iff] at hdrained
      obtain ⟨old, hold, rfl⟩ := hdrained
      obtain ⟨task, tracked, -, -, hholds⟩ := hbefore.stands reorged old hold
      rw [(hP.drain hholds).reorg reorg hreorg]
      rintro rfl
      rw [hlane] at hold
      cases hold
    exact ⟨rollback_leavesAlone hmode hbefore.keyed hother hplan hwrite hbooks.view hbooks.tracker,
      hbooks.degraded ▸ hid⟩

/-- A unit that cannot be processed has its chain left behind. -/
theorem advance_of_failure (context : PipelineContext σ)
    (hmode : context.config.mode = .unordered)
    (hrunning : before.orderer.stopRequested = false)
    (hstep : before.orderer.nextStep = (.unit events, orderer)) {event : Event}
    {error : HandlerError}
    (hfails : (processEvents context.repo context.handlers before.registry events
      before.repo).result = .error (.handler event error)) :
    ∃ notes, advance context before = (.ok .advanced, degrade event.chain
      { before with
        registry := (processEvents context.repo context.handlers before.registry events
          before.repo).registry
        orderer := orderer
        notes := notes
        repo := (processEvents context.repo context.handlers before.registry events
          before.repo).repo }) := by
  refine ⟨before.notes ++ (processEvents context.repo context.handlers before.registry events
    before.repo).notes, ?_⟩
  have hhandled : handleUnit context events { before with orderer := orderer } =
      (.ok (), degrade event.chain { before with
        registry := (processEvents context.repo context.handlers before.registry events
          before.repo).registry
        orderer := orderer
        notes := before.notes ++ (processEvents context.repo context.handlers before.registry events
          before.repo).notes
        repo := (processEvents context.repo context.handlers before.registry events
          before.repo).repo }) := by
    rw [handleUnit_eq { before with orderer := orderer } rfl]
    dsimp only
    rw [hfails]
    dsimp only
    rw [failChain, hmode]
    rfl
  rw [advance_of_nextStep hrunning hstep]
  exact Call.bind_of_ok hhandled _

end Pipeline

namespace Indexer

variable {context : IndexerContext τ σ} {view : σ → Store} {first indexer later : Indexer τ σ}
  {events : List Event} {orderer : Orderer}

/-- Nothing of a chain that was left behind is brought or stored in what follows of a run. -/
theorem Continues.leavesAlone (hmode : context.config.mode = .unordered)
    (hrepo : context.repo.Backed Repo.inMemory view) (hown : context.source.AnswersOwn)
    (h : Continues context indexer later)
    (hbefore : indexer.pipeline.Upholds context.config view Standing.IsOf fun _ => True)
    (hid : id ∈ indexer.pipeline.degraded) :
    Pipeline.LeavesAlone view id indexer.pipeline later.pipeline ∧
      id ∈ later.pipeline.degraded := by
  induction h with
  | refl => exact ⟨.of_view rfl rfl, hid⟩
  | tail hrun hmove ih =>
    obtain ⟨halone, hlisted⟩ := ih
    have hbetween := Continues.upholds hrepo (Standing.IsOf.upheld _) (Standing.IsOf.fed hown) hrun
      hbefore
    obtain ⟨now, status, hstep⟩ | hbooks := hmove.cases hrepo
    · obtain ⟨hnext, hstill⟩ := hstep.leavesAlone hmode hbetween hlisted
      exact ⟨halone.trans hnext, hstill⟩
    · exact ⟨halone.trans (.of_view hbooks.view hbooks.tracker), hbooks.degraded ▸ hlisted⟩

/-- A unit of an unordered run that cannot be processed changes neither what is stored nor what the
pipeline has of the other chains. Its chain is left behind, listed once, and nothing more of it is
taken from a lane or stored as long as the run goes on. -/
theorem Continues.failed_unit (hmode : context.config.mode = .unordered)
    (hrepo : context.repo.Backed Repo.inMemory view) (hown : context.source.AnswersOwn)
    {sources : Table ChainId τ} {state : σ}
    (hkeyed : ∀ id checkpoint, (view state).checkpoints.get? id = some checkpoint →
      checkpoint.chain = id)
    (hstart : start context sources state = (.ok (), first))
    (h : Continues context first indexer)
    (hrunning : indexer.pipeline.orderer.stopRequested = false)
    (hstep : indexer.pipeline.orderer.nextStep = (.unit events, orderer))
    {event : Event} {error : HandlerError}
    (hfails : (processEvents context.repo context.handlers indexer.pipeline.registry events
      indexer.pipeline.repo).result = .error (.handler event error)) (now : Int) :
    (∀ other ∈ events, other.chain = event.chain) ∧
    ∃ after, Pipeline.advance { indexer.pipelineContext context with now := now }
        indexer.pipeline = (.ok .advanced, after) ∧
      view after.repo = view indexer.pipeline.repo ∧
      after.tracker = indexer.pipeline.tracker ∧
      after.registry = indexer.pipeline.registry ∧
      (∀ other, other ≠ event.chain → after.orderer.lanes.get? other =
        (indexer.pipeline.orderer.lanes.get? other).map Lane.drainReady) ∧
      after.degraded.count event.chain = 1 ∧
      ∀ later, Continues context { indexer with pipeline := after } later →
        later.pipeline.degraded.count event.chain = 1 ∧
        (∀ brought rest, later.pipeline.orderer.nextStep = (.unit brought, rest) →
          ∀ other ∈ brought, other.chain ≠ event.chain) ∧
        Pipeline.LeavesAlone view event.chain indexer.pipeline later.pipeline := by
  have hP := Standing.IsOf.upheld context.config.chains
  have hfed := Standing.IsOf.fed hown
  have hupholds : indexer.pipeline.Upholds context.config view Standing.IsOf fun _ => True :=
    h.upholds hrepo hP hfed
      (start_upholds hrepo hP hkeyed (fun _ _ => trivial) (fun _ _ _ _ => trivial) hstart)
  obtain ⟨hview, hprocessed⟩ :=
    hrepo.processEvents context.handlers indexer.pipeline.registry events indexer.pipeline.repo
  rw [hfails] at hprocessed
  obtain ⟨hregistry, hevent⟩ := hprocessed
  have hdrained : indexer.pipeline.orderer.drain.Own := hupholds.own hP
  obtain ⟨-, hgives, hturns⟩ := Orderer.nextStep_cases hdrained hstep
  obtain ⟨served, hserved⟩ := hturns (hupholds.mode.trans hmode)
  have hsame : ∀ other ∈ events, other.chain = event.chain := fun other hother =>
    (hserved other hother).trans (hserved event hevent).symm
  obtain ⟨notes, hadvance⟩ := Pipeline.advance_of_failure
    { indexer.pipelineContext context with now := now } hmode hrunning hstep hfails
  have hmove := Moves.advance none hadvance
  have hafter := hmove.upholds hrepo hP hfed hupholds
  have hlisted : event.chain ∈ (Pipeline.degrade event.chain indexer.pipeline).degraded := by
    change _ ∈ (if _ then _ else _ : List ChainId)
    split
    next hmem => exact hmem
    next => exact List.mem_append_right _ List.mem_cons_self
  refine ⟨hsame, _, hadvance, hview, rfl, hregistry, fun other hother => ?_,
    List.count_eq_one_of_mem hafter.nodup hlisted, fun later hlater => ?_⟩
  · refine (Table.get?_erase ..).trans ((if_neg hother).trans ?_)
    exact Pipeline.get?_of_served hgives hsame hother
  · obtain ⟨halone, hstill⟩ := hlater.leavesAlone hmode hrepo hown hafter hlisted
    have hupheld := hlater.upholds hrepo hP hfed hafter
    refine ⟨List.count_eq_one_of_mem hupheld.nodup hstill,
      fun brought rest hnext other hother => ?_,
      Pipeline.LeavesAlone.trans ?_ halone⟩
    · have hlane : later.pipeline.orderer.lanes.get? event.chain = none := by
        rw [← Option.not_isSome_iff_eq_none, hupheld.lanes event.chain]
        exact fun hhas => hhas.2 hstill
      have hown : later.pipeline.orderer.drain.Own := hupheld.own hP
      obtain ⟨-, hgiven, -⟩ := Orderer.nextStep_cases hown hnext
      have hnone := List.filter_eq_nil_iff.1 (Pipeline.events_of_no_lane hlane hgiven) other hother
      rwa [decide_eq_true_eq] at hnone
    · exact .of_view hview rfl

/-! ### A sample -/

/-- Two chains with events in their first blocks; those of the first chain cannot be handled. -/
def failingContext : IndexerContext Unit Store :=
  { sampleContext with
    config :=
      { sampleContext.config with
        chains := [⟨1, 0, some 1⟩, ⟨2, 0, some 1⟩]
        contracts := [⟨"", [⟨1, "", "", 0⟩, ⟨2, "", "", 0⟩], []⟩] }
    handlers := ⟨[("", ⟨"", fun _ => .done (), fun event =>
      if event.chain = 1 then .fail (.unknownContract "") else .done ()⟩)]⟩ }

def failingStart : Indexer Unit Store :=
  (start failingContext (.ofList [(1, ()), (2, ())]) Store.empty).2

/-- A run of them in which the first batch of the first chain is in its queue. -/
def failingRun : Indexer Unit Store :=
  (failingStart.runTask failingContext 1).runTask failingContext 1

theorem failingRun_leaves_no_trace :
    failingRun.pipeline.orderer.nextStep.1 = .unit [.placed 1 0 0] ∧
      ∃ after, Pipeline.advance (failingRun.pipelineContext failingContext) failingRun.pipeline =
          (.ok .advanced, after) ∧
        after.repo = failingRun.pipeline.repo ∧ after.degraded = [1] ∧
        ∀ later, Continues failingContext { failingRun with pipeline := after } later →
          later.pipeline.degraded.count 1 = 1 ∧
            later.pipeline.repo.eventsOf 1 = failingRun.pipeline.repo.eventsOf 1 := by
  have hstart : start failingContext (.ofList [(1, ()), (2, ())]) Store.empty =
      (.ok (), failingStart) := Prod.ext (by cbv) rfl
  have hrun : Continues failingContext failingStart failingRun :=
    (Relation.ReflTransGen.single (.fetch 1)).tail (.fetch 1)
  have hrunning : failingRun.pipeline.orderer.stopRequested = false := by cbv
  have hstep : failingRun.pipeline.orderer.nextStep.1 = .unit [.placed 1 0 0] := by cbv
  have hfails : (processEvents failingContext.repo failingContext.handlers
      failingRun.pipeline.registry [.placed 1 0 0] failingRun.pipeline.repo).result =
        .error (.handler (.placed 1 0 0) (.unknownContract "")) := by cbv
  have hkeyed : ∀ id checkpoint, Store.empty.checkpoints.get? id = some checkpoint →
      checkpoint.chain = id := by
    intro id checkpoint hget
    cases hget
  have hown : failingContext.source.AnswersOwn := .ofLogs sampleLogs 1
  obtain ⟨-, after, hadvance, hview, -, -, -, -, hlater⟩ :=
    Continues.failed_unit rfl Repo.inMemory_backed hown hkeyed hstart hrun hrunning
      (Prod.ext hstep rfl) hfails 0
  have hlisted : (Pipeline.advance (failingRun.pipelineContext failingContext)
      failingRun.pipeline).2.degraded = [1] := by cbv
  refine ⟨hstep, after, hadvance, hview, ?_, fun later hrest => ?_⟩
  · exact (congrArg (·.2.degraded) hadvance).symm.trans hlisted
  · obtain ⟨hcount, -, halone⟩ := hlater later hrest
    exact ⟨hcount, halone.events⟩

end Indexer

end ChainIndexer
