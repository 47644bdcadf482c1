import ChainIndexer.Proofs.Backed
import ChainIndexer.Proofs.Pipeline.Advance

/-!
# What a step of a pipeline does

A step that does not end the run, over a store that may fail, is one of a few: the pipeline rests,
leaves a chain behind, commits a unit, or rolls back. Each of them says what is written and which
fetchers start anew, so that an invariant is proved by the cases of a step.
-/

namespace ChainIndexer

/-- What a pipeline answers if nothing is to be done for a step of its orderer. -/
def OrdererStep.rest? : OrdererStep → Option PipelineStatus
  | .stopped => some .stopped
  | .finished => some .finished
  | .blocked awaited => some (.blocked awaited)
  | .unit _ | .reorg _ | .failure _ => none

/-- Whether an orderer tells of a failure, with its next step or in a wait. -/
def Orderer.TellsOf (orderer : Orderer) (failure : ChainFailure) (after : Orderer) : Prop :=
  orderer.nextStep = (.failure failure, after) ∨
    ∃ rest, orderer.failures = failure :: rest ∧ after = { orderer with failures := rest }

namespace Pipeline

variable {σ ν : Type} {context : PipelineContext σ} {memory : Repo ν} {view : σ → ν}
  {pipeline before after : Pipeline σ} {chain id : ChainId} {chains rest : List ChainId}

/-! ### Calls on the store -/

theorem onRepo_eq_ok {α : Type} {call : Call σ RepoError α} {wrap : RepoError → IndexingError}
    {value : α} (h : onRepo call wrap before = (.ok value, after)) :
    ∃ repo, call before.repo = (.ok value, repo) ∧ after = { before with repo := repo } := by
  rw [onRepo] at h
  cases hcall : call before.repo with
  | mk result repo =>
    rw [hcall] at h
    cases result with
    | error error => cases h
    | ok found =>
      cases h
      exact ⟨repo, rfl, rfl⟩

theorem write_eq_ok {call : Call σ RepoError Unit} {seen : Call ν RepoError Unit}
    (hcall : call.Backs view seen) (h : write context call before = (.ok (), after)) :
    ∃ repo, after = { before with repo := repo } ∧
      seen (view before.repo) = (.ok (), view repo) := by
  have hresult := congrArg Prod.fst h
  exact ⟨_, (congrArg Prod.snd h).symm, RetryPolicy.write_eq_ok hcall hresult⟩

/-! ### Fetchers -/

/-- Whether fetchers of some chains were started in turn, as far as the chains are configured and
have a checkpoint. -/
inductive Restarts (context : PipelineContext σ) (view : σ → ν) :
    List ChainId → Pipeline σ → Pipeline σ → Prop
  | nil (pipeline : Pipeline σ) : Restarts context view [] pipeline pipeline
  | skip {chain : ChainId} {rest : List ChainId} {before after : Pipeline σ}
      (hnone : context.config.chains.find? (·.id = chain) = none ∨
        before.tracker.get? chain = none)
      (hrest : Restarts context view rest before after) :
      Restarts context view (chain :: rest) before after
  | spawn {chain : ChainId} {rest : List ChainId} {before after : Pipeline σ} {found : Chain}
      {checkpoint : Checkpoint} {repo : σ} {recent : List Block}
      (hfound : context.config.chains.find? (·.id = chain) = some found)
      (hcheckpoint : before.tracker.get? chain = some checkpoint)
      (hview : view repo = view before.repo)
      (hrest : Restarts context view rest
        (Pipeline.spawn context found checkpoint recent { before.abort chain with repo := repo })
        after) :
      Restarts context view (chain :: rest) before after

theorem Restarts.cons_of_startFetcher {between : Pipeline σ}
    (hrepo : context.repo.Backed memory view)
    (h : startFetcher context chain before = (.ok (), between))
    (hrest : Restarts context view rest between after) :
    Restarts context view (chain :: rest) before after := by
  rw [startFetcher_apply] at h
  cases hfind : context.config.chains.find? (·.id = chain) with
  | none =>
    rw [hfind] at h
    cases h
    exact .skip (Or.inl hfind) hrest
  | some found =>
    cases hcheckpoint : before.tracker.get? chain with
    | none =>
      rw [hfind, hcheckpoint] at h
      cases h
      exact .skip (Or.inr hcheckpoint) hrest
    | some checkpoint =>
      rw [hfind, hcheckpoint] at h
      obtain ⟨_, aborted, haborted, h⟩ := Call.bind_eq_ok h
      cases haborted
      obtain ⟨recent, read, hread, h⟩ := Call.bind_eq_ok h
      cases h
      obtain ⟨repo, hblocks, rfl⟩ := onRepo_eq_ok hread
      exact .spawn hfind hcheckpoint ((hrepo.recentBlocks _ _).keeps _ _ _ hblocks) hrest

theorem restarts_of_startFetchers (hrepo : context.repo.Backed memory view)
    (h : startFetchers context chains before = (.ok (), after)) :
    Restarts context view chains before after := by
  induction chains generalizing before with
  | nil =>
    cases h
    exact .nil _
  | cons chain rest ih =>
    obtain ⟨_, started, hstarted, h⟩ := Call.bind_eq_ok h
    exact .cons_of_startFetcher hrepo hstarted (ih h)

theorem restarts_of_refetch (hrepo : context.repo.Backed memory view) {registering : Option Event}
    (h : refetch context registering before = (.ok (), after)) :
    Restarts context view (registering.toList.map (·.chain)) before after := by
  cases registering with
  | none =>
    cases h
    exact .nil _
  | some event => exact .cons_of_startFetcher hrepo h (.nil after)

/-- Whether pipelines differ at most in their lanes and fetchers, in what these report, and in parts
of the store that are not seen. -/
structure SameBooks (view : σ → ν) (before after : Pipeline σ) : Prop where
  registry : after.registry = before.registry
  tracker : after.tracker = before.tracker
  degraded : after.degraded = before.degraded
  view : view after.repo = view before.repo
  mode : after.orderer.mode = before.orderer.mode

namespace Restarts

theorem sameBooks (h : Restarts context view chains before after) :
    before.SameBooks view after := by
  induction h with
  | nil => exact ⟨rfl, rfl, rfl, rfl, rfl⟩
  | skip _ _ ih => exact ih
  | spawn _ _ hview _ ih =>
    exact ⟨ih.registry, ih.tracker, ih.degraded, ih.view.trans hview, ih.mode⟩

theorem of_not_mem (h : Restarts context view chains before after) (hid : id ∉ chains) :
    after.orderer.lanes.get? id = before.orderer.lanes.get? id ∧
      after.tasks.get? id = before.tasks.get? id := by
  induction h with
  | nil => exact ⟨rfl, rfl⟩
  | skip _ _ ih => exact ih fun hmem => hid (List.mem_cons_of_mem _ hmem)
  | @spawn chain rest before after found checkpoint repo recent hfound _ _ _ ih =>
    have hchain : found.id = chain := by simpa using List.find?_some hfound
    have hne : id ≠ chain := fun heq => hid (heq ▸ List.mem_cons_self)
    obtain ⟨hlanes, htasks⟩ := ih fun hmem => hid (List.mem_cons_of_mem _ hmem)
    refine ⟨hlanes.trans ?_, htasks.trans ?_⟩
    · refine (Table.get?_insert ..).trans (if_neg ?_)
      exact fun heq => hne (heq.trans hchain)
    · refine (Table.get?_insert ..).trans ((if_neg fun heq => hne (heq.trans hchain)).trans ?_)
      exact (Table.get?_erase ..).trans (if_neg hne)

/-- A chain whose fetcher starts anew has a new lane; otherwise its lane and fetcher stay. -/
theorem cases_of_mem (h : Restarts context view chains before after) (hid : id ∈ chains) :
    (after.orderer.lanes.get? id = before.orderer.lanes.get? id ∧
      after.tasks.get? id = before.tasks.get? id ∧
      (context.config.chains.find? (·.id = id) = none ∨ before.tracker.get? id = none)) ∨
    ∃ found checkpoint window generation, found ∈ context.config.chains ∧ found.id = id ∧
      before.tracker.get? id = some checkpoint ∧
      after.orderer.lanes.get? id =
        some (.start id (FetchSettings.ofConfig context.config).queueDepth) ∧
      after.tasks.get? id = some
        (.start (.start found checkpoint window (.ofConfig context.config)) generation
          context.clock) := by
  induction h with
  | nil => cases hid
  | @skip chain rest before after hnone hrest ih =>
    by_cases hmem : id ∈ rest
    · exact ih hmem
    · obtain rfl : id = chain := (List.mem_cons.1 hid).resolve_right hmem
      obtain ⟨hlanes, htasks⟩ := hrest.of_not_mem hmem
      exact Or.inl ⟨hlanes, htasks, hnone⟩
  | @spawn chain rest before after found checkpoint repo recent hfound hcheckpoint _ hrest ih =>
    obtain rfl : found.id = chain := by simpa using List.find?_some hfound
    have hspawned : (Pipeline.spawn context found checkpoint recent
        { before.abort found.id with repo := repo }).tracker = before.tracker := rfl
    by_cases hmem : id ∈ rest
    · by_cases heq : id = found.id
      · subst heq
        obtain ⟨-, -, hnone⟩ | hstarted := ih hmem
        · rw [hspawned, hfound, hcheckpoint] at hnone
          exact (hnone.elim nofun nofun)
        · exact Or.inr hstarted
      · obtain ⟨hlanes, htasks, hnone⟩ | hstarted := ih hmem
        · refine Or.inl ⟨hlanes.trans ?_, htasks.trans ?_, hnone⟩
          · exact (Table.get?_insert ..).trans (if_neg heq)
          · refine (Table.get?_insert ..).trans ((if_neg heq).trans ?_)
            exact (Table.get?_erase ..).trans (if_neg heq)
        · exact Or.inr hstarted
    · obtain rfl : id = found.id := (List.mem_cons.1 hid).resolve_right hmem
      obtain ⟨hlanes, htasks⟩ := hrest.of_not_mem hmem
      exact Or.inr ⟨found, checkpoint, _, _, List.mem_of_find?_eq_some hfound, rfl, hcheckpoint,
        hlanes.trans ((Table.get?_insert ..).trans (if_pos rfl)),
        htasks.trans ((Table.get?_insert ..).trans (if_pos rfl))⟩

end Restarts

/-! ### Pruning -/

/-- Whether some of some chains were pruned in turn. -/
inductive Prunes (memory : Repo ν) : List ChainId → ν → ν → Prop
  | nil (state : ν) : Prunes memory [] state state
  | skip {chain : ChainId} {rest : List ChainId} {before after : ν}
      (hrest : Prunes memory rest before after) : Prunes memory (chain :: rest) before after
  | prune {chain : ChainId} {minBlock : Nat} {rest : List ChainId} {before between after : ν}
      (hprune : memory.prune chain minBlock before = (.ok (), between))
      (hrest : Prunes memory rest between after) : Prunes memory (chain :: rest) before after

theorem Prunes.refl (chains : List ChainId) (state : ν) : Prunes memory chains state state := by
  induction chains with
  | nil => exact .nil state
  | cons chain rest ih => exact .skip ih

/-- Pruning changes the store and the schedule only. -/
theorem pruneDue_eq_ok (hrepo : context.repo.Backed memory view) {config : PruningConfig}
    (h : pruneDue context config chains before = (.ok (), after)) :
    ∃ repo schedule, after = { before with repo := repo, schedule := schedule } ∧
      Prunes memory chains (view before.repo) (view repo) := by
  induction chains generalizing before with
  | nil =>
    cases h
    exact ⟨_, _, rfl, .nil _⟩
  | cons chain rest ih =>
    rw [pruneDue] at h
    obtain ⟨found, got, hgot, h⟩ := Call.bind_eq_ok h
    cases hgot
    have hskip : pruneDue context config rest before = (.ok (), after) →
        ∃ repo schedule, after = { before with repo := repo, schedule := schedule } ∧
          Prunes memory (chain :: rest) (view before.repo) (view repo) := by
      intro hrest
      obtain ⟨repo, schedule, rfl, hprunes⟩ := ih hrest
      exact ⟨repo, schedule, rfl, .skip hprunes⟩
    cases hprocessed : before.tracker.processed chain with
    | none =>
      rw [hprocessed] at h
      exact hskip h
    | some processed =>
      rw [hprocessed] at h
      dsimp only at h
      split at h
      next =>
        obtain ⟨_, pruned, hpruned, h⟩ := Call.bind_eq_ok h
        obtain ⟨_, marked, hmarked, h⟩ := Call.bind_eq_ok h
        cases hmarked
        obtain ⟨repo, hcall, rfl⟩ := onRepo_eq_ok hpruned
        obtain ⟨last, schedule, rfl, hprunes⟩ := ih h
        exact ⟨last, schedule, rfl, .prune ((hrepo.prune _ _).ok _ _ _ hcall) hprunes⟩
      next => exact hskip h

theorem pruneIfAsked_eq_ok (hrepo : context.repo.Backed memory view)
    (h : pruneIfAsked context chains before = (.ok (), after)) :
    ∃ last schedule, after = { before with repo := last, schedule := schedule } ∧
      Prunes memory chains (view before.repo) (view last) := by
  rw [pruneIfAsked] at h
  cases hpruning : context.config.pruning with
  | none =>
    rw [hpruning] at h
    cases h
    exact ⟨_, _, rfl, .refl _ _⟩
  | some config =>
    rw [hpruning] at h
    exact pruneDue_eq_ok hrepo h

/-! ### Steps -/

/-- A step of a pipeline that does not end the run. -/
inductive Step (context : PipelineContext σ) (memory : Repo ν) (view : σ → ν)
    (before : Pipeline σ) : PipelineStatus → Pipeline σ → Prop
  | halted (hstop : before.orderer.stopRequested = true) :
      Step context memory view before .stopped before
  | rested {step : OrdererStep} {orderer : Orderer} {status : PipelineStatus}
      (hstep : before.orderer.nextStep = (step, orderer)) (hrest : step.rest? = some status) :
      Step context memory view before status { before with orderer := orderer }
  | ignored {failure : ChainFailure} {orderer : Orderer}
      (htells : before.orderer.TellsOf failure orderer) :
      Step context memory view before .advanced { before with orderer := orderer }
  | lost {failure : ChainFailure} {orderer : Orderer} (hmode : context.config.mode = .unordered)
      (htells : before.orderer.TellsOf failure orderer) :
      Step context memory view before .advanced
        (degrade failure.chain { before with orderer := orderer })
  | gaveUp {events : List Event} {event : Event} {orderer : Orderer} {repo : σ} {notes : List Json}
      (hmode : context.config.mode = .unordered)
      (hstep : before.orderer.nextStep = (.unit events, orderer)) (hevent : event ∈ events)
      (hview : view repo = view before.repo) :
      Step context memory view before .advanced
        (degrade event.chain { before with orderer := orderer, repo := repo, notes := notes })
  | idle {events : List Event} {processed : ProcessedUnit} {orderer : Orderer} {repo : σ}
      {notes : List Json} (hstep : before.orderer.nextStep = (.unit events, orderer))
      (hempty : ({ before with orderer := orderer }.unitOf context.now events processed).isEmpty =
        true)
      (hview : view repo = view before.repo) :
      Step context memory view before .advanced
        { before with
          orderer := (report orderer events processed).2.2
          repo := repo
          notes := notes }
  | committed {events : List Event} {processed : ProcessedUnit} {unit : WriteUnit}
      {orderer : Orderer} {repo last : σ} {notes : List Json} {started : Pipeline σ}
      {schedule : PruningSchedule}
      (hstep : before.orderer.nextStep = (.unit events, orderer))
      (hunit : unit = { before with orderer := orderer }.unitOf context.now events processed)
      (hlower : ∀ registration ∈ processed.registrations,
        Text.lowercase registration.address = registration.address)
      (hwrite : memory.commit unit (view before.repo) = (.ok (), view repo))
      (hrestarts : Restarts context view ((registering events processed).toList.map (·.chain))
        (noteCommit unit
          { before with
            registry := before.registry.extend unit.registrations
            orderer := (report orderer events processed).2.2
            notes := notes
            repo := repo }) started)
      (hprunes : Prunes memory ((report orderer events processed).1.map (·.chain))
        (view started.repo) (view last)) :
      Step context memory view before .advanced
        { started with repo := last, schedule := schedule }
  | rolledBack {reorg : Reorg} {plan : RollbackPlan} {registrations : List Registration}
      {orderer : Orderer} {repo : σ} {after : Pipeline σ}
      (hstep : before.orderer.nextStep = (.reorg reorg, orderer))
      (hplan : RollbackPlan.make memory context.config.mode reorg before.tracker
        (view before.repo) = (.ok plan, view before.repo))
      (hwrite : memory.applyRollback plan (view before.repo) = (.ok (), view repo))
      (hread : memory.registrations (view repo) = (.ok registrations, view repo))
      (hrestarts : Restarts context view ((plan.rewinds.map (·.chain)).filter orderer.hasLane)
        { before with
          orderer := orderer
          repo := repo
          tracker := before.tracker.replace plan.checkpoints
          registry := before.registry.reload registrations
          rollbacks := before.rollbacks + 1 } after) :
      Step context memory view before .advanced after

/-- A commit stores what was processed and what the lanes report, and then starts to fetch the chain
of a registering event anew. -/
theorem commitProcessed_cases (hrepo : context.repo.Backed memory view) {events : List Event}
    {processed : ProcessedUnit} {unit : WriteUnit}
    (hunit : unit = before.unitOf context.now events processed)
    (h : commitProcessed context events processed before = (.ok (), after)) :
    (unit.isEmpty = true ∧
      after = { before with orderer := (report before.orderer events processed).2.2 }) ∨
    ∃ repo started last schedule,
      memory.commit unit (view before.repo) = (.ok (), view repo) ∧
      Restarts context view ((registering events processed).toList.map (·.chain))
        (noteCommit unit
          { before with
            orderer := (report before.orderer events processed).2.2
            repo := repo }) started ∧
      Prunes memory ((report before.orderer events processed).1.map (·.chain))
        (view started.repo) (view last) ∧
      after = { started with repo := last, schedule := schedule } := by
  subst hunit
  rw [commitProcessed_eq] at h
  by_cases hempty : (before.unitOf context.now events processed).isEmpty = true
  · rw [if_pos hempty] at h
    cases h
    exact Or.inl ⟨hempty, rfl⟩
  rw [if_neg hempty] at h
  obtain ⟨_, written, hwritten, h⟩ := Call.bind_eq_ok h
  obtain ⟨_, noted, hnoted, h⟩ := Call.bind_eq_ok h
  cases hnoted
  obtain ⟨repo, rfl, hwrite⟩ := write_eq_ok (hrepo.commit _) hwritten
  obtain ⟨_, started, hstarted, hpruned⟩ := Call.bind_eq_ok h
  obtain ⟨last, schedule, rfl, hprunes⟩ := pruneIfAsked_eq_ok hrepo hpruned
  exact Or.inr ⟨repo, started, last, schedule, hwrite, restarts_of_refetch hrepo hstarted, hprunes,
    rfl⟩

theorem handleReorg_cases (hrepo : context.repo.Backed memory view) {reorg : Reorg}
    (h : handleReorg context reorg before = (.ok (), after)) :
    ∃ plan registrations repo,
      RollbackPlan.make memory context.config.mode reorg before.tracker (view before.repo) =
        (.ok plan, view before.repo) ∧
      memory.applyRollback plan (view before.repo) = (.ok (), view repo) ∧
      memory.registrations (view repo) = (.ok registrations, view repo) ∧
      Restarts context view ((plan.rewinds.map (·.chain)).filter before.orderer.hasLane)
        { before with
          repo := repo
          tracker := before.tracker.replace plan.checkpoints
          registry := before.registry.reload registrations
          rollbacks := before.rollbacks + 1 } after := by
  rw [handleReorg] at h
  obtain ⟨found, got, hgot, h⟩ := Call.bind_eq_ok h
  cases hgot
  obtain ⟨plan, planned, hplanned, h⟩ := Call.bind_eq_ok h
  obtain ⟨_, written, hwritten, h⟩ := Call.bind_eq_ok h
  obtain ⟨_, tracked, htracked, h⟩ := Call.bind_eq_ok h
  cases htracked
  obtain ⟨registrations, read, hread, h⟩ := Call.bind_eq_ok h
  obtain ⟨_, reloaded, hreloaded, h⟩ := Call.bind_eq_ok h
  cases hreloaded
  obtain ⟨_, got, hgot, h⟩ := Call.bind_eq_ok h
  cases hgot
  obtain ⟨made, hmake, rfl⟩ := onRepo_eq_ok hplanned
  obtain ⟨repo, rfl, hwrite⟩ := write_eq_ok (hrepo.applyRollback plan) hwritten
  obtain ⟨last, hloaded, rfl⟩ := onRepo_eq_ok hread
  have hmade := (hrepo.make _ _ _).keeps _ _ _ hmake
  have hplan := (hrepo.make _ _ _).ok _ _ _ hmake
  have hlast := hrepo.registrations.keeps _ _ _ hloaded
  have hregistrations := hrepo.registrations.ok _ _ _ hloaded
  dsimp only at hplan hmade hwrite hregistrations hlast
  rw [hmade] at hplan hwrite
  rw [← hlast] at hwrite hregistrations
  exact ⟨plan, registrations, last, hplan, hwrite, hregistrations,
    restarts_of_startFetchers hrepo h⟩

theorem step_of_handleUnit (hrepo : context.repo.Backed memory view) {events : List Event}
    {orderer : Orderer} (hstep : before.orderer.nextStep = (.unit events, orderer))
    (h : handleUnit context events { before with orderer := orderer } = (.ok (), after)) :
    Step context memory view before .advanced after := by
  obtain ⟨hview, hspec⟩ :=
    hrepo.processEvents context.handlers before.registry events before.repo
  generalize hprocessing : processEvents context.repo context.handlers before.registry events
    before.repo = processing at hview hspec
  rw [handleUnit_eq { before with orderer := orderer } hprocessing] at h
  cases hresult : processing.result with
  | error error =>
    rw [hresult] at h hspec
    cases error with
    | repo error => cases h
    | handler event error =>
      obtain ⟨hregistry, hevent⟩ := hspec
      obtain ⟨hmode, rfl⟩ := failChain_cases h
      rw [hregistry]
      exact .gaveUp hmode hstep hevent hview
  | ok processed =>
    rw [hresult] at h hspec
    obtain ⟨hregistry, hlower⟩ := hspec
    rw [hregistry] at h
    obtain ⟨hempty, rfl⟩ | ⟨repo, started, last, schedule, hwrite, hrestarts, hprunes, rfl⟩ :=
      commitProcessed_cases hrepo rfl h
    · have hnone : processed.registrations = [] := by
        simp only [WriteUnit.isEmpty, Bool.and_eq_true, List.isEmpty_iff] at hempty
        exact hempty.1.1.2
      rw [hnone]
      exact .idle hstep hempty hview
    · dsimp only at hwrite
      rw [hview] at hwrite
      exact .committed hstep rfl hlower hwrite hrestarts hprunes

/-- A failure that does not end the run is one of a fetcher that was replaced, or of a chain that is
left behind. -/
theorem step_of_handleFailure {failure : ChainFailure} {orderer : Orderer}
    (htells : before.orderer.TellsOf failure orderer)
    (h : handleFailure context failure { before with orderer := orderer } = (.ok (), after)) :
    Step context memory view before .advanced after := by
  obtain ⟨-, hfail⟩ | ⟨-, -, rfl⟩ := handleFailure_cases h
  · obtain ⟨hmode, rfl⟩ := failChain_cases hfail
    exact .lost hmode htells
  · exact .ignored htells

/-- Each step that does not end the run in an error is one of the steps. -/
theorem step_of_advance (hrepo : context.repo.Backed memory view) {status : PipelineStatus}
    (h : advance context before = (.ok status, after)) :
    Step context memory view before status after := by
  obtain ⟨hstop, rfl, rfl⟩ | ⟨step, orderer, -, hstep, hdone, rfl⟩ := advance_eq_ok h
  · exact .halted hstop
  cases step with
  | unit events => exact step_of_handleUnit hrepo hstep hdone
  | reorg reorg =>
    obtain ⟨plan, registrations, repo, hplan, hwrite, hread, hrestarts⟩ :=
      handleReorg_cases hrepo hdone
    exact .rolledBack hstep hplan hwrite hread hrestarts
  | failure failure => exact step_of_handleFailure (Or.inl hstep) hdone
  | stopped =>
    cases hdone
    exact .rested hstep rfl
  | finished =>
    cases hdone
    exact .rested hstep rfl
  | blocked awaited =>
    cases hdone
    exact .rested hstep rfl

/-- A wait adds no other step to these, besides that it goes on. -/
theorem step_of_goOn (hrepo : context.repo.Backed memory view) {awaited : Option (List ChainId)}
    {status : PipelineStatus} (h : goOn context awaited before = (.ok status, after)) :
    (∃ status, Step context memory view before status after) ∨ after = before := by
  obtain hadvance | hsame | ⟨failure, rest, hfailures, hdone⟩ := goOn_eq_ok h
  · exact Or.inl ⟨status, step_of_advance hrepo hadvance⟩
  · exact Or.inr hsame
  · exact Or.inl ⟨_, step_of_handleFailure (Or.inr ⟨rest, hfailures, rfl⟩) hdone⟩

end Pipeline

end ChainIndexer
