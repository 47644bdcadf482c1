import ChainIndexer.Proofs.Pipeline.Steps
import ChainIndexer.Proofs.Resets

/-!
# What a step leaves in the store

A step of a pipeline that does not prune writes to the store at most once. So however it ends, it
leaves the store as it was, or with one unit committed, or rolled back once.
-/

namespace ChainIndexer

variable {σ ν : Type}

namespace RetryPolicy

/-- A write that fails in the end leaves alone what is seen. -/
theorem write_view_of_error {policy : RetryPolicy} {call : Call σ RepoError Unit} {view : σ → ν}
    {seen : Call ν RepoError Unit} (h : call.Backs view seen) {state : σ} {error : IndexingError}
    (hwrite : (policy.write call state).result = .error error) :
    view (policy.write call state).repo = view state := by
  rcases write_cases policy h.error state with ⟨hok, -⟩ | ⟨-, hview⟩
  · rw [hok] at hwrite
    cases hwrite
  · exact hview

end RetryPolicy

namespace Pipeline

variable {context : PipelineContext σ} {memory : Repo ν} {view : σ → ν} {before after : Pipeline σ}

section Keeps

variable {ready : Pipeline σ → Prop} {see : Pipeline σ → ν} {chain : ChainId}

theorem keeps_failChain (h : (modify (degrade chain) : Action σ Unit).Keeps ready see)
    (error : IndexingError) : (failChain context chain error).Keeps ready see := by
  rw [failChain]
  cases context.config.mode with
  | ordered => exact .throw error
  | unordered => exact h

theorem keeps_handleFailure {failure : ChainFailure}
    (h : ∀ error, (failChain context failure.chain error).Keeps ready see) :
    (handleFailure context failure).Keeps ready see := by
  intro pipeline result after hready hrun
  obtain ⟨-, hfail⟩ | ⟨-, rfl, rfl⟩ := handleFailure_cases hrun
  · exact h _ pipeline result after hready hfail
  · exact ⟨hready, rfl⟩

theorem keeps_startFetcher
    (h : ∀ found checkpoint, (restart context chain found checkpoint).Keeps ready see) :
    (startFetcher context chain).Keeps ready see := by
  intro pipeline result after hready hrun
  rw [startFetcher_apply] at hrun
  split at hrun
  next found checkpoint _ _ => exact h found checkpoint pipeline result after hready hrun
  next =>
    cases hrun
    exact ⟨hready, rfl⟩

theorem keeps_startFetchers (h : ∀ chain, (startFetcher context chain).Keeps ready see)
    (chains : List ChainId) : (startFetchers context chains).Keeps ready see := by
  induction chains with
  | nil => exact .pure ()
  | cons chain rest ih => exact (h chain).bind fun _ => ih

end Keeps

/-- Whether an action leaves alone what is seen of the store, though it fails. -/
def Spares {α : Type} (view : σ → ν) (action : Action σ α) : Prop :=
  action.Keeps (fun _ => True) fun pipeline => view pipeline.repo

theorem Spares.view_eq {α : Type} {action : Action σ α} (h : Spares view action)
    {result : Except IndexingError α} (hrun : action before = (result, after)) :
    view after.repo = view before.repo := (h before result after trivial hrun).2

theorem spares_modify {change : Pipeline σ → Pipeline σ}
    (h : ∀ pipeline, (change pipeline).repo = pipeline.repo) :
    Spares view (modify change : Action σ Unit) := by
  intro pipeline result after _ hrun
  cases hrun
  exact ⟨trivial, congrArg view (h pipeline)⟩

theorem spares_onRepo {α : Type} {call : Call σ RepoError α} {seen : Call ν RepoError α}
    (h : call.Reads view seen) (wrap : RepoError → IndexingError) :
    Spares view (onRepo call wrap) := by
  intro pipeline result after _ hrun
  refine ⟨trivial, ?_⟩
  rw [onRepo] at hrun
  cases hcall : call pipeline.repo with
  | mk answer repo =>
    have hkept := h.keeps _ _ _ hcall
    rw [hcall] at hrun
    cases answer with
    | ok value =>
      cases hrun
      exact hkept
    | error error =>
      cases hrun
      exact hkept

theorem spares_startFetcher (hrepo : context.repo.Backed memory view) (chain : ChainId) :
    Spares view (startFetcher context chain) :=
  keeps_startFetcher fun _ _ => Call.Keeps.bind (spares_modify fun _ => rfl) fun _ =>
    Call.Keeps.bind (spares_onRepo (hrepo.recentBlocks _ _) _) fun _ => spares_modify fun _ => rfl

theorem spares_refetch (hrepo : context.repo.Backed memory view) (registering : Option Event) :
    Spares view (refetch context registering) := by
  cases registering with
  | none => exact Call.Keeps.pure ()
  | some event => exact spares_startFetcher hrepo event.chain

theorem spares_failChain (chain : ChainId) (error : IndexingError) :
    Spares view (failChain context chain error) :=
  keeps_failChain (spares_modify fun _ => rfl) error

/-- A write is made once, or leaves alone what is seen. -/
theorem write_cases {call : Call σ RepoError Unit} {seen : Call ν RepoError Unit}
    (hcall : call.Backs view seen) {result : Except IndexingError Unit}
    (h : write context call before = (result, after)) :
    ((∃ error, result = .error error) ∧ view after.repo = view before.repo) ∨
      (result = .ok () ∧ seen (view before.repo) = (.ok (), view after.repo)) := by
  cases result with
  | ok value =>
    obtain ⟨repo, rfl, hwrite⟩ := write_eq_ok hcall h
    exact Or.inr ⟨rfl, hwrite⟩
  | error error =>
    refine Or.inl ⟨⟨error, rfl⟩, ?_⟩
    have hwritten : (write context call before).2 = after := congrArg Prod.snd h
    rw [← hwritten]
    exact RetryPolicy.write_view_of_error hcall (congrArg Prod.fst h)

/-- What a step may leave in the store, however it ends. -/
inductive Leaves (context : PipelineContext σ) (memory : Repo ν) (view : σ → ν)
    (before : Pipeline σ) : ν → Prop
  | same : Leaves context memory view before (view before.repo)
  | committed {events : List Event} {processed : ProcessedUnit} {orderer : Orderer} {store : ν}
      (hstep : before.orderer.nextStep = (.unit events, orderer))
      (hwrite : memory.commit
        ({ before with orderer := orderer }.unitOf context.now events processed)
        (view before.repo) = (.ok (), store)) : Leaves context memory view before store
  | rolledBack {reorg : Reorg} {plan : RollbackPlan} {orderer : Orderer} {store : ν}
      (hstep : before.orderer.nextStep = (.reorg reorg, orderer))
      (hplan : RollbackPlan.make memory context.config.mode reorg before.tracker
        (view before.repo) = (.ok plan, view before.repo))
      (hwrite : memory.applyRollback plan (view before.repo) = (.ok (), store)) :
      Leaves context memory view before store

theorem commitProcessed_leaves (hrepo : context.repo.Backed memory view)
    (hpruning : context.config.pruning = none) {events : List Event} {processed : ProcessedUnit}
    {result : Except IndexingError Unit}
    (h : commitProcessed context events processed before = (result, after)) :
    view after.repo = view before.repo ∨
      memory.commit (before.unitOf context.now events processed) (view before.repo) =
        (.ok (), view after.repo) := by
  rw [commitProcessed_eq, pruneIfAsked, hpruning] at h
  split at h
  next =>
    cases h
    exact Or.inl rfl
  obtain ⟨_, -, hfailed⟩ | ⟨_, written, hwritten, h⟩ := Call.bind_cases h
  · refine Or.inl ((write_cases (hrepo.commit _) hfailed).resolve_right ?_).2
    rintro ⟨hok, -⟩
    cases hok
  · have hrest : view after.repo = view written.repo := by
      obtain ⟨_, -, hfailed⟩ | ⟨_, noted, hnoted, h⟩ := Call.bind_cases h
      · cases hfailed
      cases hnoted
      have hstarts : Spares view
          (refetch context (registering events processed) >>= fun _ => pure ()) :=
        Call.Keeps.bind (spares_refetch hrepo _) fun _ => .pure ()
      have hview := hstarts.view_eq h
      exact hview
    rw [hrest]
    obtain ⟨⟨_, hfailed⟩, -⟩ | ⟨-, hwrite⟩ := write_cases (hrepo.commit _) hwritten
    · cases hfailed
    · exact Or.inr hwrite

theorem handleUnit_leaves (hrepo : context.repo.Backed memory view)
    (hpruning : context.config.pruning = none) {events : List Event} {orderer : Orderer}
    {result : Except IndexingError Unit} (hstep : before.orderer.nextStep = (.unit events, orderer))
    (h : handleUnit context events { before with orderer := orderer } = (result, after)) :
    Leaves context memory view before (view after.repo) := by
  obtain ⟨hview, -⟩ := hrepo.processEvents context.handlers before.registry events before.repo
  generalize hprocessing : processEvents context.repo context.handlers before.registry events
    before.repo = processing at hview
  rw [handleUnit_eq { before with orderer := orderer } hprocessing] at h
  cases hresult : processing.result with
  | error error =>
    have hkept : view after.repo = view processing.repo := by
      rw [hresult] at h
      cases error with
      | repo error =>
        cases h
        rfl
      | handler event error => exact (spares_failChain event.chain _).view_eq h
    rw [hkept, hview]
    exact .same
  | ok processed =>
    rw [hresult] at h
    rcases commitProcessed_leaves hrepo hpruning h with hkept | hwrite
    · rw [hkept]
      dsimp only
      rw [hview]
      exact .same
    · dsimp only at hwrite
      rw [hview] at hwrite
      exact .committed hstep hwrite

theorem handleReorg_leaves (hrepo : context.repo.Backed memory view) {reorg : Reorg}
    {orderer : Orderer} {result : Except IndexingError Unit}
    (hstep : before.orderer.nextStep = (.reorg reorg, orderer))
    (h : handleReorg context reorg { before with orderer := orderer } = (result, after)) :
    Leaves context memory view before (view after.repo) := by
  rw [handleReorg, Call.bind_apply, Call.get_apply] at h
  dsimp only at h
  have hmakes := hrepo.make context.config.mode reorg before.tracker
  obtain ⟨_, -, hfailed⟩ | ⟨plan, planned, hplanned, h⟩ := Call.bind_cases h
  · rw [(spares_onRepo hmakes _).view_eq hfailed]
    exact .same
  have hkept := (spares_onRepo hmakes _).view_eq hplanned
  obtain ⟨repo, hmake, rfl⟩ := onRepo_eq_ok hplanned
  have hplan := hmakes.ok _ _ _ hmake
  dsimp only at hplan hkept
  rw [hkept] at hplan
  obtain ⟨_, -, hfailed⟩ | ⟨_, written, hwritten, h⟩ := Call.bind_cases h
  · obtain ⟨-, hspared⟩ | ⟨hok, -⟩ := write_cases (hrepo.applyRollback plan) hfailed
    · rw [hspared]
      dsimp only
      rw [hkept]
      exact .same
    · cases hok
  have hrest : view after.repo = view written.repo := by
    obtain ⟨_, -, hfailed⟩ | ⟨_, tracked, htracked, h⟩ := Call.bind_cases h
    · cases hfailed
    cases htracked
    obtain ⟨_, -, hfailed⟩ | ⟨registrations, read, hread, h⟩ := Call.bind_cases h
    · have hkept := (spares_onRepo hrepo.registrations _).view_eq hfailed
      exact hkept
    have hread := (spares_onRepo hrepo.registrations _).view_eq hread
    obtain ⟨_, -, hfailed⟩ | ⟨_, reloaded, hreloaded, h⟩ := Call.bind_cases h
    · cases hfailed
    cases hreloaded
    rw [Call.bind_apply, Call.get_apply] at h
    have hstarted := Spares.view_eq (keeps_startFetchers (spares_startFetcher hrepo) _) h
    exact hstarted.trans hread
  obtain ⟨⟨_, hfailed⟩, -⟩ | ⟨-, hwrite⟩ := write_cases (hrepo.applyRollback plan) hwritten
  · cases hfailed
  · dsimp only at hwrite
    rw [hkept] at hwrite
    rw [hrest]
    exact .rolledBack hstep hplan hwrite

theorem spares_handleFailure (failure : ChainFailure) :
    Spares view (handleFailure context failure) :=
  keeps_handleFailure (spares_failChain failure.chain)

/-- A step that does not prune writes at most once. -/
theorem leaves_of_advance (hrepo : context.repo.Backed memory view)
    (hpruning : context.config.pruning = none) {result : Except IndexingError PipelineStatus}
    (h : advance context before = (result, after)) :
    Leaves context memory view before (view after.repo) := by
  obtain ⟨-, -, rfl⟩ | ⟨step, orderer, done, -, hstep, hdone, -⟩ := advance_cases h
  · exact .same
  cases step with
  | unit events => exact handleUnit_leaves hrepo hpruning hstep hdone
  | reorg reorg => exact handleReorg_leaves hrepo hstep hdone
  | failure failure =>
    have hspares : Spares view (handleFailure context failure) := spares_handleFailure failure
    rw [hspares.view_eq hdone]
    exact .same
  | stopped =>
    cases hdone
    exact .same
  | finished =>
    cases hdone
    exact .same
  | blocked awaited =>
    cases hdone
    exact .same

theorem leaves_of_goOn (hrepo : context.repo.Backed memory view)
    (hpruning : context.config.pruning = none) {awaited : Option (List ChainId)}
    {result : Except IndexingError PipelineStatus}
    (h : goOn context awaited before = (result, after)) :
    Leaves context memory view before (view after.repo) := by
  obtain hadvance | ⟨_, -, rfl⟩ | ⟨failure, rest, done, -, hdone, -⟩ := goOn_cases h
  · exact leaves_of_advance hrepo hpruning hadvance
  · exact .same
  · have hspares : Spares view (handleFailure context failure) := spares_handleFailure failure
    rw [hspares.view_eq hdone]
    exact .same

end Pipeline

end ChainIndexer
