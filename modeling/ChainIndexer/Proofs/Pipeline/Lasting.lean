import ChainIndexer.Proofs.Pipeline.Actions

/-!
# What lasts in a pipeline

Whatever the store answers, a pipeline changes its lanes and fetchers in few ways only: it takes the
next step, gives events back and has the lanes report, puts in a new fetcher with a new lane, or
drops both. What these keep lasts in every run that does not end in an error.
-/

namespace ChainIndexer

namespace Pipeline

variable {σ α β : Type} {context : PipelineContext σ}
  {P Q R : Orderer → Table ChainId FetcherTask → Prop}

/-- Whether what holds of lanes and fetchers is kept by all that a pipeline does with them. -/
structure Lasting (context : PipelineContext σ) (P : Orderer → Table ChainId FetcherTask → Prop) :
    Prop where
  next : ∀ {orderer tasks}, P orderer tasks → P orderer.nextStep.2 tasks
  report : ∀ {orderer after tasks events}, P orderer tasks →
    orderer.nextStep = (.unit events, after) → ∀ applied,
      P ((after.restore (events.drop applied)).progress (events.take applied)).2.2 tasks
  hear : ∀ {orderer tasks} (failures : List ChainFailure), P orderer tasks →
    P { orderer with failures := failures } tasks
  abort : ∀ {orderer tasks} (chain : ChainId), P orderer tasks → P orderer (tasks.erase chain)
  remove : ∀ {orderer tasks} (chain : ChainId), P orderer tasks →
    P (orderer.removeLane chain) tasks
  spawn : ∀ {orderer tasks} (chain : Chain) (checkpoint : Checkpoint) (window : BlockWindow)
    (generation : Nat), P orderer tasks →
      P (orderer.addLane (.start chain.id (FetchSettings.ofConfig context.config).queueDepth))
        (tasks.insert chain.id (.start (.start chain checkpoint window (.ofConfig context.config))
          generation context.clock))

/-- Whether an action that answers leads from what holds of lanes and fetchers to something else. -/
def Leads (P Q : Orderer → Table ChainId FetcherTask → Prop) (action : Action σ α) : Prop :=
  ∀ pipeline value after, P pipeline.orderer pipeline.tasks →
    action pipeline = (.ok value, after) → Q after.orderer after.tasks

theorem Leads.bind {action : Action σ α} {next : α → Action σ β} (h : Leads P Q action)
    (hnext : ∀ value, Leads Q R (next value)) : Leads P R (action >>= next) := by
  intro pipeline value after hbefore haction
  obtain ⟨first, between, hfirst, hsecond⟩ := Call.bind_eq_ok haction
  exact hnext first between value after (h pipeline first between hbefore hfirst) hsecond

theorem leads_pure (value : α) : Leads P P (pure value : Action σ α) := by
  intro pipeline result after hbefore haction
  cases haction
  exact hbefore

theorem leads_get : Leads P P (get : Action σ (Pipeline σ)) := by
  intro pipeline value after hbefore haction
  cases haction
  exact hbefore

theorem leads_throw (error : IndexingError) : Leads P Q (throw error : Action σ α) := by
  intro pipeline value after hbefore haction
  cases haction

theorem leads_modify {f : Pipeline σ → Pipeline σ}
    (hf : ∀ pipeline : Pipeline σ, P pipeline.orderer pipeline.tasks →
      Q (f pipeline).orderer (f pipeline).tasks) : Leads P Q (modify f : Action σ PUnit) := by
  intro pipeline value after hbefore haction
  cases haction
  exact hf pipeline hbefore

theorem leads_onRepo (call : Call σ RepoError α) (wrap : RepoError → IndexingError) :
    Leads P P (onRepo call wrap) := by
  intro pipeline value after hbefore haction
  rw [onRepo] at haction
  split at haction
  next =>
    cases haction
    exact hbefore
  next => cases haction

theorem leads_write (call : Call σ RepoError Unit) : Leads P P (write context call) := by
  intro pipeline value after hbefore haction
  rw [write] at haction
  obtain ⟨-, rfl⟩ := Prod.mk.inj haction
  exact hbefore

theorem leads_pruneDue (config : PruningConfig) (chains : List ChainId) :
    Leads P P (pruneDue context config chains) := by
  induction chains with
  | nil => exact leads_pure _
  | cons chain rest ih =>
    rw [pruneDue]
    refine leads_get.bind fun pipeline => ?_
    cases pipeline.tracker.processed chain with
    | none => exact ih
    | some processed =>
      dsimp only
      split
      next =>
        refine (leads_onRepo _ _).bind fun _ => ?_
        exact Leads.bind (leads_modify fun _ h => h) fun _ => ih
      next => exact ih

namespace Lasting

theorem startFetcher (hP : Lasting context P) (chain : ChainId) :
    Leads P P (startFetcher context chain) := by
  have hrestart (found : Chain) (checkpoint : Checkpoint) :
      Leads P P (restart context chain found checkpoint) := by
    refine Leads.bind (leads_modify fun _ h => hP.abort chain h) fun _ => ?_
    refine (leads_onRepo _ _).bind fun recent => ?_
    exact leads_modify fun _ h => hP.spawn found checkpoint _ _ h
  intro pipeline value after hbefore haction
  rw [startFetcher_apply] at haction
  split at haction
  next found checkpoint _ _ => exact hrestart found checkpoint _ _ _ hbefore haction
  next =>
    cases haction
    exact hbefore

theorem startFetchers (hP : Lasting context P) (chains : List ChainId) :
    Leads P P (startFetchers context chains) := by
  induction chains with
  | nil => exact leads_pure _
  | cons chain rest ih => exact (hP.startFetcher chain).bind fun _ => ih

theorem failChain (hP : Lasting context P) (chain : ChainId) (error : IndexingError) :
    Leads P P (failChain context chain error) := by
  rw [Pipeline.failChain]
  cases context.config.mode with
  | ordered => exact leads_throw _
  | unordered => exact leads_modify fun _ h => hP.remove chain (hP.abort chain h)

/-- Whether some events were taken as a unit, where something held before. -/
def Took (P : Orderer → Table ChainId FetcherTask → Prop) (events : List Event)
    (orderer : Orderer) (tasks : Table ChainId FetcherTask) : Prop :=
  ∃ before, P before tasks ∧ before.nextStep = (.unit events, orderer)

theorem refetch (hP : Lasting context P) (registering : Option Event) :
    Leads P P (refetch context registering) := by
  cases registering with
  | none => exact leads_pure _
  | some event => exact hP.startFetcher event.chain

theorem prune (chains : List ChainId) : Leads P P (pruneIfAsked context chains) := by
  rw [pruneIfAsked]
  cases context.config.pruning with
  | none => exact leads_pure _
  | some config => exact leads_pruneDue config chains

theorem commitProcessed (hP : Lasting context P) (events : List Event)
    (processed : ProcessedUnit) :
    Leads (Took P events) P (commitProcessed context events processed) := by
  rintro pipeline value after ⟨before, hbefore, hstep⟩ haction
  have hreported := hP.report hbefore hstep processed.applied
  rw [commitProcessed_eq] at haction
  split at haction
  next =>
    cases haction
    exact hreported
  next =>
    refine Leads.bind (leads_write _) (fun _ => ?_) _ _ _ hreported haction
    refine Leads.bind (leads_modify fun _ h => h) fun _ => ?_
    exact (hP.refetch _).bind fun _ => prune _

theorem Took.held (hP : Lasting context P) {events : List Event} {orderer : Orderer}
    {tasks : Table ChainId FetcherTask} (h : Took P events orderer tasks) : P orderer tasks := by
  obtain ⟨before, hbefore, hstep⟩ := h
  have hnext := hP.next hbefore
  rwa [hstep] at hnext

theorem handleUnit (hP : Lasting context P) (events : List Event) :
    Leads (Took P events) P (handleUnit context events) := by
  intro pipeline value after hbefore haction
  rw [handleUnit_eq pipeline rfl] at haction
  generalize (processEvents _ _ _ _ _).result = result at haction
  cases result with
  | ok processed =>
    refine hP.commitProcessed events processed _ _ _ ?_ haction
    exact hbefore
  | error error =>
    cases error with
    | repo error => cases haction
    | handler event error =>
      refine hP.failChain event.chain _ _ _ _ ?_ haction
      exact hbefore.held hP

theorem handleReorg (hP : Lasting context P) (reorg : Reorg) :
    Leads P P (handleReorg context reorg) := by
  rw [Pipeline.handleReorg]
  refine leads_get.bind fun _ => ?_
  refine (leads_onRepo _ _).bind fun plan => ?_
  refine (leads_write _).bind fun _ => ?_
  refine Leads.bind (leads_modify fun _ h => h) fun _ => ?_
  refine (leads_onRepo _ _).bind fun registrations => ?_
  refine Leads.bind (leads_modify fun _ h => h) fun _ => ?_
  exact leads_get.bind fun pipeline => hP.startFetchers _

theorem handleFailure (hP : Lasting context P) (failure : ChainFailure) :
    Leads P P (handleFailure context failure) := by
  intro pipeline value after hbefore haction
  obtain ⟨-, hfail⟩ | ⟨-, -, rfl⟩ := handleFailure_cases haction
  · exact hP.failChain failure.chain _ _ _ _ hbefore hfail
  · exact hbefore

/-- What lasts holds after each step of a pipeline. -/
theorem advance (hP : Lasting context P) : Leads P P (advance context) := by
  intro pipeline status after hbefore hadvance
  obtain ⟨-, -, rfl⟩ | ⟨step, orderer, -, hstep, hdone, -⟩ := advance_eq_ok hadvance
  · exact hbefore
  have hkept := hP.next hbefore
  rw [hstep] at hkept
  cases step with
  | unit events =>
    have htook : Took P events orderer pipeline.tasks := ⟨pipeline.orderer, hbefore, hstep⟩
    exact hP.handleUnit events _ _ _ htook hdone
  | reorg reorg => exact hP.handleReorg reorg _ _ _ hkept hdone
  | failure failure => exact hP.handleFailure failure _ _ _ hkept hdone
  | stopped => exact leads_pure _ _ _ _ hkept hdone
  | finished => exact leads_pure _ _ _ _ hkept hdone
  | blocked awaited => exact leads_pure _ _ _ _ hkept hdone

/-- What lasts holds after waits, too. -/
theorem goOn (hP : Lasting context P) (awaited : Option (List ChainId)) :
    Leads P P (goOn context awaited) := by
  intro pipeline status after hbefore hgoes
  obtain hadvance | rfl | ⟨failure, rest, -, hdone⟩ := goOn_eq_ok hgoes
  · exact hP.advance _ _ _ hbefore hadvance
  · exact hbefore
  · exact hP.handleFailure failure _ _ _ (hP.hear rest hbefore) hdone

end Lasting

end Pipeline

end ChainIndexer
