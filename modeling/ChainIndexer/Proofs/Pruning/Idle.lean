import ChainIndexer.Proofs.Pipeline.Leaves
import ChainIndexer.Proofs.Pruning.Watched

/-!
# What does not prune

Fetchers that start anew, chains that are left behind and rollbacks change neither the schedule nor
what is noted of a store under watch, however they end. Meanwhile each checkpoint and each lane
stands under its own chain, so that a report can be told by its chain.
-/

namespace ChainIndexer

/-! ### Chains stand under themselves -/

namespace Orderer

/-- Whether each lane stands under its own chain. -/
def Keyed (orderer : Orderer) : Prop :=
  ∀ chain lane, orderer.lanes.get? chain = some lane → lane.chain = chain

variable {orderer after : Orderer}

theorem Keyed.of_map (h : orderer.Keyed) {f : ChainId → Lane → Lane}
    (hf : ∀ chain lane, (f chain lane).chain = lane.chain)
    (hlanes : ∀ chain, after.lanes.get? chain = (orderer.lanes.get? chain).map (f chain)) :
    after.Keyed := by
  intro chain lane hget
  rw [hlanes] at hget
  obtain ⟨before, hbefore, rfl⟩ := Option.map_eq_some_iff.1 hget
  exact (hf chain before).trans (h chain before hbefore)

theorem Keyed.changeLane (h : orderer.Keyed) (id : ChainId) {f : Lane → Lane}
    (hf : ∀ lane, (f lane).chain = lane.chain) : (orderer.changeLane id f).Keyed := by
  intro chain lane hget
  rw [Orderer.changeLane, Table.get?_modify] at hget
  split at hget
  next heq =>
    obtain ⟨before, hbefore, rfl⟩ := Option.map_eq_some_iff.1 hget
    exact (hf before).trans ((h id before hbefore).trans heq.symm)
  next => exact h chain lane hget

theorem Keyed.addLane (h : orderer.Keyed) (lane : Lane) : (orderer.addLane lane).Keyed := by
  intro chain found hget
  rw [Orderer.addLane, Table.get?_insert] at hget
  split at hget
  next heq =>
    cases hget
    exact heq.symm
  next => exact h chain found hget

theorem Keyed.removeLane (h : orderer.Keyed) (id : ChainId) : (orderer.removeLane id).Keyed := by
  intro chain found hget
  rw [Orderer.removeLane, Table.get?_erase] at hget
  split at hget
  next => cases hget
  next => exact h chain found hget

theorem Keyed.drain (h : orderer.Keyed) : orderer.drain.Keyed :=
  h.of_map (fun _ lane => lane.drainItems_chain _) (get?_drain orderer)

theorem Keyed.restore (h : orderer.Keyed) (events : List Event) : (orderer.restore events).Keyed :=
  h.of_map (fun _ lane => (rfl : (lane.restore _).chain = lane.chain))
    (get?_restore orderer events)

theorem Keyed.progress (h : orderer.Keyed) (committed : List Event) :
    (orderer.progress committed).2.2.Keyed :=
  h.of_map (fun _ lane => lane.progress_chain _) (get?_progress orderer committed)

theorem Keyed.takeOrdered (h : orderer.Keyed) (room : Nat) :
    (Orderer.takeOrdered room orderer).2.2.Keyed := by
  induction room generalizing orderer with
  | zero => exact h
  | succ room ih =>
    rw [Orderer.takeOrdered]
    cases leastFront orderer.lanes.entries with
    | none => exact h
    | some front =>
      dsimp only
      cases orderer.blocking front.1 front.2.key with
      | cons first others => exact h
      | nil => exact ih (h.changeLane front.1 fun _ => rfl)

theorem Keyed.takeEvents (h : orderer.Keyed) : orderer.takeEvents.2.2.Keyed := by
  rw [Orderer.takeEvents]
  cases orderer.mode with
  | ordered => exact h.takeOrdered _
  | unordered =>
    dsimp only
    rw [takeUnordered]
    cases orderer.nextServed with
    | none => exact h
    | some chain => exact h.changeLane chain fun _ => rfl

theorem Keyed.nextStep (h : orderer.Keyed) : orderer.nextStep.2.Keyed := by
  generalize hstep : orderer.nextStep = outcome
  obtain ⟨step, after⟩ := outcome
  cases turn_of_nextStep hstep with
  | reorg => exact h.drain.changeLane _ fun _ => rfl
  | failure => exact h.drain
  | unit => exact h.drain.takeEvents
  | finished => exact h.drain.takeEvents
  | stopped => exact h.drain.takeEvents
  | blocked => exact h.drain.takeEvents

end Orderer

namespace Pipeline

variable {σ τ α : Type} {context : PipelineContext σ} {see : σ → τ} {before after : Pipeline σ}
  {chain : ChainId} {chains : List ChainId}

/-- Whether each checkpoint and each lane stands under its own chain. -/
structure Sorted (pipeline : Pipeline σ) : Prop where
  tracker : pipeline.tracker.Keyed
  orderer : pipeline.orderer.Keyed

/-! ### What does not prune -/

/-- Whether an action leaves alone the checkpoints, the schedule and what is seen of the store,
though it fails. -/
abbrev Idles (see : σ → τ) (action : Action σ α) : Prop :=
  action.Keeps Sorted fun pipeline => (pipeline.tracker, pipeline.schedule, see pipeline.repo)

theorem idles_modify {change : Pipeline σ → Pipeline σ}
    (hsorted : ∀ pipeline, pipeline.Sorted → (change pipeline).Sorted)
    (hkept : ∀ pipeline, ((change pipeline).tracker, (change pipeline).schedule,
      (change pipeline).repo) = (pipeline.tracker, pipeline.schedule, pipeline.repo)) :
    Idles see (modify change : Action σ Unit) := by
  intro pipeline result after h hrun
  cases hrun
  have hsee := congrArg (fun kept => (kept.1, kept.2.1, see kept.2.2)) (hkept pipeline)
  exact ⟨hsorted pipeline h, hsee⟩

theorem idles_onRepo {call : Call σ RepoError α} (h : call.Hides see)
    (wrap : RepoError → IndexingError) : Idles see (onRepo call wrap) := by
  intro pipeline result after hsorted hrun
  rw [onRepo] at hrun
  cases hcall : call pipeline.repo with
  | mk answer repo =>
    have hkept := congrArg (pipeline.tracker, pipeline.schedule, ·)
      (h pipeline.repo answer repo trivial hcall).2
    rw [hcall] at hrun
    cases answer with
    | ok value =>
      cases hrun
      exact ⟨⟨hsorted.tracker, hsorted.orderer⟩, hkept⟩
    | error error =>
      cases hrun
      exact ⟨⟨hsorted.tracker, hsorted.orderer⟩, hkept⟩

theorem idles_write {call : Call σ RepoError Unit} (h : call.Hides see) :
    Idles see (write context call) := by
  intro pipeline result after hsorted hrun
  cases hrun
  refine ⟨⟨hsorted.tracker, hsorted.orderer⟩, ?_⟩
  have hkept : see (context.config.writeRetries.write call pipeline.repo).repo =
      see pipeline.repo := by
    have hfails : ∀ before error after, call before = (.error error, after) →
        see after = see before := fun before error after hcall => (h _ _ _ trivial hcall).2
    obtain ⟨-, before, hbefore, hcall⟩ | ⟨-, hview⟩ :=
      RetryPolicy.write_cases context.config.writeRetries hfails pipeline.repo
    · exact (h before _ _ trivial hcall).2.trans hbefore
    · exact hview
  exact congrArg (pipeline.tracker, pipeline.schedule, ·) hkept

theorem idles_startFetcher (h : context.repo.Quiet see) (chain : ChainId) :
    Idles see (startFetcher context chain) := by
  refine keeps_startFetcher fun found checkpoint => ?_
  have habort (pipeline : Pipeline σ) (h : pipeline.Sorted) : (pipeline.abort chain).Sorted :=
    ⟨h.tracker, h.orderer⟩
  have hspawn (recent : List Block) (pipeline : Pipeline σ) (h : pipeline.Sorted) :
      (spawn context found checkpoint recent pipeline).Sorted :=
    ⟨h.tracker, h.orderer.addLane _⟩
  exact Call.Keeps.bind (idles_modify habort fun _ => rfl) fun _ =>
    Call.Keeps.bind (idles_onRepo (h.recentBlocks _ _) _) fun recent =>
      idles_modify (hspawn recent) fun _ => rfl

theorem idles_refetch (h : context.repo.Quiet see) (registering : Option Event) :
    Idles see (refetch context registering) := by
  cases registering with
  | none => exact .pure ()
  | some event => exact idles_startFetcher h event.chain

theorem idles_startFetchers (h : context.repo.Quiet see) (chains : List ChainId) :
    Idles see (startFetchers context chains) :=
  keeps_startFetchers (idles_startFetcher h) chains

theorem idles_failChain (chain : ChainId) (error : IndexingError) :
    Idles see (failChain context chain error) :=
  keeps_failChain (idles_modify
    (fun _ hsorted => ⟨hsorted.tracker, hsorted.orderer.removeLane chain⟩) fun _ => rfl) error

theorem idles_handleFailure (failure : ChainFailure) :
    Idles see (handleFailure context failure) :=
  keeps_handleFailure (idles_failChain failure.chain)

/-- Whether an action leaves alone the schedule and what is seen of the store, though it fails. -/
abbrev Waits (see : σ → τ) (action : Action σ α) : Prop :=
  action.Keeps Sorted fun pipeline => (pipeline.schedule, see pipeline.repo)

theorem Idles.waits {action : Action σ α} (h : Idles see action) : Waits see action :=
  Call.Keeps.map h Prod.snd

theorem waits_handleReorg (h : context.repo.Quiet see) (reorg : Reorg) :
    Waits see (handleReorg context reorg) := by
  rw [handleReorg]
  refine Call.Keeps.get_bind fun pipeline => ?_
  refine Call.Keeps.bind (idles_onRepo (h.make _ _ _) _).waits fun plan => ?_
  refine Call.Keeps.bind (idles_write (h.applyRollback plan)).waits fun _ => ?_
  refine Call.Keeps.bind ?_ fun _ => ?_
  · intro pipeline result after hsorted hrun
    cases hrun
    exact ⟨⟨hsorted.tracker.replace _, hsorted.orderer⟩, rfl⟩
  refine Call.Keeps.bind (idles_onRepo h.registrations _).waits fun registrations => ?_
  refine Call.Keeps.bind ?_ fun _ => ?_
  · intro pipeline result after hsorted hrun
    cases hrun
    exact ⟨⟨hsorted.tracker, hsorted.orderer⟩, rfl⟩
  · exact Call.Keeps.get_bind fun pipeline => (idles_startFetchers h _).waits

end Pipeline

end ChainIndexer
