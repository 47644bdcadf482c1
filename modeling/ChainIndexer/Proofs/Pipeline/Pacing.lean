import ChainIndexer.Proofs.Runs

/-!
# Requests for at least one block

A fetcher starts with the batch size of the configuration, which is positive if the configuration is
valid, and each adjustment keeps it so. Thus no fetcher ever asks for an empty range of blocks.
-/

namespace ChainIndexer

variable {τ σ ν : Type} {id : ChainId}

/-- Whether a fetcher that goes on asks for at least one block at once. -/
def FetcherTask.Paced (task : FetcherTask) : Prop :=
  task.isFetching = true → task.fetcher.batchSize.Positive

namespace FetcherTask.Paced

variable {task : FetcherTask}

theorem pause (h : task.Paced) (hphase : task.phase = .fetch) (dueAt : Nat) :
    (task.goOn .take dueAt).Paced := fun _ =>
  h (isFetching_of_round (Or.inl hphase))

theorem send (h : task.Paced) {item : QueueItem} (hphase : task.phase = .send item) (clock : Nat) :
    (task.goOn (phaseAfter item) clock).Paced := fun hstill =>
  h ((isFetching_phaseAfter hphase clock).symm.trans hstill)

theorem afterRound (h : task.Paced) {context : FetchContext τ} {source : τ}
    {result : Except FetchError Fetched} {state : FetchState τ} (hfetching : task.isFetching = true)
    (hround : Fetcher.fetchNext context ⟨task.fetcher, source, 0⟩ = (result, state)) (clock : Nat) :
    ({ task with fetcher := state.fetcher }.afterRound clock result).Paced := by
  intro hstill
  have hspec := Fetcher.fetchNext_spec (h hfetching) hround
  cases result with
  | error error => cases hstill
  | ok fetched =>
    cases fetched with
    | batch batch =>
      obtain ⟨page, -, hmoves⟩ := hspec
      exact hmoves.positive
    | reorg reorg => cases hstill
    | atHead => exact hspec.positive (h hfetching)
    | finished => cases hstill

end FetcherTask.Paced

namespace Pipeline

variable {context : PipelineContext σ} {memory : Repo ν} {view : σ → ν} {before after : Pipeline σ}
  {chains : List ChainId} {task : FetcherTask}

/-- Whether all fetchers of a pipeline ask for at least one block at once. -/
def Paced (pipeline : Pipeline σ) : Prop :=
  ∀ id task, pipeline.tasks.get? id = some task → task.Paced

theorem Paced.insert (h : before.Paced) (htasks : after.tasks = before.tasks.insert id task)
    (htask : task.Paced) : after.Paced := by
  intro other found hget
  rw [htasks, Table.get?_insert] at hget
  split at hget
  next =>
    cases hget
    exact htask
  next => exact h other found hget

theorem Paced.degrade (h : before.Paced) (chain : ChainId) : (degrade chain before).Paced := by
  intro id task hget
  change (before.tasks.erase chain).get? id = some task at hget
  rw [Table.get?_erase] at hget
  split at hget
  next => cases hget
  next => exact h id task hget

theorem Restarts.paced (h : Restarts context view chains before after)
    (hvalid : 1 ≤ context.config.minBlocksPerBatch) (hbefore : before.Paced) : after.Paced := by
  induction h with
  | nil => exact hbefore
  | skip _ _ ih => exact ih hbefore
  | @spawn chain rest before after found checkpoint repo recent _ _ _ _ ih =>
    refine ih fun id task hget => ?_
    change ((before.tasks.erase chain).insert found.id _).get? id = some task at hget
    rw [Table.get?_insert, Table.get?_erase] at hget
    split at hget
    next =>
      cases hget
      exact fun _ => positive_ofConfig hvalid
    next =>
      split at hget
      next => cases hget
      next => exact hbefore id task hget

theorem Step.paced {status : PipelineStatus} (h : Step context memory view before status after)
    (hvalid : 1 ≤ context.config.minBlocksPerBatch) (hbefore : before.Paced) : after.Paced := by
  cases h with
  | halted => exact hbefore
  | rested => exact hbefore
  | ignored => exact hbefore
  | lost => exact Paced.degrade hbefore _
  | gaveUp => exact Paced.degrade hbefore _
  | idle => exact hbefore
  | committed _ _ _ _ hrestarts _ => exact hrestarts.paced hvalid hbefore
  | rolledBack _ _ _ _ hrestarts => exact hrestarts.paced hvalid hbefore

end Pipeline

namespace Indexer

variable {context : IndexerContext τ σ} {indexer after : Indexer τ σ} {view : σ → Store}
  {task : FetcherTask}

theorem takeRound_paced (h : indexer.pipeline.Paced)
    (htask : indexer.pipeline.tasks.get? id = some task) (hfetching : task.isFetching = true)
    (source : τ) : (indexer.takeRound context id task source).pipeline.Paced := by
  cases hround : indexer.round context id task source with
  | mk result state =>
    have hpaced := (h id task htask).afterRound hfetching hround indexer.clock
    rw [takeRound, hround]
    cases result with
    | ok fetched => exact h.insert rfl hpaced
    | error error => exact h.insert rfl hpaced

theorem send_paced (h : indexer.pipeline.Paced) (hpaced : task.Paced) {item : QueueItem}
    (hphase : task.phase = .send item) : (indexer.send id task item).pipeline.Paced := by
  have hsent := hpaced.send hphase indexer.clock
  cases item with
  | batch batch => exact h.insert rfl hsent
  | reorg reorg => exact h.insert rfl hsent
  | finished => exact h.insert rfl hsent

theorem runTask_paced (h : indexer.pipeline.Paced) (id : ChainId) :
    (indexer.runTask context id).pipeline.Paced := by
  generalize hafter : indexer.runTask context id = after
  cases fetcherStep_of_runTask hafter with
  | idle => exact h
  | round source htask hphase =>
    exact takeRound_paced h htask (FetcherTask.isFetching_of_round hphase) source
  | pause dueAt htask hphase => exact h.insert rfl ((h id _ htask).pause hphase _)
  | send htask hphase => exact send_paced h (h id _ htask) hphase

theorem Moves.paced (hrepo : context.repo.Backed Repo.inMemory view)
    (hvalid : 1 ≤ context.config.minBlocksPerBatch) (h : Moves context indexer after)
    (hbefore : indexer.pipeline.Paced) : after.pipeline.Paced := by
  cases h with
  | advance awaited hadvance =>
    obtain ⟨_, hstep⟩ | rfl := Pipeline.step_of_goOn hrepo hadvance
    · exact hstep.paced hvalid hbefore
    · exact hbefore
  | fetch id => exact runTask_paced hbefore id
  | report failure => exact hbefore
  | wait => exact hbefore
  | stop => exact hbefore

theorem start_paced (hrepo : context.repo.Backed Repo.inMemory view) {sources : Table ChainId τ}
    {state : σ} (hstart : start context sources state = (.ok (), indexer)) :
    1 ≤ context.config.minBlocksPerBatch ∧ indexer.pipeline.Paced := by
  obtain ⟨booted, repo, hboot, hrestarts⟩ := restarts_of_start hrepo hstart
  have hvalid := (Config.validate_eq_ok (Pipeline.boot_eq_ok hboot).1).2
  exact ⟨hvalid, hrestarts.paced hvalid fun _ _ hget => nomatch hget⟩

variable {P : ChainId → Standing → Prop} {T : Checkpoint → Prop}

/-- What is upheld of the chains with lanes needs to be kept by paced fetchers only. -/
theorem Moves.upholds_paced (hrepo : context.repo.Backed Repo.inMemory view)
    (hvalid : 1 ≤ context.config.minBlocksPerBatch) (hP : Upheld context.config.chains P T)
    (hfed : Fed context.source fun id standing => standing.task.Paced ∧ P id standing)
    (h : Moves context indexer after) (hpaced : indexer.pipeline.Paced)
    (hbefore : indexer.pipeline.Upholds context.config view P T) :
    after.pipeline.Paced ∧ after.pipeline.Upholds context.config view P T := by
  refine ⟨h.paced hrepo hvalid hpaced, ?_⟩
  cases h with
  | advance awaited hadvance =>
    obtain ⟨_, hstep⟩ | rfl := Pipeline.step_of_goOn hrepo hadvance
    · exact hstep.upholds hbefore hP
    · exact hbefore
  | fetch id =>
    have hboth : indexer.pipeline.Upholds context.config view
        (fun id standing => standing.task.Paced ∧ P id standing) T := by
      refine ⟨hbefore.mode, hbefore.keyed, hbefore.sane, hbefore.nodup, hbefore.lanes, ?_⟩
      intro other lane hlane
      obtain ⟨task, tracked, htask, htracked, hholds⟩ := hbefore.stands other lane hlane
      exact ⟨task, tracked, htask, htracked, hpaced other task htask, hholds⟩
    have hfetched := runTask_upholds hboth hfed id
    refine ⟨hfetched.mode, hfetched.keyed, hfetched.sane, hfetched.nodup, hfetched.lanes, ?_⟩
    intro other lane hlane
    obtain ⟨task, tracked, htask, htracked, -, hholds⟩ := hfetched.stands other lane hlane
    exact ⟨task, tracked, htask, htracked, hholds⟩
  | report failure =>
    exact ⟨hbefore.mode, hbefore.keyed, hbefore.sane, hbefore.nodup, hbefore.lanes, hbefore.stands⟩
  | wait => exact hbefore
  | stop =>
    exact ⟨hbefore.mode, hbefore.keyed, hbefore.sane, hbefore.nodup, hbefore.lanes, hbefore.stands⟩

end Indexer

end ChainIndexer
