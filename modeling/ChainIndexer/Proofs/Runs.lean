import ChainIndexer.Proofs.Indexer
import ChainIndexer.Proofs.Pipeline.Upheld
import Mathlib.Logic.Relation

/-!
# Runs

A run may go on in any order: with a step of the pipeline, with one of a fetcher, with a failure
that is reported late, or with the clock and the sources. What steps and fetchers uphold of each
chain holds all along.
-/

namespace ChainIndexer

variable {τ σ ν : Type}

namespace Indexer

/-- Reports a failure of a fetcher, which may have been replaced since. -/
def report (failure : ChainFailure) (indexer : Indexer τ σ) : Indexer τ σ :=
  let orderer := indexer.pipeline.orderer
  { indexer with
    pipeline :=
      { indexer.pipeline with
        orderer := { orderer with failures := orderer.failures ++ [failure] } } }

/-- What may happen next in a run that has not ended. -/
inductive Moves (context : IndexerContext τ σ) (indexer : Indexer τ σ) : Indexer τ σ → Prop
  | advance {now : Int} {status : PipelineStatus} {pipeline : Pipeline σ}
      (awaited : Option (List ChainId))
      (hadvance : Pipeline.goOn { indexer.pipelineContext context with now := now } awaited
        indexer.pipeline = (.ok status, pipeline)) :
      Moves context indexer { indexer with pipeline := pipeline }
  | fetch (id : ChainId) : Moves context indexer (indexer.runTask context id)
  | report (failure : ChainFailure) : Moves context indexer (indexer.report failure)
  | wait (sources : Table ChainId τ) (clock : Nat) (awaited : Option (List ChainId)) :
      Moves context indexer
        { indexer with sources := sources, clock := clock, awaited := awaited }
  | stop : Moves context indexer indexer.requestStop

/-- Whether a run may go on from one state to another. -/
def Continues (context : IndexerContext τ σ) : Indexer τ σ → Indexer τ σ → Prop :=
  Relation.ReflTransGen (Moves context)

end Indexer

/-! ### Fetchers -/

/-- Whether what holds of the chains with lanes is kept by all that their fetchers do. -/
structure Fed (source : ChainSource τ) (P : ChainId → Standing → Prop) : Prop where
  close : ∀ {id standing}, P id standing →
    P id { standing with lane := { standing.lane with queue := standing.lane.queue.close } }
  pause : ∀ {id standing}, P id standing → standing.task.phase = .fetch → ∀ dueAt,
    P id { standing with task := standing.task.goOn .take dueAt }
  round : ∀ {id standing}, P id standing → standing.task.sending = [] →
    standing.task.isFetching = true → ∀ {context : FetchContext τ} {asked result state},
    context.source = source →
    Fetcher.fetchNext context ⟨standing.task.fetcher, asked, 0⟩ = (result, state) → ∀ clock,
    P id { standing with
      task := { standing.task with fetcher := state.fetcher }.afterRound clock result }
  send : ∀ {id standing item}, P id standing → standing.task.phase = .send item → ∀ clock,
    P id { standing with
      lane := { standing.lane with queue := standing.lane.queue.push item }
      task := standing.task.goOn (FetcherTask.phaseAfter item) clock }

variable {P : ChainId → Standing → Prop} {T : Checkpoint → Prop} {config : Config} {id : ChainId}

/-- A change at one chain upholds the same if it keeps what holds of that chain. -/
theorem Pipeline.Upholds.changeAt {view : σ → Store} {before : Pipeline σ}
    (h : before.Upholds config view P T) {orderer : Orderer} {tasks : Table ChainId FetcherTask}
    (id : ChainId) (f : Lane → Lane) (hmode : orderer.mode = before.orderer.mode)
    (hlanes : ∀ other, orderer.lanes.get? other =
      if other = id then (before.orderer.lanes.get? id).map f else before.orderer.lanes.get? other)
    (htasks : ∀ other, other ≠ id → tasks.get? other = before.tasks.get? other)
    (hf : ∀ lane task tracked stored, before.tasks.get? id = some task →
      P id ⟨lane, task, tracked, stored⟩ →
      ∃ task', tasks.get? id = some task' ∧ P id ⟨f lane, task', tracked, stored⟩) :
    { before with orderer := orderer, tasks := tasks }.Upholds config view P T := by
  refine ⟨hmode.trans h.mode, h.keyed, h.sane, h.nodup, fun other => ?_, fun other lane hget => ?_⟩
  · rw [← h.lanes other]
    dsimp only
    rw [hlanes]
    split
    next heq => rw [Option.isSome_map, heq]
    next => rfl
  · dsimp only at hget
    rw [hlanes] at hget
    split at hget
    next heq =>
      subst heq
      obtain ⟨lane, hbefore, rfl⟩ := Option.map_eq_some_iff.1 hget
      obtain ⟨task, tracked, htask, htracked, hholds⟩ := h.stands other lane hbefore
      obtain ⟨task', htask', hkept⟩ := hf lane task tracked _ htask hholds
      exact ⟨task', tracked, htask', htracked, hkept⟩
    next hne =>
      obtain ⟨task, tracked, htask, htracked, hholds⟩ := h.stands other lane hget
      exact ⟨task, tracked, (htasks other hne).trans htask, htracked, hholds⟩

namespace Indexer

variable {context : IndexerContext τ σ} {first indexer after : Indexer τ σ} {view : σ → Store}
  {task task' : FetcherTask}

theorem changeTask_upholds (h : indexer.pipeline.Upholds config view P T)
    (htask : indexer.pipeline.tasks.get? id = some task)
    (hkept : ∀ lane tracked stored, P id ⟨lane, task, tracked, stored⟩ →
      P id ⟨lane, task', tracked, stored⟩) :
    (indexer.changeTask id task').pipeline.Upholds config view P T := by
  refine h.changeAt id (fun lane => lane) rfl (fun other => ?_) (fun other hne => ?_) ?_
  · split
    next heq => rw [heq, Option.map_id']
    next => rfl
  · exact (Table.get?_insert ..).trans (if_neg hne)
  · intro lane before tracked stored hbefore hholds
    rw [htask] at hbefore
    cases hbefore
    exact ⟨task', (Table.get?_insert ..).trans (if_pos rfl), hkept lane tracked stored hholds⟩

theorem closeLane_upholds (h : indexer.pipeline.Upholds config view P T)
    (hfed : Fed context.source P) (id : ChainId) :
    (indexer.closeLane id).pipeline.Upholds config view P T := by
  refine h.changeAt id (fun lane => { lane with queue := lane.queue.close }) rfl
    (fun other => Table.get?_modify ..) (fun _ _ => rfl) ?_
  intro lane task tracked stored htask hholds
  exact ⟨task, htask, hfed.close hholds⟩

theorem takeRound_upholds (h : indexer.pipeline.Upholds config view P T)
    (hfed : Fed context.source P) (htask : indexer.pipeline.tasks.get? id = some task)
    (hidle : task.sending = []) (hfetching : task.isFetching = true) (source : τ) :
    (indexer.takeRound context id task source).pipeline.Upholds config view P T := by
  cases hround : indexer.round context id task source with
  | mk result state =>
    refine takeRound_induction (Q := fun pipeline => pipeline.Upholds config view P T)
      (fun hkept => closeLane_upholds hkept hfed) hround (fun failures hkept => ?_) ?_
    · exact ⟨hkept.mode, hkept.keyed, hkept.sane, hkept.nodup, hkept.lanes, hkept.stands⟩
    · exact changeTask_upholds h htask fun lane tracked stored hholds =>
        hfed.round hholds hidle hfetching rfl hround _

theorem send_upholds (h : indexer.pipeline.Upholds config view P T) (hfed : Fed context.source P)
    (htask : indexer.pipeline.tasks.get? id = some task) {item : QueueItem}
    (hphase : task.phase = .send item) :
    (indexer.send id task item).pipeline.Upholds config view P T := by
  refine send_induction (Q := fun pipeline => pipeline.Upholds config view P T)
    (fun hkept => closeLane_upholds hkept hfed) ?_
  refine h.changeAt id (fun lane => { lane with queue := lane.queue.push item }) rfl
    (fun other => Table.get?_modify ..)
    (fun other hne => (Table.get?_insert ..).trans (if_neg hne)) ?_
  intro lane before tracked stored hbefore hholds
  rw [htask] at hbefore
  cases hbefore
  exact ⟨_, (Table.get?_insert ..).trans (if_pos rfl), hfed.send hholds hphase _⟩

/-- A step of a fetcher upholds what fetchers keep. -/
theorem runTask_upholds (h : indexer.pipeline.Upholds config view P T)
    (hfed : Fed context.source P) (id : ChainId) :
    (indexer.runTask context id).pipeline.Upholds config view P T := by
  generalize hafter : indexer.runTask context id = after
  cases fetcherStep_of_runTask hafter with
  | idle => exact h
  | round source htask hphase =>
    exact takeRound_upholds h hfed htask (FetcherTask.sending_of_round hphase)
      (FetcherTask.isFetching_of_round hphase) source
  | pause dueAt htask hphase =>
    exact changeTask_upholds h htask fun lane tracked stored hholds => hfed.pause hholds hphase _
  | send htask hphase => exact send_upholds h hfed htask hphase

theorem runTask_sameBooks (view : σ → ν) (indexer : Indexer τ σ) (id : ChainId) :
    indexer.pipeline.SameBooks view (indexer.runTask context id).pipeline := by
  generalize hafter : indexer.runTask context id = after
  cases fetcherStep_of_runTask hafter with
  | idle => exact ⟨rfl, rfl, rfl, rfl, rfl⟩
  | @round task source _ _ =>
    rw [takeRound]
    cases hround : indexer.round context id task source with
    | mk result state =>
      cases result with
      | ok fetched => exact ⟨rfl, rfl, rfl, rfl, rfl⟩
      | error error => exact ⟨rfl, rfl, rfl, rfl, rfl⟩
  | pause => exact ⟨rfl, rfl, rfl, rfl, rfl⟩
  | @send _ item _ _ => cases item <;> exact ⟨rfl, rfl, rfl, rfl, rfl⟩

/-! ### Runs -/

/-- What happens in a run is a step of its pipeline, or leaves the books alone. -/
theorem Moves.cases {memory : Repo ν} {view : σ → ν} (hrepo : context.repo.Backed memory view)
    (h : Moves context indexer after) :
    (∃ now status, Pipeline.Step { indexer.pipelineContext context with now := now } memory view
      indexer.pipeline status after.pipeline) ∨
      indexer.pipeline.SameBooks view after.pipeline := by
  cases h with
  | advance awaited hadvance =>
    obtain hstep | rfl := Pipeline.step_of_goOn hrepo hadvance
    · exact Or.inl ⟨_, hstep⟩
    · exact Or.inr ⟨rfl, rfl, rfl, rfl, rfl⟩
  | fetch id => exact Or.inr (runTask_sameBooks view indexer id)
  | report failure => exact Or.inr ⟨rfl, rfl, rfl, rfl, rfl⟩
  | wait => exact Or.inr ⟨rfl, rfl, rfl, rfl, rfl⟩
  | stop => exact Or.inr ⟨rfl, rfl, rfl, rfl, rfl⟩

theorem Moves.upholds (hrepo : context.repo.Backed Repo.inMemory view)
    (hP : Upheld context.config.chains P T) (hfed : Fed context.source P)
    (h : Moves context indexer after)
    (hbefore : indexer.pipeline.Upholds context.config view P T) :
    after.pipeline.Upholds context.config view P T := by
  cases h with
  | advance awaited hadvance =>
    obtain ⟨_, hstep⟩ | rfl := Pipeline.step_of_goOn hrepo hadvance
    · exact hstep.upholds hbefore hP
    · exact hbefore
  | fetch id => exact runTask_upholds hbefore hfed id
  | report failure =>
    exact ⟨hbefore.mode, hbefore.keyed, hbefore.sane, hbefore.nodup, hbefore.lanes, hbefore.stands⟩
  | wait => exact hbefore
  | stop =>
    exact ⟨hbefore.mode, hbefore.keyed, hbefore.sane, hbefore.nodup, hbefore.lanes, hbefore.stands⟩

/-- However the indexer lets the pipeline and the fetchers take turns, its run goes on so. -/
theorem Continues.runUntil {holds : Indexer τ σ → Bool} {fuel : Nat} {phase : IndexerPhase}
    (h : Continues context first indexer)
    (hrun : indexer.runUntil context holds fuel = (phase, after))
    (hphase : ∀ error, phase ≠ .ended (.error error)) : Continues context first after :=
  runUntil_induction (fun hrun id => hrun.tail (.fetch id))
    (fun hrun clock awaited => hrun.tail (.wait _ clock awaited))
    (fun hrun awaited hadvance => hrun.tail (.advance awaited hadvance)) h hrun hphase

/-- A run upholds what its steps and its fetchers keep. -/
theorem Continues.upholds (hrepo : context.repo.Backed Repo.inMemory view)
    (hP : Upheld context.config.chains P T) (hfed : Fed context.source P)
    (h : Continues context first indexer)
    (hfirst : first.pipeline.Upholds context.config view P T) :
    indexer.pipeline.Upholds context.config view P T := by
  induction h with
  | refl => exact hfirst
  | tail _ hmove ih => exact hmove.upholds hrepo hP hfed ih

/-- What holds of the stored checkpoints of a run holds of those that it leaves behind. -/
theorem Continues.stored (hrepo : context.repo.Backed Repo.inMemory view)
    (hP : Upheld context.config.chains P T) (hfed : Fed context.source P)
    (h : Continues context first indexer)
    (hfirst : first.pipeline.Upholds context.config view P T)
    (hstored : (view first.pipeline.repo).HoldsCheckpoints T) :
    (view indexer.pipeline.repo).HoldsCheckpoints T := by
  induction h with
  | refl => exact hstored
  | tail hrun hmove ih =>
    have hbetween := Continues.upholds hrepo hP hfed hrun hfirst
    obtain ⟨now, status, hstep⟩ | hbooks := hmove.cases hrepo
    · exact hstep.stored hbetween hP ih
    · rw [hbooks.view]
      exact ih

/-- A run boots, and then starts the fetchers of all configured chains. -/
theorem restarts_of_start {memory : Repo ν} {view : σ → ν}
    (hrepo : context.repo.Backed memory view) {sources : Table ChainId τ} {state : σ}
    (hstart : start context sources state = (.ok (), indexer)) :
    ∃ booted repo, boot memory context.config (view state) = (.ok booted, view repo) ∧
      Pipeline.Restarts (pipelineContext context ⟨.ofBooted context.config booted repo, sources, 0, none⟩)
        view ((context.config.chains.map (·.id)).mergeSort)
        (.ofBooted context.config booted repo) indexer.pipeline := by
  obtain ⟨booted, repo, hboot, hfetchers⟩ := start_eq_ok hstart
  exact ⟨booted, repo, hrepo.boot hboot, Pipeline.restarts_of_startFetchers hrepo hfetchers⟩

/-- A run starts with new lanes for all chains. -/
theorem start_upholds (hrepo : context.repo.Backed Repo.inMemory view)
    (hP : Upheld context.config.chains P T) {sources : Table ChainId τ} {state : σ}
    (hkeyed : ∀ id checkpoint, (view state).checkpoints.get? id = some checkpoint →
      checkpoint.chain = id)
    (hfresh : ∀ chain ∈ context.config.chains, T (.fresh chain))
    (hresume : ∀ chain ∈ context.config.chains, ∀ checkpoint,
      (view state).checkpoints.get? chain.id = some checkpoint → T (checkpoint.resume chain))
    (hstart : start context sources state = (.ok (), indexer)) :
    indexer.pipeline.Upholds context.config view P T := by
  obtain ⟨booted, repo, hboot, hrestarts⟩ := restarts_of_start hrepo hstart
  obtain ⟨hvalidate, hreset, rfl⟩ := Pipeline.boot_eq_ok hboot
  have hstored : (∀ id checkpoint, (view repo).checkpoints.get? id = some checkpoint →
        checkpoint.chain = id) ∧
      ∀ chain ∈ context.config.chains, T (Tracker.resumed (view repo).checkpoints chain) := by
    rcases hreset with heq | ⟨resetCount, heq⟩
    · rw [heq]
      refine ⟨hkeyed, fun chain hchain => ?_⟩
      rw [Tracker.resumed]
      split
      next checkpoint hget => exact hresume chain hchain checkpoint hget
      next => exact hfresh chain hchain
    · rw [heq]
      refine ⟨fun _ _ hget => ?_, hfresh⟩
      cases hget
  obtain ⟨hkeyed, hresumed⟩ :=
    Tracker.start_values hstored.1 (Config.validate_eq_ok hvalidate).1
  refine hrestarts.upholds hP rfl hkeyed (fun id checkpoint hget => ?_) List.nodup_nil
    (fun id => ?_) (fun id hid => ?_) fun id lane _ hget => ?_
  · obtain ⟨chain, hchain, rfl⟩ := Tracker.exists_of_start hget
    have hsame := (hresumed chain hchain).symm.trans hget
    rw [← Option.some.inj hsame]
    exact hstored.2 chain hchain
  · exact (or_iff_right Bool.false_ne_true).trans
      (mem_sorted_ids.trans (and_iff_left List.not_mem_nil).symm)
  · obtain ⟨chain, hchain, rfl⟩ := mem_sorted_ids.1 hid
    exact ⟨_, hresumed chain hchain⟩
  · cases hget

end Indexer

end ChainIndexer
