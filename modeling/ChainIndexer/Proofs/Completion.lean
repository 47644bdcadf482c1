import ChainIndexer.Proofs.Pipeline.Nearing
import ChainIndexer.Proofs.Release.Stranded

/-!
# Runs that end on their own

A run ends on its own once all its lanes are done and have nothing to report. Every chain that was
not left behind is finished in the store by then, and processed through its end. One kind of chain
is finished without that: its checkpoint was to start only above the end that it has now.
-/

namespace ChainIndexer

variable {τ σ : Type}

theorem Orderer.finished_of_nextStep {orderer after : Orderer}
    (h : orderer.nextStep = (.finished, after)) {id : ChainId} {lane : Lane}
    (hlane : after.lanes.get? id = some lane) :
    lane.isDone = true ∧ lane.hasNewProgress = false := by
  have hmem : lane ∈ after.lanes.values := Table.mem_values_iff.2 ⟨id, hlane⟩
  rw [nextStep] at h
  dsimp only at h
  split at h
  next => cases h
  next => cases h
  next =>
    split at h
    next => cases h
    next hidle =>
      rw [Bool.or_eq_true, not_or, Bool.not_eq_true, Bool.not_eq_true] at hidle
      split at h
      next hdone =>
        cases h
        exact ⟨List.all_eq_true.1 hdone lane hmem,
          Bool.not_eq_true _ ▸ List.any_eq_false.1 hidle.2 lane hmem⟩
      next =>
        split at h
        next => cases h
        next => cases h

/-- Whether what there is of a chain leads to the end of a configured chain of that name. -/
def Standing.NearsOneOf (chains : List Chain) (id : ChainId) (standing : Standing) : Prop :=
  ∃ chain ∈ chains, chain.id = id ∧ standing.Nears chain

namespace Standing.NearsOneOf

theorem upheld (chains : List Chain) : Upheld chains (NearsOneOf chains) Checkpoint.Tight where
  chain := by
    rintro _ _ ⟨chain, -, rfl, h⟩
    exact h.own.chain
  own := by
    rintro _ _ ⟨chain, -, rfl, h⟩
    exact h.own.pending
  drain := by
    rintro _ _ ⟨chain, hchain, hid, h⟩
    exact ⟨chain, hchain, hid, h.drain⟩
  takeReorg := by
    rintro _ _ ⟨chain, hchain, hid, h⟩
    exact ⟨chain, hchain, hid, (Standing.IsOf.upheld chains).takeReorg h.own, h.tight, h.pending,
      h.ordered, h.endBlock, h.next, h.ended, h.last, h.nothing, h.settled⟩
  report := by
    rintro _ _ _ _ _ _ _ ⟨chain, hchain, hid, h⟩ hpending hprogress now
    exact ⟨chain, hchain, hid, h.report hpending hprogress now⟩
  reported := by
    rintro _ _ _ _ _ _ _ ⟨chain, -, rfl, h⟩ hpending hprogress now registering hregistering
    exact h.tight_reported hpending hprogress now _ hregistering
  rewind := fun h block => h.rewind block
  start := fun {chain _} hchain htight _ _ _ _ _ _ =>
    ⟨chain, hchain, rfl, .start htight _ _ _ _ _ _⟩

theorem fed {source : ChainSource τ} (chains : List Chain) (hown : source.AnswersOwn)
    (hwithin : source.AnswersWithin) : Fed source (NearsOneOf chains) where
  close := by
    rintro _ _ ⟨chain, hchain, hid, h⟩
    exact ⟨chain, hchain, hid, h.close false _⟩
  pause := by
    rintro _ _ ⟨chain, hchain, rfl, h⟩ hphase dueAt
    exact ⟨chain, hchain, rfl, h.pause hphase dueAt⟩
  round := by
    rintro _ _ ⟨chain, hchain, hid, h⟩ hidle hfetching context _ _ _ rfl hround clock
    exact ⟨chain, hchain, hid, h.round hown hwithin hidle hfetching hround clock⟩
  send := by
    rintro _ _ _ ⟨chain, hchain, hid, h⟩ hphase clock
    exact ⟨chain, hchain, hid, h.send hphase clock⟩

end Standing.NearsOneOf

namespace Indexer

variable {context : IndexerContext τ σ} {view : σ → Store} {first indexer : Indexer τ σ}
  {sources : Table ChainId τ} {state : σ}

theorem start_nears (hrepo : context.repo.Backed Repo.inMemory view)
    (hstore : (view state).HoldsCheckpoints Checkpoint.Tight)
    (hstart : start context sources state = (.ok (), first)) :
    first.pipeline.Upholds context.config view (Standing.NearsOneOf context.config.chains)
      Checkpoint.Tight :=
  start_upholds hrepo (Standing.NearsOneOf.upheld _) (fun id checkpoint hget =>
    (hstore id checkpoint hget).1) (fun chain _ => .fresh chain)
    (fun chain _ checkpoint hget => (hstore chain.id checkpoint hget).2.resume chain) hstart

/-- A run leaves checkpoints behind from which a later run can go on. -/
theorem Continues.tight (hrepo : context.repo.Backed Repo.inMemory view)
    (hown : context.source.AnswersOwn) (hwithin : context.source.AnswersWithin)
    (hstore : (view state).HoldsCheckpoints Checkpoint.Tight)
    (hstart : start context sources state = (.ok (), first))
    (h : Continues context first indexer) :
    (view indexer.pipeline.repo).HoldsCheckpoints Checkpoint.Tight := by
  refine h.stored hrepo (Standing.NearsOneOf.upheld _)
    (Standing.NearsOneOf.fed _ hown hwithin) (start_nears hrepo hstore hstart) ?_
  obtain ⟨booted, repo, hboot, hrestarts⟩ := restarts_of_start hrepo hstart
  obtain ⟨-, heq | ⟨resetCount, heq⟩, -⟩ := Pipeline.boot_eq_ok hboot
  · rw [hrestarts.sameBooks.view]
    change (view repo).HoldsCheckpoints _
    rw [heq]
    exact hstore
  · rw [hrestarts.sameBooks.view]
    change (view repo).HoldsCheckpoints _
    rw [heq]
    exact fun _ _ hget => nomatch hget

/-- When a run ends on its own, every chain that was not left behind has an end, is finished in the
store, and is processed through its end or was to start only above it. Nothing of it is pending and
all its progress is reported. -/
theorem Continues.complete_of_finished (hrepo : context.repo.Backed Repo.inMemory view)
    (hown : context.source.AnswersOwn) (hwithin : context.source.AnswersWithin)
    (hstore : (view state).HoldsCheckpoints Checkpoint.Tight)
    (hstart : start context sources state = (.ok (), first))
    (h : Continues context first indexer) {now : Int} {after : Pipeline σ}
    (hends : Pipeline.advance { indexer.pipelineContext context with now := now }
      indexer.pipeline = (.ok .finished, after))
    {chain : Chain} (hchain : chain ∈ context.config.chains) (hkept : chain.id ∉ after.degraded) :
    ∃ endBlock checkpoint lane, chain.endBlock = some endBlock ∧
      (view after.repo).checkpoints.get? chain.id = some checkpoint ∧
      checkpoint.isFinished = true ∧ checkpoint.Completes endBlock ∧
      after.orderer.lanes.get? chain.id = some lane ∧ lane.pending = [] ∧
      lane.hasNewProgress = false := by
  have hP := Standing.NearsOneOf.upheld context.config.chains
  have hfed := Standing.NearsOneOf.fed context.config.chains hown hwithin
  have hupholds := h.upholds hrepo hP hfed (start_nears hrepo hstore hstart)
  have hafter := (Moves.advance none hends).upholds hrepo hP hfed hupholds
  have hdistinct : (context.config.chains.map (·.id)).Nodup := by
    obtain ⟨booted, repo, hboot, -⟩ := restarts_of_start hrepo hstart
    exact (Config.validate_eq_ok (Pipeline.boot_eq_ok hboot).1).1
  obtain ⟨lane, hlane⟩ :=
    Option.isSome_iff_exists.1 ((hafter.lanes chain.id).2 ⟨⟨chain, hchain, rfl⟩, hkept⟩)
  obtain ⟨task, tracked, -, -, found, hfound, hid, hnears⟩ := hafter.stands chain.id lane hlane
  obtain rfl : found = chain := List.inj_on_of_nodup_map hdistinct hfound hchain hid
  have hdone : lane.isDone = true ∧ lane.hasNewProgress = false := by
    cases Pipeline.step_of_advance hrepo hends with
    | @rested step orderer _ hstep hrest =>
      cases step with
      | finished => exact Orderer.finished_of_nextStep hstep hlane
      | unit events => cases hrest
      | reorg reorg => cases hrest
      | failure failure => cases hrest
      | stopped => cases hrest
      | blocked awaited => cases hrest
  obtain ⟨hstored, hfinished, endBlock, hend, hcompletes⟩ := hnears.settled hdone.1 hdone.2
  refine ⟨endBlock, tracked, lane, hend, hstored, hfinished, hcompletes, hlane, ?_, hdone.2⟩
  have hempty := hdone.1
  rw [Lane.isDone, Bool.and_eq_true, List.isEmpty_iff] at hempty
  exact hempty.2

/-! ### A sample -/

theorem ofLogs_answersWithin (logs : (chain : ChainId) → ChainLog chain) (head : Nat) :
    (ChainSource.ofLogs logs head).AnswersWithin := by
  intro chain fromBlock toBlock watched before page after hanswer event hevent
  cases hanswer
  have hrange := of_decide_eq_true (List.mem_filter.1 hevent).2
  change event.block ≤ ((logs chain).block toBlock).number
  rw [(logs chain).numbered]
  exact hrange.2

/-- The sample with an end below the block at which its chain was to start in an earlier run. -/
def loweredContext : IndexerContext Unit Store :=
  { sampleContext with config := { sampleContext.config with chains := [⟨1, 0, some 20⟩] } }

/-- What an earlier run left behind that was to start at a high block and processed nothing. -/
def loweredStore : Store :=
  { Store.empty with checkpoints := .ofList [(1, .fresh ⟨1, 50, none⟩)] }

def loweredStart : Indexer Unit Store :=
  (start loweredContext (.ofList [(1, ())]) loweredStore).2

/-- A run that goes on from there, up to the commit of all that it has to report. -/
def loweredRun : Indexer Unit Store :=
  let fetched := (loweredStart.runTask loweredContext 1).runTask loweredContext 1
  { fetched with
    pipeline := (Pipeline.advance (fetched.pipelineContext loweredContext) fetched.pipeline).2 }

/-- That run ends on its own, with the chain finished in the store, though none of its blocks is
processed. -/
theorem loweredRun_finishes :
    (loweredRun.pipeline.repo.checkpoints.get? 1).map (·.processed) = some none ∧
      ∃ after checkpoint,
        Pipeline.advance (loweredRun.pipelineContext loweredContext) loweredRun.pipeline =
          (.ok .finished, after) ∧
        after.repo.checkpoints.get? 1 = some checkpoint ∧ checkpoint.isFinished = true ∧
        checkpoint.Completes 20 := by
  have hstart : start loweredContext (.ofList [(1, ())]) loweredStore = (.ok (), loweredStart) :=
    Prod.ext (by decide +kernel) rfl
  let fetched := (loweredStart.runTask loweredContext 1).runTask loweredContext 1
  have hadvance : (Pipeline.advance (fetched.pipelineContext loweredContext) fetched.pipeline).1 =
      .ok .advanced := by decide +kernel
  have hrun : Continues loweredContext loweredStart loweredRun :=
    ((Relation.ReflTransGen.single (.fetch 1)).tail (.fetch 1)).tail
      (.advance none (Prod.ext hadvance rfl))
  have hends : (Pipeline.advance (loweredRun.pipelineContext loweredContext)
      loweredRun.pipeline).1 = .ok .finished := by decide +kernel
  have hadvanced : Pipeline.advance { loweredRun.pipelineContext loweredContext with now := 0 }
      loweredRun.pipeline = (.ok .finished, (Pipeline.advance
        (loweredRun.pipelineContext loweredContext) loweredRun.pipeline).2) :=
    Prod.ext hends rfl
  have hkept : (1 : ChainId) ∉ (Pipeline.advance (loweredRun.pipelineContext loweredContext)
      loweredRun.pipeline).2.degraded := by decide +kernel
  have hstore : loweredStore.HoldsCheckpoints Checkpoint.Tight := by
    intro id checkpoint hget
    change (Table.empty.insert 1 (Checkpoint.fresh ⟨1, 50, none⟩)).get? id = _ at hget
    rw [Table.get?_insert] at hget
    split at hget
    next hid =>
      cases hget
      exact ⟨hid.symm, .fresh _⟩
    next => cases hget
  have hchain : (⟨1, 0, some 20⟩ : Chain) ∈ loweredContext.config.chains :=
    List.mem_singleton_self _
  have hown : loweredContext.source.AnswersOwn := .ofLogs sampleLogs 1
  have hwithin : loweredContext.source.AnswersWithin := ofLogs_answersWithin sampleLogs 1
  obtain ⟨endBlock, checkpoint, -, hend, hstored, hfinished, hcompletes, -⟩ :=
    Continues.complete_of_finished Repo.inMemory_backed hown hwithin hstore hstart hrun hadvanced
      hchain hkept
  cases hend
  exact ⟨by decide +kernel, _, checkpoint, Prod.ext hends rfl, hstored, hfinished, hcompletes⟩

end Indexer

end ChainIndexer
