import ChainIndexer.Proofs.Indexer
import ChainIndexer.Proofs.Rollback.Plan

/-!
# Indexing each event once

Whatever an indexer over memory does with chains that are never forked, and however often it is
started again from what it stored, its store holds each event that is due and covered by the
checkpoint of its chain, once and in order.
-/

namespace ChainIndexer

namespace Indexer

variable {τ : Type} {context : IndexerContext τ Store} {indexer after : Indexer τ Store}
  {logs : (chain : ChainId) → ChainLog chain} {chain : Chain}

/-- The states of runs, the first one over an empty store. The pipeline and each of the fetchers may
go on at any time, and a run may end at any time for another to start from its store. -/
inductive Reached (context : IndexerContext τ Store) : Indexer τ Store → Prop
  | boot {indexer : Indexer τ Store} {sources : Table ChainId τ}
      (hstart : start context sources Store.empty = (.ok (), indexer)) : Reached context indexer
  | restart {indexer after : Indexer τ Store} {sources : Table ChainId τ}
      (h : Reached context indexer)
      (hstart : start context sources indexer.pipeline.repo = (.ok (), after)) :
      Reached context after
  | advance {indexer : Indexer τ Store} {now : Int} {status : PipelineStatus}
      {pipeline : Pipeline Store} (h : Reached context indexer) (awaited : Option (List ChainId))
      (hadvance : Pipeline.goOn { indexer.pipelineContext context with now := now } awaited
        indexer.pipeline = (.ok status, pipeline)) :
      Reached context { indexer with pipeline := pipeline }
  | fetch {indexer : Indexer τ Store} (h : Reached context indexer) (chain : ChainId) :
      Reached context (indexer.runTask context chain)
  | wait {indexer : Indexer τ Store} (h : Reached context indexer) (sources : Table ChainId τ)
      (clock : Nat) (awaited : Option (List ChainId)) :
      Reached context { indexer with sources := sources, clock := clock, awaited := awaited }
  | stop {indexer : Indexer τ Store} (h : Reached context indexer) :
      Reached context indexer.requestStop

theorem Reached.runUntil {holds : Indexer τ Store → Bool} {fuel : Nat} {phase : IndexerPhase}
    (h : Reached context indexer) (hrun : indexer.runUntil context holds fuel = (phase, after))
    (hphase : ∀ error, phase ≠ .ended (.error error)) : Reached context after :=
  runUntil_induction (fun hreached id => hreached.fetch id)
    (fun hreached clock awaited => hreached.wait _ clock awaited)
    (fun hreached awaited hadvance => hreached.advance awaited hadvance) h hrun hphase

theorem start_steady {sources : Table ChainId τ} {store : Store}
    (hrepo : context.repo = Repo.inMemory)
    (hstore : store.Sound context.config context.handlers logs)
    (hstart : start context sources store = (.ok (), indexer)) :
    context.config.validate = .ok () ∧
      indexer.pipeline.Steady context.config context.handlers logs := by
  obtain ⟨booted, repo, hboot, hfetchers⟩ := start_eq_ok hstart
  rw [hrepo] at hboot
  obtain ⟨hvalid, hsound⟩ := Pipeline.sound_of_boot hstore hboot
  have hsteady : (Pipeline.ofBooted context.config booted repo).Steady context.config
      context.handlers logs := ⟨hsound, fun _ _ => rfl⟩
  exact ⟨hvalid, hsteady.startFetchers hrepo (Config.validate_eq_ok hvalid).2
    (fun _ => mem_sorted_ids.1) hfetchers⟩

theorem Reached.steady (hrepo : context.repo = Repo.inMemory)
    (hpruning : context.config.pruning = none) (hhonest : context.source.Honest logs)
    (h : Reached context indexer) :
    context.config.validate = .ok () ∧
      indexer.pipeline.Steady context.config context.handlers logs := by
  induction h with
  | boot hstart =>
    exact start_steady hrepo (.empty context.config context.handlers logs 0) hstart
  | restart _ hstart ih => exact start_steady hrepo ih.2.sound.store hstart
  | advance _ _ hadvance ih =>
    exact ⟨ih.1, ih.2.goOn hrepo (Config.validate_eq_ok ih.1).2 hpruning hadvance⟩
  | fetch _ chain ih => exact ⟨ih.1, runTask_steady ih.2 hhonest chain⟩
  | wait _ _ _ _ ih => exact ih
  | stop _ ih =>
    exact ⟨ih.1, ih.2.sound.of_lanes rfl rfl rfl rfl fun _ lane hlane => ⟨lane, hlane, rfl⟩,
      ih.2.serves⟩

/-- Every reached store holds of each chain, in order and each once, exactly the due events that the
checkpoint of the chain covers, and the checkpoint counts them. -/
theorem Reached.exactly_once (hrepo : context.repo = Repo.inMemory)
    (hpruning : context.config.pruning = none) (hhonest : context.source.Honest logs)
    (h : Reached context indexer) (hchain : chain ∈ context.config.chains) :
    indexer.pipeline.repo.eventsOf chain.id =
        ((logs chain.id).events.filter fun event =>
          indexer.pipeline.repo.isDue context.config.contracts context.handlers chain event
            && (indexer.pipeline.repo.checkpointOf chain).covers event.position) ∧
      (indexer.pipeline.repo.checkpointOf chain).events =
        (indexer.pipeline.repo.eventsOf chain.id).length := by
  have haccurate := (h.steady hrepo hpruning hhonest).2.sound.store.accurate chain hchain
  exact ⟨haccurate.events, haccurate.count⟩

/-! ### A sample -/

/-- A chain with an event in each of its first two blocks. -/
def sampleLogs (chain : ChainId) : ChainLog chain where
  events := if chain = 1 then [.placed 1 0 0, .placed 1 1 0] else []
  inOrder := by
    unfold InOrder
    split <;> decide
  own := by
    split
    next hchain =>
      subst hchain
      decide
    next => exact fun _ hmem => absurd hmem List.not_mem_nil
  block number := { (default : Block) with number := number }
  numbered _ := rfl
  linked _ := rfl

/-- An indexer of that chain that fetches one block after the other. -/
def sampleContext : IndexerContext Unit Store where
  config :=
    { Config.base with
      chains := [⟨1, 0, some 1⟩]
      contracts := [⟨"", [⟨1, "", "", 0⟩], []⟩]
      blocksPerBatch := 1 }
  handlers := ⟨[("", ⟨"", fun _ => .done (), fun _ => .done ()⟩)]⟩
  repo := .inMemory
  source := .ofLogs sampleLogs 1
  now := 0
  responseMicros := 0
  waited _ := 0

/-- A run of the sample that fetched and committed one batch. -/
def sampleRun : Indexer Unit Store :=
  let started := (start sampleContext (.ofList [(1, ())]) Store.empty).2
  let fetched := (started.runTask sampleContext 1).runTask sampleContext 1
  { fetched with
    pipeline := (Pipeline.advance (fetched.pipelineContext sampleContext) fetched.pipeline).2 }

theorem Reached.sampleRun : Reached sampleContext sampleRun := by
  let started := (start sampleContext (.ofList [(1, ())]) Store.empty).2
  let asked := started.runTask sampleContext 1
  let fetched := asked.runTask sampleContext 1
  have hstarted : Reached sampleContext started := .boot (Prod.ext (by decide +kernel) rfl)
  have hasked : Reached sampleContext asked := hstarted.fetch 1
  have hfetched : Reached sampleContext fetched := hasked.fetch 1
  have hadvance : (Pipeline.advance (fetched.pipelineContext sampleContext) fetched.pipeline).1 =
      .ok .advanced := by decide +kernel
  exact hfetched.advance none (Prod.ext hadvance rfl)

theorem sampleRun_exactly_once :
    sampleRun.pipeline.repo.rawEvents = [.placed 1 0 0] ∧
      sampleRun.pipeline.repo.eventsOf 1 = (sampleLogs 1).events.filter fun event =>
        sampleRun.pipeline.repo.isDue sampleContext.config.contracts sampleContext.handlers
            ⟨1, 0, some 1⟩ event
          && (sampleRun.pipeline.repo.checkpointOf ⟨1, 0, some 1⟩).covers event.position := by
  have hchain : (⟨1, 0, some 1⟩ : Chain) ∈ sampleContext.config.chains := List.mem_singleton_self _
  have hexact := Reached.exactly_once rfl rfl (.ofLogs sampleLogs 1) .sampleRun hchain
  exact ⟨by decide +kernel, hexact.1⟩

end Indexer

end ChainIndexer
