import ChainIndexer.Proofs.ExactlyOnce
import ChainIndexer.Proofs.Fork.Steps
import Mathlib

/-!
# Forks while nothing is fetched

A fetcher that starts from a store checks the block before the one where it goes on. So a fork below
is noticed, and one that replaces just the block that was begun is not.
-/

namespace ChainIndexer

/-! ### Outcomes of a start -/

/-- What a fetcher comes to first, once it need not wait for its chain to grow. The source may be
forked, and other addresses may be watched, before each round. -/
inductive Fetcher.ComesTo {τ : Type} (source : ChainSource τ) :
    Fetcher → Except FetchError Fetched → Prop
  | now {context : FetchContext τ} {fetcher : Fetcher} {state : τ} {after : FetchState τ}
      {result : Except FetchError Fetched} (hsource : context.source = source)
      (hround : fetchNext context ⟨fetcher, state, 0⟩ = (result, after))
      (hresult : result ≠ .ok .atHead) : ComesTo source fetcher result
  | later {context : FetchContext τ} {fetcher : Fetcher} {state : τ} {after : FetchState τ}
      {result : Except FetchError Fetched} (hsource : context.source = source)
      (hround : fetchNext context ⟨fetcher, state, 0⟩ = (.ok .atHead, after))
      (h : ComesTo source after.fetcher result) : ComesTo source fetcher result

/-- The outcome is that of a round that finds the fetcher at its place. -/
theorem Fetcher.ComesTo.exists_round {τ : Type} {source : ChainSource τ} {fetcher : Fetcher}
    {result : Except FetchError Fetched} (hpositive : fetcher.batchSize.Positive)
    (h : fetcher.ComesTo source result) :
    ∃ context : FetchContext τ, ∃ waited state after, context.source = source ∧
      fetcher.Stays waited ∧ fetchNext context ⟨waited, state, 0⟩ = (result, after) ∧
      result ≠ .ok .atHead := by
  induction h with
  | now hsource hround hresult => exact ⟨_, _, _, _, hsource, .refl _, hround, hresult⟩
  | later hsource hround _ ih =>
    have hstays := fetchNext_checked hpositive hround
    obtain ⟨context, waited, state, after, hsame, hlater, hround, hresult⟩ :=
      ih (hstays.positive hpositive)
    exact ⟨context, waited, state, after, hsame, hstays.trans hlater, hround, hresult⟩

/-- The fetcher of a chain that starts from a store. -/
def Store.fetcher (store : Store) (config : Config) (chain : Chain) (checkpoint : Checkpoint) :
    Fetcher :=
  .start chain checkpoint
    (.start config.maxRecordedBlocks (store.recentBlocks chain.id config.maxRecordedBlocks))
    (.ofConfig config)

/-- A fetcher that starts from a store brings what the store has below the block where it goes on,
but it may replace that block and with it events that are stored. -/
theorem Store.Traces.comesTo {τ : Type} {store : Store} {chain : Chain} (h : store.Traces chain)
    {versions : (chain : ChainId) → ChainVersions chain}
    (htold : (versions chain.id).Tell (store.eventsOf chain.id) (store.blocksOf chain.id))
    {config : Config} (hvalid : config.validate = .ok ()) {checkpoint : Checkpoint}
    (hcheckpoint : checkpoint.AgreesWith (store.checkpointOf chain)) {source : ChainSource τ}
    (hsource : source.Presents versions) (result : Except FetchError Fetched) :
    (store.fetcher config chain checkpoint).ComesTo source result → match result with
    | .ok (.batch batch) => ∃ log ∈ (versions chain.id).logs,
        (∀ block ∈ batch.blocks, log.Has block) ∧
        (∀ event ∈ store.eventsOf chain.id, event.block < checkpoint.resumeBlock →
          event.blockHash = (log.block event.block).hash) ∧
        ((∀ event ∈ store.eventsOf chain.id, event.blockHash = (log.block event.block).hash) ↔
          ¬ batch.Replaces (store.eventsOf chain.id))
    | .ok (.reorg reorg) => reorg.chain = chain.id ∧ reorg.safeBlock ∈ store.blocksOf chain.id
    | .ok .finished => chain.endBlock.any (· < checkpoint.resumeBlock) = true
    | .ok .atHead => False
    | .error _ => True := by
  intro hresult
  have hremembers : (store.fetcher config chain checkpoint).Remembers chain
      (store.blocksOf chain.id) (store.checkpointOf chain).openBlock :=
    h.remembers (Pipeline.positive_ofConfig (Config.validate_eq_ok hvalid).2)
      (Config.maxRecordedBlocks_of_validate hvalid) hcheckpoint
  have hresume : checkpoint.resumeBlock = (store.checkpointOf chain).openBlock :=
    hremembers.nextBlock
  obtain ⟨context, waited, state, after, rfl, hstays, hround, hnow⟩ :=
    hresult.exists_round hremembers.positive
  have hwaited := hremembers.of_stays hstays
  have hnext : waited.nextBlock = (store.checkpointOf chain).openBlock := hwaited.nextBlock
  have hchecked := Fetcher.fetchNext_checked hwaited.positive hround
  obtain ⟨log, hlog, htells⟩ := htold
  rw [hresume]
  rw [← hnext] at hwaited ⊢
  cases result with
  | error error => trivial
  | ok fetched =>
    cases fetched with
    | atHead => exact hnow rfl
    | finished =>
      obtain ⟨hend, -⟩ := hchecked
      rwa [show waited.endBlock = chain.endBlock from hstays.endBlock] at hend
    | reorg reorg =>
      obtain ⟨-, hid, block, hblock, before, last, hanswer, hhash⟩ := hchecked
      dsimp only at hid hblock hanswer
      rw [hwaited.fetcherChain] at hid hanswer
      obtain ⟨log', hlog', hsafe⟩ := hsource.block _ _ _ _ _ hanswer
      exact ⟨hid, hwaited.safeBlock hlog hlog' htells.blocks hblock hsafe hhash⟩
    | batch batch =>
      obtain ⟨page, maxRecorded, ⟨toBlock, before, last, hrange, hanswer⟩, hmoves, hfollows,
        hblocks⟩ := hchecked
      dsimp only at hrange hanswer
      rw [hwaited.fetcherChain] at hanswer
      obtain ⟨log', hlog', hhonest, -⟩ := hsource.events _ _ _ _ _ _ _ hrange hanswer
      obtain ⟨-, hbelow, hkept⟩ := hwaited.kept hlog htells
        (fun block hblock => hnext.symm ▸ h.blocks block hblock)
        (fun event hevent => hnext.symm ▸ h.events event hevent) hlog' hhonest hfollows hblocks
      have hhas := (hmoves.tells hlog' hhonest).blocks
      exact ⟨log', hlog', hhas, fun event hevent hlt => (hbelow event hevent hlt).hash,
        batch.not_replaces hhas, fun hnone event hevent => (hkept hnone event hevent).hash⟩

/-! ### Runs -/

namespace Indexer

variable {τ : Type} {context : IndexerContext τ Store} {indexer : Indexer τ Store}
  {others : Set Chain} {testimony : (chain : ChainId) → Testimony chain}
  {versions : (chain : ChainId) → ChainVersions chain} {chain : Chain}

/-- The states of runs as they are reached, over chains that may be forked at any time, as long as
no fetched batch replaces the block of a stored event. -/
inductive Undisturbed (context : IndexerContext τ Store) : Indexer τ Store → Prop
  | boot {indexer : Indexer τ Store} {sources : Table ChainId τ}
      (hstart : start context sources Store.empty = (.ok (), indexer)) : Undisturbed context indexer
  | restart {indexer after : Indexer τ Store} {sources : Table ChainId τ}
      (h : Undisturbed context indexer)
      (hstart : start context sources indexer.pipeline.repo = (.ok (), after)) :
      Undisturbed context after
  | advance {indexer : Indexer τ Store} {now : Int} {status : PipelineStatus}
      {pipeline : Pipeline Store} (h : Undisturbed context indexer)
      (awaited : Option (List ChainId))
      (hadvance : Pipeline.goOn { indexer.pipelineContext context with now := now } awaited
        indexer.pipeline = (.ok status, pipeline)) :
      Undisturbed context { indexer with pipeline := pipeline }
  | fetch {indexer : Indexer τ Store} (h : Undisturbed context indexer) (id : ChainId)
      (hkeeps : (indexer.runTask context id).Keeps id) :
      Undisturbed context (indexer.runTask context id)
  | wait {indexer : Indexer τ Store} (h : Undisturbed context indexer) (sources : Table ChainId τ)
      (clock : Nat) (awaited : Option (List ChainId)) :
      Undisturbed context { indexer with sources := sources, clock := clock, awaited := awaited }
  | stop {indexer : Indexer τ Store} (h : Undisturbed context indexer) :
      Undisturbed context indexer.requestStop

theorem Undisturbed.reached (h : Undisturbed context indexer) : Reached context indexer := by
  induction h with
  | boot hstart => exact .boot hstart
  | restart _ hstart ih => exact ih.restart hstart
  | advance _ awaited hadvance ih => exact ih.advance awaited hadvance
  | fetch _ id _ ih => exact ih.fetch id
  | wait _ sources clock awaited ih => exact ih.wait sources clock awaited
  | stop _ ih => exact ih.stop

theorem start_tracing {sources : Table ChainId τ} {store : Store}
    (hrepo : context.repo = Repo.inMemory)
    (hstore : store.Resumable context.config others testimony)
    (hstart : start context sources store = (.ok (), indexer)) :
    context.config.validate = .ok () ∧
      indexer.pipeline.Tracing context.config others testimony [] := by
  obtain ⟨booted, repo, hboot, hfetchers⟩ := start_eq_ok hstart
  rw [hrepo] at hboot
  obtain ⟨hvalid, htraces⟩ := Pipeline.traces_of_boot hstore hboot
  refine ⟨hvalid, htraces.startFetchers hrepo hvalid (fun _ => mem_sorted_ids.1) ?_ hfetchers⟩
  exact fun _ _ _ => rfl

theorem Undisturbed.tracing (hrepo : context.repo = Repo.inMemory)
    (hpruning : context.config.pruning = none) (hpresents : context.source.Presents versions)
    (h : Undisturbed context indexer) :
    context.config.validate = .ok () ∧ indexer.pipeline.Tracing context.config ∅
      (fun chain => (versions chain).testimony) [] := by
  induction h with
  | boot hstart => exact start_tracing hrepo (.empty context.config ∅ _ 0) hstart
  | restart _ hstart ih => exact start_tracing hrepo ih.2.traces.store hstart
  | advance _ _ hadvance ih =>
    exact ⟨ih.1, ih.2.goOn hrepo ih.1 hpruning
      (fun _ _ hstep => withstands_of_versions ih.2 ih.1 hstep) hadvance⟩
  | fetch _ id hkeeps ih => exact ⟨ih.1, runTask_tracing_of_presents ih.2 hpresents id hkeeps⟩
  | wait _ _ _ _ ih => exact ih
  | stop _ ih => exact ⟨ih.1, ih.2.congr rfl rfl rfl rfl rfl⟩

/-- A fetcher that starts from what a run stored, whatever became of the chain since, brings a batch
only if the source has what is stored below the block where the fetcher goes on. All that is stored
is what the source has exactly if the batch replaces no block of a stored event, which can only be
the block where the fetcher goes on. -/
theorem Undisturbed.unnoticed_iff (h : Undisturbed context indexer)
    (hrepo : context.repo = Repo.inMemory) (hpruning : context.config.pruning = none)
    (hpresents : context.source.Presents versions) (hchain : chain ∈ context.config.chains)
    {checkpoint : Checkpoint}
    (hcheckpoint : checkpoint.AgreesWith (indexer.pipeline.repo.checkpointOf chain))
    {τ' : Type} {source : ChainSource τ'} (hsource : source.Presents versions)
    (result : Except FetchError Fetched) :
    (indexer.pipeline.repo.fetcher context.config chain checkpoint).ComesTo source result →
    match result with
    | .ok (.batch batch) => ∃ log ∈ (versions chain.id).logs,
        (∀ block ∈ batch.blocks, log.Has block) ∧
        (∀ event ∈ indexer.pipeline.repo.eventsOf chain.id,
          event.block < checkpoint.resumeBlock →
            event.blockHash = (log.block event.block).hash) ∧
        ((∀ event ∈ indexer.pipeline.repo.eventsOf chain.id,
            event.blockHash = (log.block event.block).hash) ↔
          ¬ batch.Replaces (indexer.pipeline.repo.eventsOf chain.id))
    | .ok (.reorg reorg) =>
        reorg.chain = chain.id ∧ reorg.safeBlock ∈ indexer.pipeline.repo.blocksOf chain.id
    | .ok .finished => chain.endBlock.any (· < checkpoint.resumeBlock) = true
    | .ok .atHead => False
    | .error _ => True := by
  obtain ⟨hvalid, htracing⟩ := h.tracing hrepo hpruning hpresents
  have hstore := htracing.traces.store
  exact (hstore.traces chain hchain).comesTo (hstore.told chain hchain) hvalid hcheckpoint hsource
    result

end Indexer

/-! ### A sample -/

/-- The answer for the blocks from one to another, with all blocks between. -/
def ChainLog.page {chain : ChainId} (log : ChainLog chain) (fromBlock toBlock : Nat) :
    EventPage where
  events := log.events.filter fun event => fromBlock ≤ event.block ∧ event.block ≤ toBlock
  firstBlock := log.block fromBlock
  lastBlock := log.block toBlock
  blocks := (List.range' fromBlock (toBlock + 1 - fromBlock)).map log.block

/-- A source that answers from the version of each chain that its state names. -/
def ChainSource.ofVersions {τ : Type} (logs : τ → (chain : ChainId) → ChainLog chain)
    (head : Nat) : ChainSource τ where
  head chain := .answer fun state => (logs state chain).block head
  block chain number := .answer fun state => (logs state chain).block number
  events chain fromBlock toBlock _ := .answer fun state => (logs state chain).page fromBlock toBlock

section

variable {chain : ChainId} (log : ChainLog chain) {fromBlock toBlock : Nat}

theorem ChainLog.page_honest (hrange : fromBlock ≤ toBlock) (watched : List WatchedAddress) :
    (log.page fromBlock toBlock).Honest log watched fromBlock := by
  have hlast : (log.page fromBlock toBlock).lastBlock.number = toBlock := log.numbered toBlock
  refine ⟨hlast.symm ▸ hrange, rfl, log.has_block toBlock, fun block hblock => ?_,
    log.inOrder.nodup.filter _, fun event hevent => ?_, fun event hevent hfirst hle _ => ?_⟩
  · obtain ⟨number, -, rfl⟩ := List.mem_map.1 hblock
    exact log.has_block number
  · rw [hlast]
    exact (List.mem_filter.1 hevent).imp_right of_decide_eq_true
  · rw [hlast] at hle
    exact List.mem_filter.2 ⟨hevent, decide_eq_true ⟨hfirst, hle⟩⟩

theorem ChainLog.page_surrounds : (log.page fromBlock toBlock).Surrounds := by
  intro event hevent number hlow hnumber
  have hrange : fromBlock ≤ event.block ∧ event.block ≤ toBlock :=
    of_decide_eq_true (List.mem_filter.1 hevent).2
  have hfirst : fromBlock ≤ number := log.numbered fromBlock ▸ hlow
  refine ⟨log.block number, List.mem_cons_of_mem _ (List.mem_cons_of_mem _ ?_), log.numbered number⟩
  refine List.mem_map_of_mem (List.mem_range'_1.2 ⟨hfirst, ?_⟩)
  omega

end

theorem ChainSource.Presents.ofVersions {τ : Type}
    {logs : τ → (chain : ChainId) → ChainLog chain}
    {versions : (chain : ChainId) → ChainVersions chain}
    (h : ∀ state chain, logs state chain ∈ (versions chain).logs) (head : Nat) :
    (ChainSource.ofVersions logs head).Presents versions where
  events := by
    intro chain fromBlock toBlock watched state page after hrange hanswer
    cases hanswer
    exact ⟨_, h state chain, (logs state chain).page_honest hrange watched,
      (logs state chain).page_surrounds⟩
  block := by
    intro chain number state block after hanswer
    cases hanswer
    exact ⟨_, h state chain, rfl⟩

namespace Indexer

/-- The hash of a block of a chain that may have been forked above its first block. -/
def forkedHash (forked : Bool) : Nat → String
  | 0 => "0x00"
  | _ + 1 => if forked then "0x0b" else "0x0a"

/-- A chain with two events in its second block. -/
def forkedLog (forked : Bool) (chain : ChainId) : ChainLog chain where
  events :=
    if chain = 1 then
      [{ Event.placed 1 1 0 with blockHash := forkedHash forked 1 },
        { Event.placed 1 1 1 with blockHash := forkedHash forked 1 }]
    else []
  inOrder := by
    unfold InOrder
    split
    next => cases forked <;> decide
    next => exact .nil
  own := by
    split
    next hchain =>
      subst hchain
      cases forked <;> decide
    next => exact fun _ hmem => absurd hmem List.not_mem_nil
  block number := ⟨number, forkedHash forked number, forkedHash forked (number - 1), 10 * number⟩
  numbered _ := rfl
  linked _ := rfl

/-- The chain before and after a fork at its second block. -/
def forkedVersions (chain : ChainId) : ChainVersions chain where
  logs := Set.range fun forked => forkedLog forked chain
  nonempty := ⟨_, Set.mem_range_self false⟩
  shared := by
    rintro _ ⟨forked, rfl⟩ _ ⟨forked', rfl⟩ number hhash below hbelow
    cases number with
    | zero =>
      obtain rfl : below = 0 := Nat.le_zero.1 hbelow
      rfl
    | succ number =>
      change (if forked then "0x0b" else "0x0a") = if forked' then "0x0b" else "0x0a" at hhash
      obtain rfl : forked = forked' := by
        revert hhash
        revert forked forked'
        decide
      rfl
  carried := by
    rintro _ ⟨forked, rfl⟩ event hevent
    dsimp only [forkedLog] at hevent
    split at hevent
    next hchain =>
      rcases List.mem_pair.1 hevent with rfl | rfl <;> exact ⟨hchain.symm, rfl, rfl⟩
    next => cases hevent
  clocked := by
    rintro _ ⟨forked, rfl⟩ number number' hle
    exact Nat.mul_le_mul_left 10 hle

/-- An indexer of that chain that commits one event after the other. -/
def forkedContext : IndexerContext Bool Store where
  config :=
    { sampleContext.config with
      chains := [⟨1, 0, none⟩]
      maxEventsPerUnit := 1
      blocksPerBatch := 2 }
  handlers := sampleContext.handlers
  repo := .inMemory
  source := .ofVersions forkedLog 1
  now := 0
  responseMicros := 0
  waited _ := 0

/-- A run of it that fetched the chain before the fork, and ended within the second block. -/
def begunRun : Indexer Bool Store :=
  let started := (start forkedContext (.ofList [(1, false)]) Store.empty).2
  let fetched := (started.runTask forkedContext 1).runTask forkedContext 1
  { fetched with
    pipeline := (Pipeline.advance (fetched.pipelineContext forkedContext) fetched.pipeline).2 }

theorem Keeps.of_eventsOf {τ : Type} {indexer : Indexer τ Store} {id : ChainId}
    (h : indexer.pipeline.repo.eventsOf id = []) : indexer.Keeps id := by
  rintro task batch - - ⟨event, hevent, -⟩
  rw [h] at hevent
  cases hevent

theorem Undisturbed.begunRun : Undisturbed forkedContext begunRun := by
  let started := (start forkedContext (.ofList [(1, false)]) Store.empty).2
  let asked := started.runTask forkedContext 1
  let fetched := asked.runTask forkedContext 1
  have hstarted : Undisturbed forkedContext started := .boot (Prod.ext (by decide +kernel) rfl)
  have hasked : Undisturbed forkedContext asked :=
    hstarted.fetch 1 (.of_eventsOf (by decide +kernel))
  have hfetched : Undisturbed forkedContext fetched :=
    hasked.fetch 1 (.of_eventsOf (by decide +kernel))
  have hadvance : (Pipeline.advance (fetched.pipelineContext forkedContext) fetched.pipeline).1 =
      .ok .advanced := by
    subst fetched asked started
    cbv
  exact hfetched.advance none (Prod.ext hadvance rfl)

/-- The fetcher that starts from what that run stored. -/
def begunFetcher : Fetcher :=
  begunRun.pipeline.repo.fetcher forkedContext.config ⟨1, 0, none⟩
    (begunRun.pipeline.repo.checkpointOf ⟨1, 0, none⟩)

/-- What it is answered with after the fork. -/
def begunBatch : FetchedBatch where
  chain := 1
  fromBlock := 1
  lastBlock := (forkedLog true 1).block 1
  head := 1
  events := [{ Event.placed 1 1 1 with blockHash := forkedHash true 1 }]
  batches := 2
  blocks := [(forkedLog true 1).block 1]

theorem begunFetcher_comesTo :
    begunFetcher.ComesTo (.ofVersions forkedLog 1) (.ok (.batch begunBatch)) := by
  let context : FetchContext Bool :=
    { source := .ofVersions forkedLog 1
      handlers := forkedContext.handlers
      watched := begunRun.pipeline.registry.watchedOn 1
      responseMicros := 0 }
  have hround : (Fetcher.fetchNext context ⟨begunFetcher, true, 0⟩).1 =
      .ok (.batch begunBatch) := by
    cbv
  exact .now (rfl : context.source = _) (Prod.ext hround rfl) (by decide)

/-- The fork at the begun block goes unnoticed: the stored event of the block keeps a hash that the
source no longer has. -/
theorem begunRun_unnoticed :
    begunFetcher.ComesTo (.ofVersions forkedLog 1) (.ok (.batch begunBatch)) ∧
      ∃ log ∈ (forkedVersions 1).logs, (∀ block ∈ begunBatch.blocks, log.Has block) ∧
        ¬ ∀ event ∈ begunRun.pipeline.repo.eventsOf 1,
          event.blockHash = (log.block event.block).hash := by
  have hpresents : (ChainSource.ofVersions forkedLog 1).Presents forkedVersions :=
    .ofVersions (fun forked chain => Set.mem_range_self forked) 1
  have hchain : (⟨1, 0, none⟩ : Chain) ∈ forkedContext.config.chains := List.mem_singleton_self _
  obtain ⟨log, hlog, hhas, -, hiff⟩ := Undisturbed.unnoticed_iff .begunRun rfl rfl hpresents hchain
    ⟨rfl, rfl, rfl, rfl, rfl⟩ hpresents _ begunFetcher_comesTo
  have hreplaces : begunBatch.Replaces (begunRun.pipeline.repo.eventsOf 1) := by decide_cbv
  exact ⟨begunFetcher_comesTo, log, hlog, hhas, fun hall => hiff.1 hall hreplaces⟩

end Indexer

end ChainIndexer
