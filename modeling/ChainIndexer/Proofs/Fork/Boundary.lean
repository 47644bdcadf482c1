import ChainIndexer.Proofs.Fork.Run

/-!
# The boundary of a run

A chain goes on behind the last block that was processed, and a fork below is noticed only if that
block is on record. It always is, whatever the chains are forked to and whichever of them a run is
started with, but for one case: in a common order of the chains a reorg takes events of all of them,
and of a chain that the run is not started with it also takes the blocks, and leaves the checkpoint.
-/

namespace ChainIndexer

/-! ### What is asked of a source -/

/-- All that has to hold of known events is that they are of the chain. -/
def Testimony.ofOwn (chain : ChainId) : Testimony chain where
  Tells events _ := ∀ event ∈ events, event.chain = chain
  Vouches _ := True
  nil := fun _ hmem => absurd hmem List.not_mem_nil
  mono := fun h hevents _ event hevent => h event (hevents hevent)
  own := id

/-- Whether a source answers what it is asked: events of the chain from the first block on, with the
blocks around them, and the block of a number. -/
structure ChainSource.Complies {τ : Type} (source : ChainSource τ) : Prop where
  events : ∀ chain fromBlock toBlock watched before page after, fromBlock ≤ toBlock →
    source.events chain fromBlock toBlock watched before = (.ok page, after) →
      page.Spans fromBlock ∧ ∀ event ∈ page.events, event.chain = chain
  block : ∀ chain number before block after,
    source.block chain number before = (.ok block, after) → block.number = number

theorem ChainSource.Complies.answers {τ : Type} {source : ChainSource τ} (h : source.Complies)
    (chain : ChainId) : source.Answers (.ofOwn chain) where
  events := fun _ _ _ _ _ _ hrange hanswer => (h.events _ _ _ _ _ _ _ hrange hanswer).1
  block := fun _ _ _ _ hanswer => ⟨h.block _ _ _ _ _ hanswer, trivial⟩

/-! ### Boundaries -/

namespace Store

variable {store : Store} {chain chain' : Chain} {id : ChainId}

/-- Whether a chain was processed up to a block at or behind its start. -/
def HasProcessed (store : Store) (id : ChainId) (processed : Nat) : Prop :=
  ∃ checkpoint, store.checkpoints.get? id = some checkpoint ∧
    checkpoint.processed = some processed ∧ checkpoint.startBlock ≤ processed

/-- Whether the block up to which a chain was processed is on record, and none above it. -/
def HoldsBoundary (store : Store) (id : ChainId) : Prop :=
  ∀ processed, store.HasProcessed id processed →
    (∃ block, store.blocks.get? ⟨id, processed⟩ = some block ∧ block.number = processed) ∧
      ∀ number, processed < number → store.blocks.get? ⟨id, number⟩ = none

theorem Traces.holdsBoundary (h : store.Traces chain) : store.HoldsBoundary chain.id := by
  rintro processed ⟨checkpoint, hget, hprocessed, hstart⟩
  have hcheckpoint : store.checkpointOf chain = checkpoint := by
    rw [checkpointOf, hget, Option.getD_some]
  have hopen : (store.checkpointOf chain).openBlock = processed + 1 := by
    rw [hcheckpoint, Checkpoint.openBlock, hprocessed]
    exact Nat.max_eq_right (Nat.le_succ_of_le hstart)
  have hbegun : chain.startBlock ≤ processed := by
    rw [← h.startBlock, hcheckpoint]
    exact hstart
  refine ⟨?_, fun number hlt => ?_⟩
  · have hresumable := h.resumable
    rw [hopen] at hresumable
    obtain ⟨block, hblock, hnumber⟩ := hresumable.resolve_left (by omega)
    obtain rfl : block.number = processed := Nat.succ.inj hnumber
    exact ⟨block, h.mem_blocksOf_iff.1 hblock, rfl⟩
  · refine Option.eq_none_iff_forall_ne_some.2 fun block hblock => ?_
    have hnumber := h.numbered number block hblock
    have hbelow := (h.blocks block (mem_blocksOf.2 ⟨_, hblock, rfl⟩)).2
    omega

/-- What a store knows of a chain does not depend on where the chain ends. -/
theorem Traces.of_same (h : store.Traces chain) (hid : chain'.id = chain.id)
    (hstart : chain'.startBlock = chain.startBlock) : store.Traces chain' := by
  have hsame : (store.checkpointOf chain').startBlock = (store.checkpointOf chain).startBlock ∧
      (store.checkpointOf chain').processed = (store.checkpointOf chain).processed ∧
      (store.checkpointOf chain').position = (store.checkpointOf chain).position := by
    rw [checkpointOf, checkpointOf, hid]
    cases store.checkpoints.get? chain.id with
    | none => exact ⟨hstart, rfl, rfl⟩
    | some checkpoint => exact ⟨rfl, rfl, rfl⟩
  have hopen : (store.checkpointOf chain').openBlock = (store.checkpointOf chain).openBlock := by
    rw [Checkpoint.openBlock, Checkpoint.openBlock, hsame.1, hsame.2.1]
  refine ⟨?_, ?_, ?_, ?_, ?_, ?_, ?_⟩
  · rw [hsame.1, hstart, h.startBlock]
  · rw [hsame.2.2, hopen, hstart]
    exact h.position
  · rw [hid]
    exact h.numbered
  · rw [hid, hopen, hstart]
    exact h.events
  · rw [hid, hopen, hstart]
    exact h.blocks
  · rw [hid, hopen, hstart]
    exact h.resumable
  · rw [hid, hstart]
    exact h.grounded

/-- A fetcher that starts from a store has the block before its next one to compare. -/
theorem Traces.finds_parent (h : store.Traces chain) {config : Config}
    (hvalid : config.validate = .ok ()) {fetcher : Fetcher}
    (hfetcher : store.fetcher config chain (store.checkpointOf chain) = fetcher)
    (hstart : chain.startBlock < fetcher.nextBlock) :
    ∃ block, fetcher.window.get? (fetcher.nextBlock - 1) = some block ∧
      block.number + 1 = fetcher.nextBlock := by
  subst hfetcher
  have hremembers : (store.fetcher config chain (store.checkpointOf chain)).Remembers chain
      (store.blocksOf chain.id) (store.checkpointOf chain).openBlock :=
    h.remembers (Pipeline.positive_ofConfig (Config.validate_eq_ok hvalid).2)
      (Config.maxRecordedBlocks_of_validate hvalid) ⟨rfl, rfl, rfl, rfl, rfl⟩
  rw [hremembers.nextBlock] at hstart ⊢
  obtain ⟨block, hget⟩ := hremembers.before.resolve_left (Nat.not_le.2 hstart)
  have hnumber := (hremembers.within _ _ hget).1
  exact ⟨block, hget, by omega⟩

/-! ### Chains that are not configured -/

section Untracked

variable {plan : RollbackPlan} {mode : Mode} {reorg : Reorg} {tracker : Tracker}

/-- A rollback takes all blocks of a chain that it takes an event of, if it does not know how far
the chain was processed. -/
theorem get?_blocks_of_untracked (hplan : PlansFor plan store mode reorg tracker)
    (huntracked : tracker.get? id = none) (hforked : reorg.chain ≠ id) {event : Event}
    (hevent : event ∈ store.eventsOf id)
    (hstale : (RollbackScope.ofReorg mode reorg).invalidatesEvent event = true) (number : Nat) :
    (store.applyRollback plan).blocks.get? ⟨id, number⟩ = none := by
  have hmoved : ⟨id, none⟩ ∈ plan.rewinds := by
    rw [hplan.rewinds]
    cases mode with
    | unordered =>
      have hchain := (of_decide_eq_true hstale).1
      exact absurd (hchain.symm.trans (chain_of_mem_eventsOf hevent)) hforked
    | ordered =>
      obtain ⟨hmem, -⟩ := List.mem_filter.1 hevent
      obtain ⟨lowest, hlowest, -⟩ := firstInvalidatedBlocks_le hmem hstale
      rw [chain_of_mem_eventsOf hevent] at hlowest
      refine List.mem_cons_of_mem _ (List.mem_map.2 ⟨(id, lowest), List.mem_filter.2
        ⟨Table.mem_entries_iff.2 hlowest, decide_eq_true (Ne.symm hforked)⟩, ?_⟩)
      rw [Tracker.processed, huntracked]
      cases Word.checkedSub lowest 1 <;> rfl
  refine (get?_foldl_dropRewound plan.rewinds store.blocks _).trans ?_
  refine Option.filter_eq_none_iff.2 fun block _ hkept => ?_
  exact absurd (of_decide_eq_true (List.all_eq_true.1 hkept _ hmoved)) (by simp)

/-- So the block up to which such a chain was processed is no longer on record. -/
theorem holdsBoundary_of_untracked (hplan : PlansFor plan store mode reorg tracker)
    (hkeyed : tracker.Keyed) (huntracked : tracker.get? id = none) (hforked : reorg.chain ≠ id)
    {event : Event} (hevent : event ∈ store.eventsOf id)
    (hstale : (RollbackScope.ofReorg mode reorg).invalidatesEvent event = true) :
    (store.applyRollback plan).HoldsBoundary id ↔
      ∀ processed, ¬ store.HasProcessed id processed := by
  have hcheckpoint : (store.applyRollback plan).checkpoints.get? id =
      store.checkpoints.get? id := by
    change (putCheckpoints store.checkpoints plan.checkpoints).get? id = _
    rw [hplan.checkpoints]
    exact get?_putRewound_of_none hkeyed huntracked
  have hsame : ∀ processed, (store.applyRollback plan).HasProcessed id processed ↔
      store.HasProcessed id processed := by
    intro processed
    rw [HasProcessed, hcheckpoint, HasProcessed]
  constructor
  · intro hholds processed hprocessed
    obtain ⟨⟨block, hget, -⟩, -⟩ := hholds processed ((hsame processed).2 hprocessed)
    rw [get?_blocks_of_untracked hplan huntracked hforked hevent hstale] at hget
    cases hget
  · exact fun hnone processed hprocessed =>
      absurd ((hsame processed).1 hprocessed) (hnone processed)

end Untracked

/-! ### Chains that start at given blocks -/

variable {config config' : Config} {starts : ChainId → Nat}
  {testimony : (chain : ChainId) → Testimony chain}

/-- The chains that start where they always do. -/
def startingAt (starts : ChainId → Nat) : Set Chain := {chain | chain.startBlock = starts chain.id}

theorem Resumable.tracesOf (h : store.Resumable config (startingAt starts) testimony)
    (hstarts : ∀ chain ∈ config.chains, chain ∈ startingAt starts)
    (hchain : chain ∈ startingAt starts) : store.Traces chain := by
  by_cases hconfigured : ∃ configured ∈ config.chains, configured.id = chain.id
  · obtain ⟨configured, hmem, hid⟩ := hconfigured
    have hstart : configured.startBlock = starts configured.id := hstarts configured hmem
    refine (h.traces configured hmem).of_same hid.symm ?_
    rw [hstart, hid]
    exact hchain
  · push Not at hconfigured
    exact h.others chain hchain hconfigured

theorem Resumable.holdsBoundary (h : store.Resumable config (startingAt starts) testimony)
    (hstarts : ∀ chain ∈ config.chains, chain ∈ startingAt starts) (id : ChainId) :
    store.HoldsBoundary id := by
  have hchain : (⟨id, starts id, none⟩ : Chain) ∈ startingAt starts := rfl
  exact (h.tracesOf hstarts hchain).holdsBoundary

/-- A run may go on with other chains. -/
theorem Resumable.renew (h : store.Resumable config (startingAt starts) testimony)
    (hstarts : ∀ chain ∈ config.chains, chain ∈ startingAt starts)
    (hstarts' : ∀ chain ∈ config'.chains, chain ∈ startingAt starts) :
    store.Resumable config' (startingAt starts) fun chain => .ofOwn chain where
  keyed := h.keyed
  traces := fun chain hchain => h.tracesOf hstarts (hstarts' chain hchain)
  told := fun _ _ _ hevent => chain_of_mem_eventsOf hevent
  others := fun _ hchain _ => h.tracesOf hstarts hchain

theorem Resumable.mono {others others' : Set Chain}
    (h : store.Resumable config others testimony) (hothers : others' ⊆ others) :
    store.Resumable config others' testimony :=
  ⟨h.keyed, h.traces, h.told, fun chain hchain => h.others chain (hothers hchain)⟩

end Store

/-! ### Steps -/

namespace Pipeline

variable {context : PipelineContext Store} {pipeline after : Pipeline Store} {config : Config}
  {others others' : Set Chain} {testimony : (chain : ChainId) → Testimony chain}
  {starts : ChainId → Nat} {reorg : Reorg} {orderer : Orderer} {events : List Event}

theorem Tracing.mono (h : pipeline.Tracing config others testimony events)
    (hothers : others' ⊆ others) : pipeline.Tracing config others' testimony events :=
  ⟨⟨h.traces.store.mono hothers, h.traces.keyed, h.traces.tracked, h.traces.tracks, h.traces.mode,
    h.traces.lanes⟩, h.runs, h.configured, h.turns⟩

/-- Without a common order of the chains a reorg takes the last events of its own chain only. -/
theorem Tracing.withstands (h : pipeline.Tracing config others testimony [])
    (hspares : config.mode = .ordered → pipeline.Withstands config Set.univ reorg)
    (hstep : pipeline.orderer.nextStep = (.reorg reorg, orderer)) :
    pipeline.Withstands config others reorg := by
  cases hmode : config.mode with
  | ordered =>
    obtain ⟨hsplits, hothers⟩ := hspares hmode
    exact ⟨hsplits, fun chain _ => hothers chain (Set.mem_univ chain)⟩
  | unordered =>
    obtain ⟨-, forked, hforked, lane, task, hruns, hreorg⟩ := h.lane_of_reorg hstep
    refine ⟨fun chain _ => hmode ▸ .of_unordered, fun chain _ hother event hevent => ?_⟩
    rw [hmode]
    refine Bool.eq_false_iff.2 fun hstale => hother forked hforked ?_
    have hchain := (of_decide_eq_true hstale).1
    rw [← (safe_of_announced hruns hreorg).1, ← hchain]
    exact Store.chain_of_mem_eventsOf hevent

theorem startFetcher_repo (hrepo : context.repo = Repo.inMemory) {id : ChainId}
    (h : startFetcher context id pipeline = (.ok (), after)) : after.repo = pipeline.repo := by
  rw [startFetcher_apply] at h
  split at h
  next =>
    rw [restart, hrepo] at h
    cases h
    rfl
  next =>
    cases h
    rfl

theorem startFetchers_repo (hrepo : context.repo = Repo.inMemory) {ids : List ChainId}
    (h : startFetchers context ids pipeline = (.ok (), after)) : after.repo = pipeline.repo := by
  induction ids generalizing pipeline with
  | nil =>
    cases h
    rfl
  | cons id rest ih =>
    rw [startFetchers] at h
    obtain ⟨_, started, hstarted, h⟩ := Call.bind_eq_ok h
    exact (ih h).trans (startFetcher_repo hrepo hstarted)

/-- A reorg that is next is planned for, and the store is rolled back as planned. -/
theorem applyRollback_of_advance (hrepo : context.repo = Repo.inMemory)
    (hstep : pipeline.orderer.nextStep = (.reorg reorg, orderer))
    (hadvance : advance context pipeline = (.ok .advanced, after)) :
    ∃ plan, Store.PlansFor plan pipeline.repo context.config.mode reorg pipeline.tracker ∧
      after.repo = pipeline.repo.applyRollback plan := by
  obtain ⟨-, hstopped, -⟩ | ⟨step, moved, -, hnext, hdone, -⟩ := advance_eq_ok hadvance
  · cases hstopped
  cases hstep.symm.trans hnext
  obtain ⟨plan, registry, hplan, hstart⟩ := handleReorg_eq_ok hrepo hdone
  exact ⟨plan, hplan, startFetchers_repo hrepo hstart⟩

/-- A rollback that spares the other chains leaves all lanes running. -/
theorem Tracing.advance_of_reorg {others : Set Chain}
    (h : pipeline.Tracing context.config others testimony [])
    (hrepo : context.repo = Repo.inMemory) (hvalid : context.config.validate = .ok ())
    (hpruning : context.config.pruning = none)
    (hstep : pipeline.orderer.nextStep = (.reorg reorg, orderer))
    (hwithstands : pipeline.Withstands context.config others reorg)
    (hadvance : Pipeline.advance context pipeline = (.ok .advanced, after)) :
    after.Tracing context.config others testimony [] := by
  refine h.advance hrepo hvalid hpruning (fun other _ hother => ?_) hadvance
  cases hstep.symm.trans hother
  exact hwithstands

/-- A rollback keeps the boundary of a chain on record unless it takes an event of a chain that is
not configured, and that was processed before. -/
theorem Tracing.holdsBoundary_after
    (h : pipeline.Tracing context.config (Store.startingAt starts) testimony [])
    (hrepo : context.repo = Repo.inMemory) (hvalid : context.config.validate = .ok ())
    (hpruning : context.config.pruning = none)
    (hstep : pipeline.orderer.nextStep = (.reorg reorg, orderer))
    (hsplits : ∀ chain ∈ context.config.chains,
      pipeline.repo.Splits chain context.config.mode reorg)
    (hadvance : Pipeline.advance context pipeline = (.ok .advanced, after)) (id : ChainId) :
    after.repo.HoldsBoundary id ↔
      (∃ chain ∈ context.config.chains, chain.id = id) ∨
      (∀ event ∈ pipeline.repo.eventsOf id,
        (RollbackScope.ofReorg context.config.mode reorg).invalidatesEvent event = false) ∨
      ∀ processed, ¬ pipeline.repo.HasProcessed id processed := by
  by_cases hconfigured : ∃ chain ∈ context.config.chains, chain.id = id
  · obtain ⟨chain, hchain, rfl⟩ := hconfigured
    have hwithstands : pipeline.Withstands context.config ∅ reorg :=
      ⟨hsplits, fun chain hmem => absurd hmem (Set.notMem_empty chain)⟩
    have hafter := (h.mono (Set.empty_subset _)).advance_of_reorg hrepo hvalid hpruning hstep
      hwithstands hadvance
    exact ⟨fun _ => Or.inl ⟨chain, hchain, rfl⟩,
      fun _ => (hafter.traces.store.traces chain hchain).holdsBoundary⟩
  · have huntracked : pipeline.tracker.get? id = none := by
      refine Option.eq_none_iff_forall_ne_some.2 fun checkpoint hget => ?_
      exact hconfigured (h.traces.tracked id checkpoint hget)
    rw [or_iff_right hconfigured]
    push Not at hconfigured
    by_cases hstale : ∃ event ∈ pipeline.repo.eventsOf id,
        (RollbackScope.ofReorg context.config.mode reorg).invalidatesEvent event = true
    · obtain ⟨event, hevent, htaken⟩ := hstale
      obtain ⟨-, forked, hforked, lane, task, hruns, hreorg⟩ := h.lane_of_reorg hstep
      have hid := (safe_of_announced hruns hreorg).1
      obtain ⟨plan, hplan, hafter⟩ := applyRollback_of_advance hrepo hstep hadvance
      rw [hafter, Store.holdsBoundary_of_untracked hplan h.traces.keyed huntracked
        (hid ▸ hconfigured forked hforked) hevent htaken, or_iff_right]
      intro hstays
      rw [hstays event hevent] at htaken
      cases htaken
    · push Not at hstale
      have hstays := fun event hevent => Bool.eq_false_iff.2 (hstale event hevent)
      refine iff_of_true ?_ (Or.inl hstays)
      -- The chain itself is among those to be kept.
      let chain : Chain := ⟨id, starts id, none⟩
      have hwithstands : pipeline.Withstands context.config {chain} reorg :=
        ⟨hsplits, fun other hmem _ => by rwa [Set.mem_singleton_iff.1 hmem]⟩
      have hafter := (h.mono (Set.singleton_subset_iff.2 rfl)).advance_of_reorg hrepo hvalid
        hpruning hstep hwithstands hadvance
      exact (hafter.traces.store.others chain (Set.mem_singleton chain) hconfigured).holdsBoundary

end Pipeline

/-! ### Runs -/

/-- Whether a run is over memory that is never pruned, and over a source that answers what it is
asked, with chains that start where they always do. -/
structure IndexerContext.Plain {τ : Type} (context : IndexerContext τ Store)
    (starts : ChainId → Nat) : Prop where
  repo : context.repo = Repo.inMemory
  pruning : context.config.pruning = none
  source : context.source.Complies
  starts : ∀ chain ∈ context.config.chains, chain ∈ Store.startingAt starts

namespace Indexer

variable {τ : Type} {context : IndexerContext τ Store} {indexer : Indexer τ Store}
  {starts : ChainId → Nat}

/-- The states of runs, the first one over an empty store. The pipeline and each of the fetchers may
go on at any time, and the chains may be forked at any time. A run may end at any time, and another
one, with other chains and settings, starts from its store. Where the chains have a common order, a
reorg is to take the last events of each chain of the run, and none of the others. -/
inductive Renewed (starts : ChainId → Nat) : IndexerContext τ Store → Indexer τ Store → Prop
  | boot {context : IndexerContext τ Store} {indexer : Indexer τ Store}
      {sources : Table ChainId τ} (hplain : context.Plain starts)
      (hstart : start context sources Store.empty = (.ok (), indexer)) :
      Renewed starts context indexer
  | restart {context renewed : IndexerContext τ Store} {indexer after : Indexer τ Store}
      {sources : Table ChainId τ} (h : Renewed starts context indexer)
      (hplain : renewed.Plain starts)
      (hstart : start renewed sources indexer.pipeline.repo = (.ok (), after)) :
      Renewed starts renewed after
  | advance {context : IndexerContext τ Store} {indexer : Indexer τ Store} {now : Int}
      {status : PipelineStatus} {pipeline : Pipeline Store} (h : Renewed starts context indexer)
      (hspares : context.config.mode = .ordered → ∀ reorg orderer,
        indexer.pipeline.orderer.nextStep = (.reorg reorg, orderer) →
          indexer.pipeline.Withstands context.config Set.univ reorg)
      (awaited : Option (List ChainId))
      (hadvance : Pipeline.goOn { indexer.pipelineContext context with now := now } awaited
        indexer.pipeline = (.ok status, pipeline)) :
      Renewed starts context { indexer with pipeline := pipeline }
  | fetch {context : IndexerContext τ Store} {indexer : Indexer τ Store}
      (h : Renewed starts context indexer) (id : ChainId) :
      Renewed starts context (indexer.runTask context id)
  | wait {context : IndexerContext τ Store} {indexer : Indexer τ Store}
      (h : Renewed starts context indexer) (sources : Table ChainId τ) (clock : Nat)
      (awaited : Option (List ChainId)) :
      Renewed starts context
        { indexer with sources := sources, clock := clock, awaited := awaited }
  | stop {context : IndexerContext τ Store} {indexer : Indexer τ Store}
      (h : Renewed starts context indexer) : Renewed starts context indexer.requestStop

theorem Renewed.advanced {status : PipelineStatus} (h : Renewed starts context indexer)
    (hspares : context.config.mode = .ordered → ∀ reorg orderer,
      indexer.pipeline.orderer.nextStep = (.reorg reorg, orderer) →
        indexer.pipeline.Withstands context.config Set.univ reorg)
    (hstatus : (Pipeline.advance (indexer.pipelineContext context) indexer.pipeline).1 =
      .ok status) :
    Renewed starts context { indexer with
      pipeline := (Pipeline.advance (indexer.pipelineContext context) indexer.pipeline).2 } :=
  h.advance hspares none (Prod.ext hstatus rfl)

theorem Renewed.plain (h : Renewed starts context indexer) : context.Plain starts := by
  induction h with
  | boot hplain => exact hplain
  | restart _ hplain => exact hplain
  | advance _ _ _ _ ih => exact ih
  | fetch _ _ ih => exact ih
  | wait _ _ _ _ ih => exact ih
  | stop _ ih => exact ih

/-- A step of a fetcher keeps all lanes running, whatever the source answers. -/
theorem runTask_tracing_of_complies {config : Config} {others : Set Chain}
    (h : indexer.pipeline.Tracing config others (fun chain => .ofOwn chain) [])
    (hcomplies : context.source.Complies) (id : ChainId) :
    (indexer.runTask context id).pipeline.Tracing config others (fun chain => .ofOwn chain) [] := by
  refine runTask_tracing h id fun task source hidle hfetching _ chain hchain hid lane hlane => ?_
  subst hid
  have hstore := h.traces.store.traces chain hchain
  rw [took]
  cases hgiven : indexer.round context chain.id task source with
  | mk result state =>
    refine hlane.afterRound hstore hidle hfetching (hcomplies.answers chain.id) hgiven ?_ _
    rintro batch page maxRecorded - ⟨toBlock, before, last, hrange, hanswer⟩ hmoves - - event hevent
    rcases List.mem_append.1 hevent with hold | hnew
    · exact hlane.told event hold
    · rw [(hlane.spans hstore hfetching).1.fetcherChain] at hanswer
      exact (hcomplies.events _ _ _ _ _ _ _ hrange hanswer).2 event (hmoves.mem_page hnew)

theorem Renewed.tracing (h : Renewed starts context indexer) :
    context.config.validate = .ok () ∧ indexer.pipeline.Tracing context.config
      (Store.startingAt starts) (fun chain => .ofOwn chain) [] := by
  induction h with
  | boot hplain hstart => exact start_tracing hplain.repo (.empty _ _ _ 0) hstart
  | restart h hplain hstart ih =>
    exact start_tracing hplain.repo (ih.2.traces.store.renew h.plain.starts hplain.starts) hstart
  | advance h hspares _ hadvance ih =>
    exact ⟨ih.1, ih.2.goOn h.plain.repo ih.1 h.plain.pruning (fun reorg orderer hstep =>
      ih.2.withstands (fun hmode => hspares hmode reorg orderer hstep) hstep) hadvance⟩
  | fetch h id ih => exact ⟨ih.1, runTask_tracing_of_complies ih.2 h.plain.source id⟩
  | wait _ _ _ _ ih => exact ih
  | stop _ ih => exact ⟨ih.1, ih.2.congr rfl rfl rfl rfl rfl⟩

/-- The block up to which a chain was processed is on record and none above it, so that a fetcher
that starts from the store can compare it. The next reorg, if it takes the last events of each chain
of the run, leaves that so for all chains but those that are not of the run and lose an event that
was processed. -/
theorem Renewed.holdsBoundary_iff (h : Renewed starts context indexer) :
    (∀ id, indexer.pipeline.repo.HoldsBoundary id) ∧
    (∀ config chain fetcher, config.validate = .ok () → chain ∈ Store.startingAt starts →
      indexer.pipeline.repo.fetcher config chain (indexer.pipeline.repo.checkpointOf chain) =
        fetcher → chain.startBlock < fetcher.nextBlock →
      ∃ block, fetcher.window.get? (fetcher.nextBlock - 1) = some block ∧
        block.number + 1 = fetcher.nextBlock) ∧
    ∀ now reorg orderer pipeline,
      indexer.pipeline.orderer.nextStep = (.reorg reorg, orderer) →
      (∀ chain ∈ context.config.chains,
        indexer.pipeline.repo.Splits chain context.config.mode reorg) →
      Pipeline.advance { indexer.pipelineContext context with now := now } indexer.pipeline =
        (.ok .advanced, pipeline) →
      ∀ id, pipeline.repo.HoldsBoundary id ↔
        (∃ chain ∈ context.config.chains, chain.id = id) ∨
        (∀ event ∈ indexer.pipeline.repo.eventsOf id,
          (RollbackScope.ofReorg context.config.mode reorg).invalidatesEvent event = false) ∨
        ∀ processed, ¬ indexer.pipeline.repo.HasProcessed id processed := by
  obtain ⟨hvalid, htracing⟩ := h.tracing
  have hstore := htracing.traces.store
  refine ⟨hstore.holdsBoundary h.plain.starts, ?_, ?_⟩
  · intro config chain fetcher hconfig hchain hfetcher
    exact (hstore.tracesOf h.plain.starts hchain).finds_parent hconfig hfetcher
  · intro now reorg orderer pipeline hstep hsplits hadvance
    exact htracing.holdsBoundary_after h.plain.repo hvalid h.plain.pruning hstep hsplits hadvance

end Indexer

/-! ### A sample -/

theorem ChainSource.Complies.ofVersions {τ : Type} (logs : τ → (chain : ChainId) → ChainLog chain)
    (head : Nat) : (ChainSource.ofVersions logs head).Complies where
  events := by
    intro chain fromBlock toBlock watched state page after hrange hanswer
    cases hanswer
    have hhonest := (logs state chain).page_honest hrange watched
    exact ⟨hhonest.spans (logs state chain).page_surrounds, fun event hevent =>
      (logs state chain).own event (hhonest.sound event hevent).1⟩
  block := by
    intro chain number state block after hanswer
    cases hanswer
    exact (logs state chain).numbered number

namespace Indexer

/-- A chain with an event in its second block, before and after a fork there. -/
def twinLog (forked : Bool) (chain : ChainId) : ChainLog chain :=
  { forkedLog forked chain with
    events := [{ Event.placed chain 1 0 with blockHash := forkedHash forked 1 }]
    inOrder := List.pairwise_singleton _ _
    own := fun event hevent => by
      rw [List.mem_singleton.1 hevent]
      rfl }

/-- An ordered indexer of some such chains. -/
def twinContext (chains : List Chain) (head : Nat) : IndexerContext Bool Store where
  config :=
    { sampleContext.config with
      mode := .ordered
      chains := chains
      contracts := [⟨"", chains.map fun chain => ⟨chain.id, "", "", 0⟩, []⟩]
      blocksPerBatch := 2 }
  handlers := sampleContext.handlers
  repo := .inMemory
  source := .ofVersions twinLog head
  now := 0
  responseMicros := 0
  waited _ := 0

/-- A run that indexed the second blocks of two such chains. -/
def twinRun : Indexer Bool Store :=
  let context := twinContext [⟨1, 0, none⟩, ⟨2, 0, none⟩] 1
  let started := (start context (.ofList [(1, false), (2, false)]) Store.empty).2
  let fetched :=
    (((started.runTask context 1).runTask context 1).runTask context 2).runTask context 2
  let pipelined := Pipeline.advance (fetched.pipelineContext context) fetched.pipeline
  { fetched with pipeline := pipelined.2 }

/-- A run of the first chain alone that goes on from there, and has noticed a fork. -/
def loneRun : Indexer Bool Store :=
  let context := twinContext [⟨1, 0, none⟩] 2
  let started := (start context (.ofList [(1, true)]) twinRun.pipeline.repo).2
  (started.runTask context 1).runTask context 1

theorem twinContext_plain {chains : List Chain} (hstarts : ∀ chain ∈ chains, chain.startBlock = 0)
    (head : Nat) : (twinContext chains head).Plain fun _ => 0 :=
  ⟨rfl, rfl, .ofVersions twinLog head, hstarts⟩

theorem twinRun_renewed :
    Renewed (fun _ => 0) (twinContext [⟨1, 0, none⟩, ⟨2, 0, none⟩] 1) twinRun := by
  let context := twinContext [⟨1, 0, none⟩, ⟨2, 0, none⟩] 1
  let started := (start context (.ofList [(1, false), (2, false)]) Store.empty).2
  let fetched :=
    (((started.runTask context 1).runTask context 1).runTask context 2).runTask context 2
  have hstarted : Renewed (fun _ => 0) context started :=
    .boot (twinContext_plain (by decide) 1) (Prod.ext (by cbv) rfl)
  have hfetched : Renewed (fun _ => 0) context fetched :=
    (((hstarted.fetch 1).fetch 1).fetch 2).fetch 2
  have hstep : fetched.pipeline.orderer.nextStep.1 =
      .unit ((twinLog false 1).events ++ (twinLog false 2).events) := by
    subst fetched started context
    cbv
  have hadvance : (Pipeline.advance (fetched.pipelineContext context) fetched.pipeline).1 =
      .ok .advanced := by
    subst fetched started context
    cbv
  have hspares : ∀ reorg orderer, fetched.pipeline.orderer.nextStep = (.reorg reorg, orderer) →
      fetched.pipeline.Withstands context.config Set.univ reorg := by
    intro reorg orderer hreorg
    rw [hreorg] at hstep
    cases hstep
  exact hfetched.advanced (fun _ => hspares) hadvance

theorem loneRun_renewed : Renewed (fun _ => 0) (twinContext [⟨1, 0, none⟩] 2) loneRun := by
  have hstarted : Renewed (fun _ => 0) (twinContext [⟨1, 0, none⟩] 2)
      (start (twinContext [⟨1, 0, none⟩] 2) (.ofList [(1, true)]) twinRun.pipeline.repo).2 :=
    twinRun_renewed.restart (twinContext_plain (by decide) 2) (Prod.ext (by cbv) rfl)
  exact (hstarted.fetch 1).fetch 1

/-- The reorg takes the event of the second chain, which is not of the run, and all its blocks, but
leaves it processed: the block to compare is no longer on record. -/
theorem loneRun_loses_boundary :
    loneRun.pipeline.repo.HoldsBoundary 2 ∧
      ¬ (Pipeline.advance (loneRun.pipelineContext (twinContext [⟨1, 0, none⟩] 2))
        loneRun.pipeline).2.repo.HoldsBoundary 2 := by
  let context := twinContext [⟨1, 0, none⟩] 2
  obtain ⟨hholds, -, hreorg⟩ := Renewed.holdsBoundary_iff loneRun_renewed
  have hstep : loneRun.pipeline.orderer.nextStep.1 = .reorg ⟨1, (twinLog true 1).block 0⟩ := by
    cbv
  have hadvance : (Pipeline.advance (loneRun.pipelineContext context) loneRun.pipeline).1 =
      .ok .advanced := by
    subst context
    cbv
  have hevents : ∀ id ∈ [1, 2], loneRun.pipeline.repo.eventsOf id = (twinLog false id).events := by
    intro id hid
    rcases List.mem_pair.1 hid with rfl | rfl <;> cbv
  have hprocessed : loneRun.pipeline.repo.HasProcessed 2 1 := by
    have hstored : (loneRun.pipeline.repo.checkpoints.get? 2).map (fun checkpoint =>
        (checkpoint.processed, checkpoint.startBlock)) = some (some 1, 0) := by
      cbv
    obtain ⟨checkpoint, hget, heq⟩ := Option.map_eq_some_iff.1 hstored
    obtain ⟨hprocessed, hstart⟩ := Prod.mk.inj heq
    exact ⟨checkpoint, hget, hprocessed, by omega⟩
  refine ⟨hholds 2, fun hafter => ?_⟩
  have hsplits : ∀ chain ∈ context.config.chains, loneRun.pipeline.repo.Splits chain
      context.config.mode ⟨1, (twinLog true 1).block 0⟩ := by
    intro chain hchain
    obtain rfl := List.mem_singleton.1 hchain
    refine .of_clocked ?_ fun _ event _ _ => Nat.zero_le _
    rw [hevents 1 (by decide)]
    intro first hfirst later hlater _
    rw [List.mem_singleton.1 hfirst, List.mem_singleton.1 hlater]
  rcases (hreorg 0 _ _ _ (Prod.ext hstep rfl) hsplits (Prod.ext hadvance rfl) 2).1 hafter with
    ⟨chain, hchain, hid⟩ | hstays | hnone
  · obtain rfl := List.mem_singleton.1 hchain
    exact absurd hid (by decide)
  · rw [hevents 2 (by decide)] at hstays
    exact absurd (hstays _ (List.mem_singleton_self _)) (by decide)
  · exact hnone 1 hprocessed

end Indexer

end ChainIndexer
