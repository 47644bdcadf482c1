import ChainIndexer.Proofs.Fork.Advance
import ChainIndexer.Proofs.Indexer

/-!
# Steps of fetchers of chains that may be forked

Whatever a fetcher is answered, its lane runs on as long as what it brings holds together with what
is known. If the answers are of versions of the chain, that is so unless a batch brings another
block in place of the block of a stored event.
-/

namespace ChainIndexer

namespace Lane.Runs

variable {τ : Type} {context : FetchContext τ} {lane : Lane} {task task' : FetcherTask}
  {store : Store} {chain : Chain} {testimony : Testimony chain.id} {taken : List Event}
  {batch : FetchedBatch} {page : EventPage} {maxRecorded : Nat}

theorem of_stays (h : lane.Runs task store chain testimony taken)
    (hsending : task'.sending = task.sending)
    (hstays : task'.isFetching = true →
      task.isFetching = true ∧ task.fetcher.Stays task'.fetcher) :
    lane.Runs task' store chain testimony taken := by
  refine h.congr rfl rfl rfl (fun _ hreorg => hreorg) rfl ?_ hstays
  rw [incoming, incoming, hsending]

theorem push (h : lane.Runs task store chain testimony taken) {item : QueueItem}
    (hsending : task.sending = [item]) (hfetcher : task'.fetcher = task.fetcher)
    (hidle : task'.sending = []) (hfetching : task'.isFetching = true → task.isFetching = true) :
    { lane with queue := lane.queue.push item }.Runs task' store chain testimony
      taken := by
  refine h.congr rfl rfl rfl (fun _ hreorg => hreorg) rfl ?_ fun hnow => ⟨hfetching hnow, ?_⟩
  · rw [incoming, incoming, hsending, hidle, List.append_nil]
    rfl
  · rw [hfetcher]

theorem close (h : lane.Runs task store chain testimony taken) :
    { lane with queue := lane.queue.close }.Runs task store chain testimony taken :=
  h.congr rfl rfl rfl (fun _ hreorg => hreorg) rfl rfl fun hfetching => ⟨hfetching, .refl _⟩

theorem last (h : lane.Runs task store chain testimony taken) {item : QueueItem}
    (hidle : task.sending = []) (hsending : task'.sending = [item])
    (hfetching : task'.isFetching = false)
    (hitem : item.events = [] ∧ item.blocks = [] ∧ ∀ stop, Ascends stop [item] stop)
    (hreorg : ∀ reorg, item = .reorg reorg → testimony.Vouches reorg.safeBlock ∧
      reorg.chain = chain.id ∧ ∃ block ∈ store.blocksOf chain.id ++ lane.aheadBlocks task,
        block.number = reorg.safeBlock.number ∧ block.hash = reorg.safeBlock.hash) :
    lane.Runs task' store chain testimony taken := by
  obtain ⟨htraces, hahead, hblocks⟩ := h.traces.last hidle hsending hfetching hitem
    fun reorg heq => (hreorg reorg heq).2
  refine ⟨htraces, ?_, fun reorg hannounced => ?_⟩
  · rw [hahead, hblocks]
    exact h.told
  · rw [Lane.Traces.incoming_fetched hidle hsending] at hannounced
    rcases hannounced with hlane | hmem
    · exact h.vouched reorg (Or.inl hlane)
    · rcases List.mem_append.1 hmem with hold | hnew
      · exact h.vouched reorg (Or.inr hold)
      · exact (hreorg reorg (List.mem_singleton.1 hnew).symm).1

/-- What is stored and on its way lies below the block where the fetcher goes on, but for the events
of a block that was begun. -/
theorem spans (h : lane.Runs task store chain testimony taken)
    (hstore : store.Traces chain) (hfetching : task.isFetching = true) :
    task.fetcher.Remembers chain (store.blocksOf chain.id ++ lane.aheadBlocks task)
        task.fetcher.nextBlock ∧
      (∀ block ∈ store.blocksOf chain.id ++ lane.aheadBlocks task,
        chain.startBlock ≤ block.number ∧ block.number < task.fetcher.nextBlock) ∧
      (∀ event ∈ store.eventsOf chain.id ++ (taken ++ lane.ahead task),
        chain.startBlock ≤ event.block ∧ event.block ≤ task.fetcher.nextBlock) ∧
      ∀ event ∈ taken ++ lane.ahead task, event.block < task.fetcher.nextBlock := by
  have hstart := (store.checkpointOf chain).startBlock_le_openBlock
  rw [hstore.startBlock] at hstart
  obtain ⟨hopen, hremembers, hknown, hahead, hcoming⟩ := h.traces.lt_nextBlock
    (fun block hblock => (hstore.blocks block hblock).2) hfetching
  refine ⟨hremembers, fun block hblock => ⟨?_, hknown block hblock⟩, fun event hevent => ?_,
    fun event hevent => (hcoming event hevent).2⟩
  · rcases List.mem_append.1 hblock with hold | hnew
    · exact (hstore.blocks block hold).1
    · exact Nat.le_trans hstart (hahead block hnew)
  · rcases List.mem_append.1 hevent with hold | hnew
    · have hrange := hstore.events event hold
      omega
    · have hrange := hcoming event hnew
      omega

/-- A batch keeps a lane running if it holds together with what there is. -/
theorem fetch (h : lane.Runs task store chain testimony taken)
    (hstore : store.Traces chain) (hfetching : task.isFetching = true) (hidle : task.sending = [])
    (hmoves : task.fetcher.MovesBy context task'.fetcher batch page)
    (hpages : page.Spans task.fetcher.nextBlock)
    (hblocks : batch.blocks = Fetcher.blocksToRecord maxRecorded page batch.events)
    (htold : testimony.Tells
      (store.eventsOf chain.id ++ (taken ++ lane.ahead task) ++ batch.events)
      (store.blocksOf chain.id ++ lane.aheadBlocks task ++ batch.blocks))
    (hsending : task'.sending = [.batch batch]) :
    lane.Runs task' store chain testimony taken := by
  obtain ⟨hahead, haheadBlocks⟩ := Lane.Traces.ahead_fetched lane hidle hsending
  refine ⟨h.traces.fetch (fun block hblock => (hstore.blocks block hblock).2) hfetching hidle hmoves
    hpages hblocks hsending, ?_, fun reorg hannounced => h.vouched reorg ?_⟩
  · rw [hahead, haheadBlocks, ← List.append_assoc taken, ← List.append_assoc,
      ← List.append_assoc (store.blocksOf chain.id)]
    exact htold
  · rw [Lane.Traces.incoming_fetched hidle hsending] at hannounced
    refine hannounced.imp_right fun hmem => (List.mem_append.1 hmem).resolve_right fun hlast => ?_
    cases List.mem_singleton.1 hlast

/-- A round keeps a lane running, whatever it gives, if a batch holds together with what there
is. -/
theorem afterRound {source : τ} {state : FetchState τ} {result : Except FetchError Fetched}
    (h : lane.Runs task store chain testimony taken) (hstore : store.Traces chain)
    (hidle : task.sending = []) (hfetching : task.isFetching = true)
    (hanswers : context.source.Answers testimony)
    (hround : Fetcher.fetchNext context ⟨task.fetcher, source, 0⟩ = (result, state))
    (htold : ∀ batch page maxRecorded, result = .ok (.batch batch) →
      Fetcher.Answered context task.fetcher page →
      task.fetcher.MovesBy context state.fetcher batch page →
      task.fetcher.followsRecorded page = true →
      batch.blocks = Fetcher.blocksToRecord maxRecorded page batch.events →
      testimony.Tells
        (store.eventsOf chain.id ++ (taken ++ lane.ahead task) ++ batch.events)
        (store.blocksOf chain.id ++ lane.aheadBlocks task ++ batch.blocks)) (clock : Nat) :
    lane.Runs ({ task with fetcher := state.fetcher }.afterRound clock result) store chain
      testimony taken := by
  obtain ⟨hremembers, -, -, -⟩ := h.spans hstore hfetching
  have hchecked := Fetcher.fetchNext_checked hremembers.positive hround
  cases result with
  | error error => exact h.of_stays hidle.symm fun hnow => nomatch hnow
  | ok fetched =>
    cases fetched with
    | batch batch =>
      obtain ⟨page, maxRecorded, hanswered, hmoves, hfollows, hblocks⟩ := hchecked
      obtain ⟨toBlock, before, last, hrange, hanswer⟩ := id hanswered
      rw [hremembers.fetcherChain] at hanswer
      exact h.fetch hstore hfetching hidle hmoves (hanswers.events _ _ _ _ _ _ hrange hanswer)
        hblocks (htold batch page maxRecorded rfl hanswered hmoves hfollows hblocks) rfl
    | reorg reorg =>
      obtain ⟨-, hid, block, hblock, before, last, hanswer, hhash⟩ := hchecked
      dsimp only at hid hblock hanswer
      rw [hremembers.fetcherChain] at hid hanswer
      obtain ⟨hnumber, hvouched⟩ := hanswers.block _ _ _ _ hanswer
      refine h.last hidle rfl rfl ⟨rfl, rfl, fun _ => rfl⟩ fun noticed heq => ?_
      cases heq
      exact ⟨hvouched, hid, block, hremembers.mem_of_descending hblock, hnumber.symm, hhash.symm⟩
    | atHead => exact h.of_stays hidle.symm fun _ => ⟨hfetching, hchecked⟩
    | finished =>
      exact h.last hidle rfl rfl ⟨rfl, rfl, fun _ => rfl⟩ fun noticed heq => nomatch heq

/-- A batch that replaces no block of a stored event is of one version with all there is. -/
theorem tells_of_presents {versions : (chain : ChainId) → ChainVersions chain} {after : Fetcher}
    (h : lane.Runs task store chain (versions chain.id).testimony taken)
    (hstore : store.Traces chain) (hfetching : task.isFetching = true)
    (hpresents : context.source.Presents versions)
    (hanswered : Fetcher.Answered context task.fetcher page)
    (hmoves : task.fetcher.MovesBy context after batch page)
    (hfollows : task.fetcher.followsRecorded page = true)
    (hblocks : batch.blocks = Fetcher.blocksToRecord maxRecorded page batch.events)
    (hkept : ¬ batch.Replaces (store.eventsOf chain.id)) :
    (versions chain.id).Tell
      (store.eventsOf chain.id ++ (taken ++ lane.ahead task) ++ batch.events)
      (store.blocksOf chain.id ++ lane.aheadBlocks task ++ batch.blocks) := by
  obtain ⟨hremembers, hknown, hevents, hbelow⟩ := h.spans hstore hfetching
  obtain ⟨toBlock, before, last, hrange, hanswer⟩ := hanswered
  rw [hremembers.fetcherChain] at hanswer
  obtain ⟨log', hlog', hhonest, -⟩ := hpresents.events _ _ _ _ _ _ _ hrange hanswer
  obtain ⟨log, hlog, htells⟩ := h.told
  obtain ⟨hhas, hcarries, -⟩ :=
    hremembers.kept hlog htells hknown hevents hlog' hhonest hfollows hblocks
  obtain ⟨-, -, hstored⟩ := hremembers.kept hlog
    (htells.mono (List.subset_append_left _ _) fun _ hmem => hmem) hknown
    (fun event hevent => hevents event (List.mem_append_left _ hevent)) hlog' hhonest hfollows
    hblocks
  have htells' : log'.Tells (store.eventsOf chain.id ++ (taken ++ lane.ahead task))
      (store.blocksOf chain.id ++ lane.aheadBlocks task) := by
    refine ⟨fun event hevent => ?_, hhas⟩
    rcases List.mem_append.1 hevent with hold | hnew
    · exact hstored hkept event hold
    · exact hcarries event hevent (hbelow event hnew)
  exact ⟨log', hlog', htells'.append (hmoves.tells hlog' hhonest)⟩

end Lane.Runs

namespace Indexer

variable {τ : Type} {context : IndexerContext τ Store} {indexer : Indexer τ Store} {config : Config}
  {others : Set Chain} {testimony : (chain : ChainId) → Testimony chain}
  {versions : (chain : ChainId) → ChainVersions chain} {id : ChainId} {task after : FetcherTask}
  {source : τ}

/-- What becomes of a fetcher in a round. -/
def took (indexer : Indexer τ Store) (context : IndexerContext τ Store) (id : ChainId)
    (task : FetcherTask) (source : τ) : FetcherTask :=
  let (result, state) := indexer.round context id task source
  { task with fetcher := state.fetcher }.afterRound indexer.clock result

theorem changeTask_tracing (h : indexer.pipeline.Tracing config others testimony [])
    (htask : indexer.pipeline.tasks.get? id = some task)
    (hruns : ∀ chain ∈ config.chains, chain.id = id → ∀ lane : Lane,
      lane.Runs task indexer.pipeline.repo chain (testimony chain.id) [] →
      lane.Runs after indexer.pipeline.repo chain (testimony chain.id) []) :
    (indexer.changeTask id after).pipeline.Tracing config others testimony [] := by
  refine h.changeAt id (fun lane => lane) rfl (fun other => ?_) (fun other hother => ?_)
    (fun _ => rfl) ?_
  · split
    next hsame => rw [hsame, Option.map_id']
    next => rfl
  · exact (Table.get?_insert ..).trans (if_neg hother)
  · intro chain hchain hid lane before hbefore hlane
    subst hid
    rw [htask] at hbefore
    cases hbefore
    exact ⟨after, (Table.get?_insert ..).trans (if_pos rfl), hruns chain hchain rfl lane hlane⟩

theorem closeLane_tracing (h : indexer.pipeline.Tracing config others testimony []) (id : ChainId) :
    (indexer.closeLane id).pipeline.Tracing config others testimony [] :=
  h.changeAt id (fun lane => { lane with queue := lane.queue.close }) rfl
    (fun _ => Table.get?_modify ..) (fun _ _ => rfl) (fun _ => rfl)
    fun _ _ _ _ task htask hlane => ⟨task, htask, hlane.close⟩

theorem takeRound_task (indexer : Indexer τ Store) (context : IndexerContext τ Store) (id : ChainId)
    (task : FetcherTask) (source : τ) :
    (indexer.takeRound context id task source).pipeline.tasks.get? id =
      some (indexer.took context id task source) := by
  rw [takeRound, took]
  cases indexer.round context id task source with
  | mk result state => cases result <;> exact (Table.get?_insert ..).trans (if_pos rfl)

theorem takeRound_tracing (h : indexer.pipeline.Tracing config others testimony [])
    (htask : indexer.pipeline.tasks.get? id = some task) (source : τ)
    (hruns : ∀ chain ∈ config.chains, chain.id = id → ∀ lane : Lane,
      lane.Runs task indexer.pipeline.repo chain (testimony chain.id) [] →
      lane.Runs (indexer.took context id task source) indexer.pipeline.repo chain
        (testimony chain.id) []) :
    (indexer.takeRound context id task source).pipeline.Tracing config others testimony [] := by
  rw [took] at hruns
  cases hround : indexer.round context id task source with
  | mk result state =>
    rw [hround] at hruns
    exact takeRound_induction (Q := fun pipeline => pipeline.Tracing config others testimony [])
      closeLane_tracing hround (fun _ hkept => hkept.congr rfl rfl rfl rfl rfl)
      (changeTask_tracing h htask hruns)

theorem send_tracing (h : indexer.pipeline.Tracing config others testimony [])
    (htask : indexer.pipeline.tasks.get? id = some task) {item : QueueItem}
    (hphase : task.phase = .send item) :
    (indexer.send id task item).pipeline.Tracing config others testimony [] := by
  refine send_induction (Q := fun pipeline => pipeline.Tracing config others testimony [])
    closeLane_tracing ?_
  refine h.changeAt id (fun lane => { lane with queue := lane.queue.push item }) rfl
    (fun other => Table.get?_modify ..)
    (fun _ hother => (Table.get?_insert ..).trans (if_neg hother)) (fun _ => rfl) ?_
  intro chain _ hid lane before hbefore hlane
  subst hid
  rw [htask] at hbefore
  cases hbefore
  exact ⟨_, (Table.get?_insert ..).trans (if_pos rfl),
    hlane.push (FetcherTask.sending_of_send hphase) rfl (task.sending_phaseAfter item _)
      (FetcherTask.isFetching_phaseAfter hphase _).symm.trans⟩

/-- A step of a fetcher keeps all lanes running if each round does. -/
theorem runTask_tracing (h : indexer.pipeline.Tracing config others testimony []) (id : ChainId)
    (hruns : ∀ task source, task.sending = [] → task.isFetching = true →
      indexer.runTask context id = indexer.takeRound context id task source →
      ∀ chain ∈ config.chains, chain.id = id → ∀ lane : Lane,
        lane.Runs task indexer.pipeline.repo chain (testimony chain.id) [] →
        lane.Runs (indexer.took context id task source) indexer.pipeline.repo chain
          (testimony chain.id) []) :
    (indexer.runTask context id).pipeline.Tracing config others testimony [] := by
  generalize hafter : indexer.runTask context id = after at hruns ⊢
  cases fetcherStep_of_runTask hafter with
  | idle => exact h
  | @round task source htask hphase =>
    exact takeRound_tracing h htask source (hruns task source
      (FetcherTask.sending_of_round hphase) (FetcherTask.isFetching_of_round hphase) rfl)
  | pause dueAt htask hphase =>
    exact changeTask_tracing h htask fun chain _ _ lane hlane =>
      hlane.of_stays (FetcherTask.sending_of_round (Or.inl hphase)).symm fun _ =>
        ⟨FetcherTask.isFetching_of_round (Or.inl hphase), .refl _⟩
  | send htask hphase => exact send_tracing h htask hphase

/-! ### Versions -/

/-- A reorg takes the last events of a chain, as those are of one version with the safe block. -/
theorem withstands_of_versions {pipeline : Pipeline Store} {reorg : Reorg} {orderer : Orderer}
    (h : pipeline.Tracing config ∅ (fun chain => (versions chain).testimony) [])
    (hvalid : config.validate = .ok ())
    (hstep : pipeline.orderer.nextStep = (.reorg reorg, orderer)) :
    pipeline.Withstands config ∅ reorg := by
  obtain ⟨-, forked, hforked, lane, task, hruns, hreorg⟩ := h.lane_of_reorg hstep
  refine ⟨fun chain hchain => .of_clocked ?_ fun hid event hevent hlt => ?_,
    fun chain hmem => absurd hmem (Set.notMem_empty chain)⟩
  · obtain ⟨log, hlog, htells⟩ := h.traces.store.told chain hchain
    intro first hfirst later hlater hle
    rw [(htells.events first hfirst).timestamp, (htells.events later hlater).timestamp]
    exact (versions chain.id).clocked log hlog hle
  · obtain ⟨hsame, block, hblock, hnumber, hhash⟩ := hruns.traces.announced reorg (Or.inl hreorg)
    obtain rfl : chain = forked := List.inj_on_of_nodup_map (Config.validate_eq_ok hvalid).1 hchain
      hforked (hid.trans hsame)
    obtain ⟨log, hlog, htells⟩ := hruns.told
    obtain ⟨other, hother, hhas⟩ := hruns.vouched reorg (Or.inl hreorg)
    -- The safe block is the one on record, as it has the same hash.
    have hsafe : log.block reorg.safeBlock.number = reorg.safeBlock := by
      refine (versions chain.id).has_of_hash hother hlog hhas ?_ rfl
      rw [← hnumber, ← htells.blocks block hblock, hhash]
    rw [← hsafe, (htells.events event (List.mem_append_left _ hevent)).timestamp]
    exact (versions chain.id).clocked log hlog hlt.le

/-- Whether the batch that the fetcher of a chain is about to hand over, if there is one, replaces
no block of a stored event. -/
def Keeps (indexer : Indexer τ Store) (id : ChainId) : Prop :=
  ∀ task batch, indexer.pipeline.tasks.get? id = some task → task.phase = .send (.batch batch) →
    ¬ batch.Replaces (indexer.pipeline.repo.eventsOf id)

/-- A step of a fetcher keeps all lanes running, unless it brings another block in place of the
block of a stored event. -/
theorem runTask_tracing_of_presents
    (h : indexer.pipeline.Tracing config others (fun chain => (versions chain).testimony) [])
    (hpresents : context.source.Presents versions) (id : ChainId)
    (hkeeps : (indexer.runTask context id).Keeps id) :
    (indexer.runTask context id).pipeline.Tracing config others
      (fun chain => (versions chain).testimony) [] := by
  refine runTask_tracing h id fun task source hidle hfetching hround chain hchain hid lane hlane =>
    ?_
  rw [hround] at hkeeps
  have htook := indexer.takeRound_task context id task source
  have hrepo : (indexer.takeRound context id task source).pipeline.repo =
      indexer.pipeline.repo := by
    rw [takeRound]
    cases indexer.round context id task source with
    | mk result state => cases result <;> rfl
  rw [took] at htook ⊢
  cases hgiven : indexer.round context id task source with
  | mk result state =>
    rw [hgiven] at htook
    subst hid
    have hstore := h.traces.store.traces chain hchain
    refine hlane.afterRound hstore hidle hfetching (hpresents.answers chain.id) hgiven ?_ _
    rintro batch page maxRecorded rfl hanswered hmoves hfollows hblocks
    refine hlane.tells_of_presents hstore hfetching hpresents hanswered hmoves hfollows hblocks ?_
    exact hrepo ▸ hkeeps _ batch htook rfl

end Indexer

end ChainIndexer
