import ChainIndexer.Proofs.Fork.Lane

/-!
# Fetching a chain that may be forked

A batch that follows on what is on record is of a version that has everything known below it. So
what is known stays right in the version of the batch, but for the events of a block that was begun
before.
-/

namespace ChainIndexer

variable {τ : Type} {context : FetchContext τ} {before after : Fetcher} {batch : FetchedBatch}
  {page : EventPage} {maxRecorded : Nat} {id : ChainId} {log : ChainLog id}

/-- Whether a page is of the blocks from one on, through its last, and comes with the blocks around
its events. -/
structure EventPage.Spans (page : EventPage) (fromBlock : Nat) : Prop where
  first : page.firstBlock.number = fromBlock
  range : fromBlock ≤ page.lastBlock.number
  events : ∀ event ∈ page.events, fromBlock ≤ event.block ∧ event.block ≤ page.lastBlock.number
  surrounds : page.Surrounds

/-- Whether a source answers for a chain with pages of the blocks that it was asked for, and with
blocks that can be vouched for. -/
structure ChainSource.Answers (source : ChainSource τ) {chain : ChainId}
    (testimony : Testimony chain) : Prop where
  events : ∀ fromBlock toBlock watched before page after, fromBlock ≤ toBlock →
    source.events chain fromBlock toBlock watched before = (.ok page, after) →
      page.Spans fromBlock
  block : ∀ number before block after,
    source.block chain number before = (.ok block, after) →
      block.number = number ∧ testimony.Vouches block

theorem EventPage.Honest.spans {watched : List WatchedAddress} {fromBlock : Nat}
    (h : page.Honest log watched fromBlock) (hsurrounds : page.Surrounds) :
    page.Spans fromBlock where
  first := by rw [h.first, log.numbered]
  range := h.range
  events := fun event hevent => (h.sound event hevent).2
  surrounds := hsurrounds

theorem ChainSource.Presents.answers {source : ChainSource τ}
    {versions : (chain : ChainId) → ChainVersions chain} (h : source.Presents versions)
    (chain : ChainId) : source.Answers (versions chain).testimony where
  events := by
    intro fromBlock toBlock watched before page after hrange hanswer
    obtain ⟨log, -, hhonest, hsurrounds⟩ := h.events _ _ _ _ _ _ _ hrange hanswer
    exact hhonest.spans hsurrounds
  block := by
    intro number before block after hanswer
    obtain ⟨log, hlog, rfl⟩ := h.block _ _ _ _ _ hanswer
    exact ⟨log.numbered number, log, hlog, log.has_block number⟩

namespace Fetcher.MovesBy

theorem mem_page (h : MovesBy context before after batch page) {event : Event}
    (hevent : event ∈ batch.events) : event ∈ page.events := by
  rw [h.events, Event.mem_sortByPosition] at hevent
  exact List.mem_of_mem_filter hevent

/-- The batch that a fetcher makes of a page covers the blocks of the page. -/
theorem spans (h : MovesBy context before after batch page)
    (hpages : page.Spans before.nextBlock)
    (hblocks : batch.blocks = blocksToRecord maxRecorded page batch.events) :
    batch.Spans before.nextBlock := by
  have hrange := hpages.range
  have hfirst := hpages.first
  refine ⟨h.lastBlock ▸ hrange, ?_, fun event hevent => ?_, fun block hblock => ?_, ?_, ?_⟩
  · rw [h.events]
    exact (Event.sortByPosition_pairwise _).imp Position.block_le_of_le
  · rw [h.lastBlock]
    exact hpages.events event (h.mem_page hevent)
  · rw [hblocks] at hblock
    rw [h.lastBlock]
    rcases mem_blocksToRecord_or hblock with rfl | rfl | ⟨-, hlow, hhigh⟩
    · omega
    · omega
    · omega
  · rw [hblocks]
    exact blocksToRecord_nodup ..
  · rw [hblocks, h.lastBlock]
    exact exists_mem_blocksToRecord (Or.inr (Or.inl rfl))

/-- The block before each event of a batch comes with the batch, or is the one before the batch. -/
theorem grounded (h : MovesBy context before after batch page)
    (hpages : page.Spans before.nextBlock)
    (hblocks : batch.blocks = blocksToRecord maxRecorded page batch.events) {start : Nat}
    {known : List Block} (hknown : Grounded start known before.nextBlock)
    (hrecorded : batch.blocks ⊆ known) {event : Event} (hevent : event ∈ batch.events) :
    Grounded start known event.block := by
  have hfirst := hpages.first
  have hpage := h.mem_page hevent
  obtain ⟨hlow, hhigh⟩ := hpages.events event hpage
  rcases Nat.eq_or_lt_of_le hlow with heq | hlt
  · exact heq ▸ hknown
  · -- The block before the event is in the range of the page, so it is one of its blocks.
    obtain ⟨number, hnumber⟩ := Nat.exists_eq_add_of_lt hlt
    have hbefore : before.nextBlock + number + 1 = event.block := hnumber.symm
    have hfound : ∃ block ∈ batch.blocks, block.number = before.nextBlock + number := by
      rw [hblocks]
      refine exists_mem_blocksToRecord ?_
      obtain ⟨block, hblock, hsame⟩ := hpages.surrounds event hpage (before.nextBlock + number)
        (by omega) (Or.inr hbefore)
      rcases List.mem_cons.1 hblock with rfl | hothers
      · exact Or.inl hsame.symm
      · rcases List.mem_cons.1 hothers with rfl | hmem
        · exact Or.inr (Or.inl hsame.symm)
        · exact Or.inr (Or.inr ⟨⟨block, hmem, hsame⟩, by omega, event, hevent, Or.inr hnumber⟩)
    obtain ⟨block, hblock, hsame⟩ := hfound
    exact Or.inr ⟨block, hrecorded hblock, by omega⟩

/-- All of a batch is of the version that the source answered from. -/
theorem tells {versions : ChainVersions id} (h : MovesBy context before after batch page)
    (hlog : log ∈ versions.logs) (hhonest : page.Honest log context.watched before.nextBlock) :
    log.Tells batch.events batch.blocks :=
  ⟨fun event hevent => versions.carried log hlog event (hhonest.sound event (h.mem_page hevent)).1,
    fun block hblock => hhonest.has (h.blocks block hblock)⟩

/-- After a batch a fetcher remembers the last block of it. -/
theorem remembers (h : MovesBy context before after batch page)
    (hpages : page.Spans before.nextBlock)
    (hblocks : batch.blocks = blocksToRecord maxRecorded page batch.events) {chain : Chain}
    {known known' : List Block} (hknown : ∀ block ∈ known, block.number < before.nextBlock)
    (hremembers : before.Remembers chain known before.nextBlock) (hsubset : known ⊆ known')
    (hrecorded : batch.blocks ⊆ known') :
    after.Remembers chain known' (batch.lastBlock.number + 1) := by
  have hbelow : ∀ number block, before.window.get? number = some block →
      number < before.nextBlock := by
    intro number block hget
    obtain ⟨rfl, hmem⟩ := hremembers.within number block hget
    exact hknown block hmem
  have hends := h.endsAt hremembers.capacity hbelow hpages.first hpages.range hblocks
  refine ⟨h.chain.trans hremembers.fetcherChain, h.positive, ?_, hends.capacity, ?_, Or.inr ?_⟩
  · rw [h.nextBlock, h.lastBlock]
  · rw [h.window]
    exact (hremembers.within.mono hsubset).recordAll hrecorded
  · rw [h.lastBlock]
    exact hends.highest

end Fetcher.MovesBy

/-- A batch that follows on what is on record is of a version that shares the block before it. -/
theorem Fetcher.hash_of_followsRecorded {chain : Chain} {log log' : ChainLog chain.id}
    {known : List Block} {stop : Nat} (hremembers : before.Remembers chain known stop)
    (hknown : ∀ block ∈ known, log.Has block) (hfirst : page.firstBlock = log'.block stop)
    (hfollows : before.followsRecorded page = true) (hstart : chain.startBlock < stop) :
    (log.block (stop - 1)).hash = (log'.block (stop - 1)).hash := by
  obtain ⟨block, hget⟩ := hremembers.before.resolve_left (Nat.not_le.2 hstart)
  obtain ⟨hnumber, hmem⟩ := hremembers.within _ _ hget
  have hblock : block = log.block (stop - 1) := hnumber ▸ hknown block hmem
  obtain ⟨below, rfl⟩ : ∃ below, stop = below + 1 := ⟨stop - 1, by omega⟩
  rw [Nat.add_sub_cancel] at hget hblock ⊢
  rw [followsRecorded, hremembers.nextBlock, Nat.add_sub_cancel, hget, Bool.or_eq_true,
    decide_eq_true_eq, Option.all_some, decide_eq_true_eq] at hfollows
  have hparent := hfollows.resolve_left (Nat.succ_ne_zero below)
  rw [hfirst, log'.linked] at hparent
  rw [← hblock, hparent]

/-- Whether a batch brings another block in place of the block of an event. -/
def FetchedBatch.Replaces (batch : FetchedBatch) (events : List Event) : Prop :=
  ∃ event ∈ events, ∃ block ∈ batch.blocks,
    block.number = event.block ∧ event.blockHash ≠ block.hash

instance (events : List Event) : Decidable (batch.Replaces events) :=
  inferInstanceAs (Decidable (∃ event ∈ events, ∃ block ∈ batch.blocks,
    block.number = event.block ∧ event.blockHash ≠ block.hash))

/-- What is known stays right in the version of a batch that follows on what is on record, but for
the events of the first block of the batch: those stay right unless the batch replaces the block. -/
theorem Fetcher.Remembers.kept {chain : Chain} {versions : ChainVersions chain.id}
    {log log' : ChainLog chain.id} {known : List Block} {events : List Event}
    {watched : List WatchedAddress} (hremembers : before.Remembers chain known before.nextBlock)
    (hlog : log ∈ versions.logs) (htells : log.Tells events known)
    (hknown : ∀ block ∈ known,
      chain.startBlock ≤ block.number ∧ block.number < before.nextBlock)
    (hevents : ∀ event ∈ events, chain.startBlock ≤ event.block ∧ event.block ≤ before.nextBlock)
    (hlog' : log' ∈ versions.logs) (hhonest : page.Honest log' watched before.nextBlock)
    (hfollows : before.followsRecorded page = true)
    (hblocks : batch.blocks = blocksToRecord maxRecorded page batch.events) :
    (∀ block ∈ known, log'.Has block) ∧
      (∀ event ∈ events, event.block < before.nextBlock → log'.Carries event) ∧
      (¬ batch.Replaces events → ∀ event ∈ events, log'.Carries event) := by
  obtain ⟨hhas, hcarries⟩ := versions.kept_of_shared hlog hlog' htells
    (Fetcher.hash_of_followsRecorded hremembers htells.blocks hhonest.first hfollows) hknown hevents
  refine ⟨hhas, fun event hevent hlt => hcarries event hevent fun heq => absurd heq hlt.ne,
    fun hkept event hevent => hcarries event hevent fun heq => ?_⟩
  -- The first block of the page is among those of the batch.
  obtain ⟨block, hblock, hnumber⟩ : ∃ block ∈ batch.blocks, block.number = before.nextBlock := by
    rw [hblocks]
    refine exists_mem_blocksToRecord (Or.inl ?_)
    rw [hhonest.first, log'.numbered]
  have hblockHas : log'.Has block := by
    rw [hblocks] at hblock
    exact hhonest.has (mem_blocksToRecord hblock)
  rw [ChainLog.Has, hnumber] at hblockHas
  rw [← hblockHas]
  by_contra hhash
  exact hkept ⟨event, hevent, block, hblock, hnumber.trans heq.symm, hhash⟩

/-- A batch replaces no block of the version that it is of. -/
theorem FetchedBatch.not_replaces {events : List Event}
    (hblocks : ∀ block ∈ batch.blocks, log.Has block)
    (hevents : ∀ event ∈ events, event.blockHash = (log.block event.block).hash) :
    ¬ batch.Replaces events := by
  rintro ⟨event, hevent, block, hblock, hnumber, hhash⟩
  rw [hevents event hevent, ← hnumber, hblocks block hblock, log.numbered] at hhash
  exact hhash rfl

/-- A fetcher remembers known blocks only. -/
theorem Fetcher.Remembers.mem_of_descending {chain : Chain} {known : List Block} {stop : Nat}
    (h : before.Remembers chain known stop) {block : Block}
    (hblock : block ∈ before.window.descending) : block ∈ known := by
  obtain ⟨number, hget⟩ := Table.mem_values_iff.1 (List.mem_reverse.1 hblock)
  exact (h.within number block hget).2

theorem Fetcher.Remembers.safeBlock {chain : Chain} {versions : ChainVersions chain.id}
    {log log' : ChainLog chain.id} {known : List Block} {stop : Nat}
    (hremembers : before.Remembers chain known stop) (hlog : log ∈ versions.logs)
    (hlog' : log' ∈ versions.logs) (hknown : ∀ block ∈ known, log.Has block) {block safe : Block}
    (hblock : block ∈ before.window.descending) (hanswer : safe = log'.block block.number)
    (hhash : safe.hash = block.hash) : safe ∈ known := by
  have hmem := hremembers.mem_of_descending hblock
  rw [hanswer] at hhash
  rw [hanswer, versions.has_of_hash hlog hlog' (hknown block hmem) hhash rfl]
  exact hmem

namespace Lane.Traces

variable {lane : Lane} {task task' : FetcherTask} {chain : Chain} {next : Nat}
  {recorded : List Block} {taken : List Event}

/-- What is on its way lies below the block where the fetcher goes on. -/
theorem lt_nextBlock (h : lane.Traces task chain next recorded taken)
    (hrecorded : ∀ block ∈ recorded, block.number < next) (hfetching : task.isFetching = true) :
    next ≤ task.fetcher.nextBlock ∧
      task.fetcher.Remembers chain (recorded ++ lane.aheadBlocks task) task.fetcher.nextBlock ∧
      (∀ block ∈ recorded ++ lane.aheadBlocks task, block.number < task.fetcher.nextBlock) ∧
      (∀ block ∈ lane.aheadBlocks task, next ≤ block.number) ∧
      ∀ event ∈ taken ++ lane.ahead task,
        next ≤ event.block ∧ event.block < task.fetcher.nextBlock := by
  obtain ⟨first, stop, hleads, hascends, -, hremembers⟩ := h.stretches
  obtain rfl := (hremembers hfetching).nextBlock
  have hfirst := hleads.le
  have hstop := hascends.le
  have hblocks : ∀ block ∈ lane.aheadBlocks task,
      next ≤ block.number ∧ block.number < task.fetcher.nextBlock := by
    intro block hblock
    rcases List.mem_append.1 hblock with hlane | hcoming
    · have hrange := hleads.blocks block hlane
      omega
    · have hrange := hascends.blocks block hcoming
      omega
  refine ⟨by omega, hremembers hfetching, fun block hblock => ?_,
    fun block hblock => (hblocks block hblock).1, fun event hevent => ?_⟩
  · rcases List.mem_append.1 hblock with hold | hahead
    · have hlt := hrecorded block hold
      omega
    · exact (hblocks block hahead).2
  · rw [ahead, ← List.append_assoc] at hevent
    rcases List.mem_append.1 hevent with hlane | hcoming
    · have hrange := hleads.events event hlane
      omega
    · have hrange := hascends.events event hcoming
      omega

theorem incoming_fetched (hidle : task.sending = []) {item : QueueItem}
    (hsending : task'.sending = [item]) :
    lane.incoming task' = lane.incoming task ++ [item] := by
  rw [incoming, incoming, hidle, hsending, List.append_nil]

theorem ahead_fetched (lane : Lane) (hidle : task.sending = [])
    (hsending : task'.sending = [.batch batch]) :
    lane.ahead task' = lane.ahead task ++ batch.events ∧
      lane.aheadBlocks task' = lane.aheadBlocks task ++ batch.blocks := by
  have hincoming : lane.incoming task' = lane.incoming task ++ [.batch batch] :=
    incoming_fetched hidle hsending
  have hevents : eventsOf [.batch batch] = batch.events := List.append_nil _
  have hblocks : blocksOf [.batch batch] = batch.blocks := List.append_nil _
  rw [ahead, ahead, aheadBlocks, aheadBlocks, hincoming, eventsOf_append, blocksOf_append, hevents,
    hblocks, List.append_assoc, List.append_assoc]
  exact ⟨rfl, rfl⟩

/-- A batch comes behind what is on its way. -/
theorem fetch (h : lane.Traces task chain next recorded taken)
    (hrecorded : ∀ block ∈ recorded, block.number < next) (hfetching : task.isFetching = true)
    (hidle : task.sending = [])
    (hmoves : task.fetcher.MovesBy context task'.fetcher batch page)
    (hpages : page.Spans task.fetcher.nextBlock)
    (hblocks : batch.blocks = Fetcher.blocksToRecord maxRecorded page batch.events)
    (hsending : task'.sending = [.batch batch]) :
    lane.Traces task' chain next recorded taken := by
  obtain ⟨-, hremembers, hknown, -, -⟩ := h.lt_nextBlock hrecorded hfetching
  obtain ⟨hahead, haheadBlocks⟩ := ahead_fetched lane hidle hsending
  obtain ⟨first, stop, hleads, hascends, hground, hgoesOn⟩ := h.stretches
  obtain rfl := (hgoesOn hfetching).nextBlock
  have hspans := hmoves.spans hpages hblocks
  have hsubset : recorded ++ lane.aheadBlocks task ⊆ recorded ++ lane.aheadBlocks task' := by
    rw [haheadBlocks, ← List.append_assoc]
    exact List.subset_append_left _ _
  have hnew : batch.blocks ⊆ recorded ++ lane.aheadBlocks task' := by
    rw [haheadBlocks, ← List.append_assoc]
    exact List.subset_append_right _ _
  refine ⟨h.laneChain, ⟨first, batch.lastBlock.number + 1, hleads, ?_, hground.mono hsubset,
    fun _ => hmoves.remembers hpages hblocks hknown hremembers hsubset hnew⟩,
    fun event hevent => ?_, fun reorg hannounced => ?_⟩
  · rw [incoming_fetched hidle hsending]
    exact hascends.append ⟨hspans, rfl⟩
  · rw [hahead, ← List.append_assoc] at hevent
    rcases List.mem_append.1 hevent with hold | hfetched
    · exact (h.grounded event hold).mono hsubset
    · exact hmoves.grounded hpages hblocks (hremembers.grounded.mono hsubset) hnew hfetched
  · rw [incoming_fetched hidle hsending] at hannounced
    have hbefore : lane.Announces (lane.incoming task) reorg := by
      refine hannounced.imp_right fun hmem => (List.mem_append.1 hmem).resolve_right fun hlast => ?_
      cases List.mem_singleton.1 hlast
    exact (h.announced reorg hbefore).imp_right
      fun ⟨block, hblock, hsame⟩ => ⟨block, hsubset hblock, hsame⟩

end Lane.Traces

end ChainIndexer
