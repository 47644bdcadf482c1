import ChainIndexer.Proofs.Retries
import ChainIndexer.Proofs.Window

/-!
# What a round of fetching gives

A round moves a fetcher on only by a batch. From an honest source the batch holds exactly the wanted
events of its range of blocks, in order.
-/

namespace ChainIndexer

namespace BatchSize

/-- Whether at least one block is asked for at once. -/
structure Positive (size : BatchSize) : Prop where
  min : 1 ≤ size.min
  value : 1 ≤ size.value

theorem Positive.clamp {size : BatchSize} (h : 1 ≤ size.min) (value : Nat) :
    Positive { size with value := size.clamp value } :=
  ⟨h, Nat.le_trans h (Nat.le_max_left ..)⟩

theorem Positive.adjust {size : BatchSize} (h : size.Positive) (micros events : Nat) :
    (size.adjust micros events).Positive := by
  rw [BatchSize.adjust]
  split
  · exact .clamp h.min _
  · split
    · exact .clamp h.min _
    · exact h

end BatchSize

/-- Whether a page holds what happened on a chain from one block through its last: blocks of the
chain, each event there that a watched address emitted, and no event that is not of the chain. -/
structure EventPage.Honest {chain : ChainId} (page : EventPage) (log : ChainLog chain)
    (watched : List WatchedAddress) (fromBlock : Nat) : Prop where
  range : fromBlock ≤ page.lastBlock.number
  first : page.firstBlock = log.block fromBlock
  last : log.Has page.lastBlock
  blocks : ∀ block ∈ page.blocks, log.Has block
  nodup : page.events.Nodup
  sound : ∀ event ∈ page.events,
    event ∈ log.events ∧ fromBlock ≤ event.block ∧ event.block ≤ page.lastBlock.number
  complete : ∀ event ∈ log.events, fromBlock ≤ event.block →
    event.block ≤ page.lastBlock.number →
    (∃ address ∈ watched, address.address = Text.lowercase event.address ∧
      address.startBlock ≤ event.block) → event ∈ page.events

theorem EventPage.Honest.has {chain : ChainId} {page : EventPage} {log : ChainLog chain}
    {watched : List WatchedAddress} {fromBlock : Nat} (h : page.Honest log watched fromBlock)
    {block : Block}
    (hblock : block = page.firstBlock ∨ block = page.lastBlock ∨ block ∈ page.blocks) :
    log.Has block := by
  rcases hblock with rfl | rfl | hmem
  · rw [h.first]
    exact log.has_block fromBlock
  · exact h.last
  · exact h.blocks block hmem

/-- Whether a source answers every request for a range of blocks by what happened in it, or in the
first blocks of it. -/
def ChainSource.Honest {τ : Type} (source : ChainSource τ)
    (logs : (chain : ChainId) → ChainLog chain) : Prop :=
  ∀ chain fromBlock toBlock watched state page after, fromBlock ≤ toBlock →
    source.events chain fromBlock toBlock watched state = (.ok page, after) →
    page.Honest (logs chain) watched fromBlock

/-- A source that has the blocks of all chains up to a head and answers all that is asked for. -/
def ChainSource.ofLogs (logs : (chain : ChainId) → ChainLog chain) (head : Nat) :
    ChainSource Unit where
  head chain := pure ((logs chain).block head)
  block chain number := pure ((logs chain).block number)
  events chain fromBlock toBlock _ := pure
    { events := (logs chain).events.filter fun event =>
        fromBlock ≤ event.block ∧ event.block ≤ toBlock
      firstBlock := (logs chain).block fromBlock
      lastBlock := (logs chain).block toBlock
      blocks := [] }

theorem ChainSource.Honest.ofLogs (logs : (chain : ChainId) → ChainLog chain) (head : Nat) :
    (ChainSource.ofLogs logs head).Honest logs := by
  intro chain fromBlock toBlock watched state page after hrange hanswer
  cases hanswer
  have hlast : ((logs chain).block toBlock).number = toBlock := (logs chain).numbered toBlock
  refine ⟨hlast.symm ▸ hrange, rfl, (logs chain).has_block toBlock,
    fun _ hmem => absurd hmem List.not_mem_nil, (logs chain).inOrder.nodup.filter _, ?_, ?_⟩
  · intro event hevent
    rw [List.mem_filter, decide_eq_true_eq] at hevent
    rwa [hlast]
  · intro event hevent hfirst hle _
    rw [hlast] at hle
    exact List.mem_filter.2 ⟨hevent, decide_eq_true ⟨hfirst, hle⟩⟩

namespace Fetcher

variable {τ α : Type} {context : FetchContext τ} {before after : Fetcher}

/-- Whether a fetcher is still at the same place. -/
structure Stays (before after : Fetcher) : Prop where
  chain : after.chain = before.chain
  nextBlock : after.nextBlock = before.nextBlock
  endBlock : after.endBlock = before.endBlock
  skipThrough : after.skipThrough = before.skipThrough
  window : after.window = before.window
  positive : before.batchSize.Positive → after.batchSize.Positive

@[refl]
theorem Stays.refl (fetcher : Fetcher) : fetcher.Stays fetcher := ⟨rfl, rfl, rfl, rfl, rfl, id⟩

theorem Stays.trans {last : Fetcher} (h : before.Stays after) (h' : after.Stays last) :
    before.Stays last :=
  ⟨h'.chain.trans h.chain, h'.nextBlock.trans h.nextBlock, h'.endBlock.trans h.endBlock,
    h'.skipThrough.trans h.skipThrough, h'.window.trans h.window, h'.positive ∘ h.positive⟩

theorem Stays.shrink (h : before.Stays after) :
    before.Stays { after with batchSize := after.batchSize.shrink } :=
  h.trans ⟨rfl, rfl, rfl, rfl, rfl, fun hpositive => .clamp hpositive.min _⟩

theorem halved_stays (fetcher : Fetcher) (halvings : Nat) :
    fetcher.Stays (fetcher.halved halvings) := by
  induction halvings with
  | zero => exact .refl _
  | succ halvings ih =>
    rw [halved, Function.iterate_succ_apply']
    exact ih.shrink

theorem request_stays (operation : FetchOperation) (call : Call τ SourceError α)
    (state : FetchState τ) :
    state.fetcher.Stays (request operation call state).2.fetcher := by
  rw [request_fetcher]

theorem request_eq_ok {operation : FetchOperation} {call : Call τ SourceError α}
    {state after : FetchState τ} {value : α}
    (h : request operation call state = (.ok value, after)) :
    ∃ source, call source = (.ok value, after.source) := by
  obtain ⟨last, hends⟩ := RetryPolicy.exists_endsAt state.fetcher.settings.retries.limit
    fun made => SourceError.Passing ((CallSeries.repeated call).answer state.source made)
  rw [request_eq operation call state hends] at h
  obtain ⟨hresult, rfl⟩ := Prod.mk.inj h
  exact ⟨_, Prod.ext (lastResult_eq_ok hresult) rfl⟩

theorem findHead_stays {state : FetchState τ} :
    state.fetcher.Stays (findHead context state).2.fetcher := by
  rw [findHead]
  split
  next => exact .refl _
  next =>
    have hstays := request_stays .head (context.source.head state.fetcher.chain) state
    split
    next heq => rwa [heq] at hstays
    next heq =>
      rw [heq] at hstays
      exact ⟨hstays.chain, hstays.nextBlock, hstays.endBlock, hstays.skipThrough, hstays.window,
        hstays.positive⟩

theorem requestEvents_stays (head : Nat) (state : FetchState τ) :
    state.fetcher.Stays (requestEvents context head state).2.fetcher := by
  obtain ⟨halvings, hhalved⟩ := requestEvents_fetcher context head state
  rw [hhalved]
  exact halved_stays _ _

theorem requestEvents_eq_ok {head : Nat} {state after : FetchState τ} {page : EventPage}
    (h : requestEvents context head state = (.ok page, after)) :
    ∃ fetcher source, state.fetcher.Stays fetcher ∧
      context.source.events fetcher.chain fetcher.nextBlock (fetcher.lastRequested head)
        context.watched source = (.ok page, after.source) := by
  obtain ⟨last, hends⟩ := RetryPolicy.exists_endsAt state.fetcher.settings.retries.limit
    fun made => SourceError.Passing
      ((state.fetcher.eventRequests context head).answer state.source made)
  rw [requestEvents_eq context head state hends] at h
  obtain ⟨hresult, rfl⟩ := Prod.mk.inj h
  refine ⟨state.fetcher.halved last,
    (state.fetcher.eventRequests context head).stateAfter state.source last, halved_stays _ _, ?_⟩
  rw [lastRequested_halved]
  exact Prod.ext (lastResult_eq_ok hresult) rfl

theorem le_lastRequested {fetcher : Fetcher} {head : Nat} (hpositive : fetcher.batchSize.Positive)
    (hend : fetcher.endBlock.any (· < fetcher.nextBlock) = false)
    (hhead : fetcher.nextBlock ≤ head) :
    fetcher.nextBlock ≤ fetcher.lastRequested head := by
  have hvalue := hpositive.value
  rw [lastRequested]
  cases hlast : fetcher.endBlock with
  | none => simp only [Option.elim_none]; omega
  | some last =>
    rw [hlast] at hend
    simp only [Option.any_some, decide_eq_false_iff_not] at hend
    simp only [Option.elim_some]
    omega

theorem Stays.followsRecorded (h : before.Stays after) (page : EventPage) :
    after.followsRecorded page = before.followsRecorded page := by
  rw [Fetcher.followsRecorded, Fetcher.followsRecorded, h.nextBlock, h.window]

/-- Whether a source gave a page as an answer to a request from where a fetcher stands on. -/
def Answered (context : FetchContext τ) (fetcher : Fetcher) (page : EventPage) : Prop :=
  ∃ toBlock source last, fetcher.nextBlock ≤ toBlock ∧
    context.source.events fetcher.chain fetcher.nextBlock toBlock context.watched source =
      (.ok page, last)

theorem Answered.honest {logs : (chain : ChainId) → ChainLog chain} {fetcher : Fetcher}
    {page : EventPage} (h : Answered context fetcher page) (hhonest : context.source.Honest logs) :
    page.Honest (logs fetcher.chain) context.watched fetcher.nextBlock := by
  obtain ⟨toBlock, source, last, hrange, hanswer⟩ := h
  exact hhonest _ _ _ _ _ _ _ hrange hanswer

/-- Whether a fetcher has moved on by a batch, which it made from a page. -/
structure MovesBy (context : FetchContext τ) (before after : Fetcher) (batch : FetchedBatch)
    (page : EventPage) : Prop where
  chain : after.chain = before.chain
  nextBlock : after.nextBlock = page.lastBlock.number + 1
  skipThrough : after.skipThrough = before.skipThrough.filter (page.lastBlock.number < ·.block)
  window : after.window = before.window.recordAll batch.blocks
  positive : after.batchSize.Positive
  lastBlock : batch.lastBlock = page.lastBlock
  blocks : ∀ block ∈ batch.blocks,
    block = page.firstBlock ∨ block = page.lastBlock ∨ block ∈ page.blocks
  events : batch.events =
    Event.sortByPosition (page.events.filter (wants context before.skipThrough))

theorem moves_of_toBatch (h : before.Stays after) (hpositive : after.batchSize.Positive)
    {head micros events : Nat} {page : EventPage} :
    MovesBy context before
      { (toBatch context after head page).2 with
        batchSize := (toBatch context after head page).2.batchSize.adjust micros events }
      (toBatch context after head page).1 page where
  chain := h.chain
  nextBlock := rfl
  skipThrough := congrArg (Option.filter _) h.skipThrough
  window := congrArg (BlockWindow.recordAll · _) h.window
  positive := hpositive.adjust micros events
  lastBlock := rfl
  blocks := fun _ hmem => mem_blocksToRecord hmem
  events := congrArg (fun skip => Event.sortByPosition (page.events.filter (wants context skip)))
    h.skipThrough

/-- After a batch the record ends at the last block of the page. -/
theorem MovesBy.endsAt {after : Fetcher} {batch : FetchedBatch} {page : EventPage}
    {maxRecorded : Nat} (h : MovesBy context before after batch page)
    (hcapacity : 1 ≤ before.window.capacity)
    (hbelow : ∀ number block, before.window.get? number = some block → number < before.nextBlock)
    (hfirst : page.firstBlock.number = before.nextBlock)
    (hrange : before.nextBlock ≤ page.lastBlock.number)
    (hblocks : batch.blocks = blocksToRecord maxRecorded page batch.events) :
    after.window.EndsAt page.lastBlock.number := by
  rw [h.window, hblocks]
  refine BlockWindow.endsAt_recordAll hcapacity (fun number block hget => ?_)
    (fun block hblock => ?_) (Or.inr (exists_mem_blocksToRecord (Or.inr (Or.inl rfl))))
  · have hlt := hbelow number block hget
    omega
  · rcases mem_blocksToRecord_or hblock with rfl | rfl | ⟨-, -, hle⟩
    · omega
    · exact Nat.le_refl _
    · exact hle

/-- A search for a safe block: where it ends, and what the highest block on record was compared
with. -/
inductive Search (context : FetchContext τ) (state : FetchState τ) :
    List Block → Except FetchError Reorg → FetchState τ → Prop
  | beyond :
      Search context state [] (.error (.reorgBeyondWindow (state.fetcher.window.lowest?.getD 0)))
        state
  | failed {block : Block} {rest : List Block} {error : FetchError} {after : FetchState τ}
      (hstays : state.fetcher.Stays after.fetcher)
      (hblock : request .block (context.source.block state.fetcher.chain block.number) state =
        (.error error, after)) :
      Search context state (block :: rest) (.error error) after
  | found {block current : Block} {rest : List Block} {source : τ} {asked : FetchState τ}
      (hstays : state.fetcher.Stays asked.fetcher)
      (hblock : context.source.block state.fetcher.chain block.number source =
        (.ok current, asked.source))
      (hhash : current.hash = block.hash) :
      Search context state (block :: rest) (.ok ⟨asked.fetcher.chain, current⟩)
        { asked with
          fetcher :=
            { asked.fetcher with
              window := asked.fetcher.window.truncateAbove block.number
              nextBlock := block.number + 1
              head := none } }
  | replaced {block current : Block} {rest : List Block} {source : τ} {asked after : FetchState τ}
      {result : Except FetchError Reorg} (hstays : state.fetcher.Stays asked.fetcher)
      (hblock : context.source.block state.fetcher.chain block.number source =
        (.ok current, asked.source))
      (hhash : current.hash ≠ block.hash)
      (hrest : locateSafeBlock context rest asked = (result, after)) :
      Search context state (block :: rest) result after

theorem search_of_locateSafeBlock {recorded : List Block} {state after : FetchState τ}
    {result : Except FetchError Reorg}
    (h : locateSafeBlock context recorded state = (result, after)) :
    Search context state recorded result after := by
  cases recorded with
  | nil =>
    cases h
    exact .beyond
  | cons block rest =>
    have hstays :=
      request_stays .block (context.source.block state.fetcher.chain block.number) state
    rw [locateSafeBlock] at h
    split at h
    next hblock =>
      cases h
      rw [hblock] at hstays
      exact .failed hstays hblock
    next hblock =>
      rw [hblock] at hstays
      obtain ⟨source, hcall⟩ := request_eq_ok hblock
      split at h
      next hhash =>
        cases h
        exact .found hstays hcall hhash
      next hhash => exact .replaced hstays hcall hhash h

theorem locateSafeBlock_stays_of_error {recorded : List Block} {state after : FetchState τ}
    {error : FetchError} (h : locateSafeBlock context recorded state = (.error error, after)) :
    state.fetcher.Stays after.fetcher := by
  induction recorded generalizing state with
  | nil =>
    cases h
    exact .refl _
  | cons block rest ih =>
    cases search_of_locateSafeBlock h with
    | failed hstays => exact hstays
    | replaced hstays _ _ hrest => exact hstays.trans (ih hrest)

/-- A fork is found at a block on record that the source still has. -/
theorem locateSafeBlock_eq_ok {recorded : List Block} {state after : FetchState τ} {reorg : Reorg}
    (h : locateSafeBlock context recorded state = (.ok reorg, after)) :
    reorg.chain = state.fetcher.chain ∧ ∃ block ∈ recorded, ∃ source last,
      context.source.block state.fetcher.chain block.number source = (.ok reorg.safeBlock, last) ∧
        reorg.safeBlock.hash = block.hash := by
  induction recorded generalizing state with
  | nil => cases h
  | cons block rest ih =>
    cases search_of_locateSafeBlock h with
    | found hstays hblock hhash =>
      exact ⟨hstays.chain, block, List.mem_cons_self, _, _, hblock, hhash⟩
    | replaced hstays _ _ hrest =>
      obtain ⟨hchain, found, hfound, hanswer⟩ := ih hrest
      rw [hstays.chain] at hchain hanswer
      exact ⟨hchain, found, List.mem_cons_of_mem _ hfound, hanswer⟩

theorem answered_of_requestEvents {head : Nat} {asked answered : FetchState τ}
    {page : EventPage} (h : before.Stays asked.fetcher) (hpositive : before.batchSize.Positive)
    (hend : before.endBlock.any (· < before.nextBlock) = false)
    (hhead : asked.fetcher.nextBlock ≤ head)
    (hrequest : requestEvents context head asked = (.ok page, answered)) :
    Answered context before page := by
  obtain ⟨fetcher, source, hasked, hcall⟩ := requestEvents_eq_ok hrequest
  have hstays := h.trans hasked
  refine ⟨fetcher.lastRequested head, source, answered.source, ?_, ?_⟩
  · rw [← hstays.nextBlock]
    refine le_lastRequested (hstays.positive hpositive) ?_ ?_
    · rwa [hstays.nextBlock, hstays.endBlock]
    · rwa [hasked.nextBlock]
  · rwa [← hstays.chain, ← hstays.nextBlock]

/-- A round of fetching: the result, and what was asked and answered on the way to it. -/
inductive Round (context : FetchContext τ) (state : FetchState τ) :
    Except FetchError Fetched → FetchState τ → Prop
  | finished (hend : state.fetcher.endBlock.any (· < state.fetcher.nextBlock) = true) :
      Round context state (.ok .finished) state
  | headFailed {error : FetchError} {after : FetchState τ}
      (hstays : state.fetcher.Stays after.fetcher)
      (hhead : findHead context state = (.error error, after)) :
      Round context state (.error error) after
  | atHead {head : Nat} {after : FetchState τ} (hstays : state.fetcher.Stays after.fetcher)
      (hhead : findHead context state = (.ok head, after))
      (hlt : head < after.fetcher.nextBlock) : Round context state (.ok .atHead) after
  | eventsFailed {head : Nat} {asked after : FetchState τ} {error : FetchError}
      (hstays : state.fetcher.Stays after.fetcher)
      (hpage : requestEvents context head asked = (.error error, after)) :
      Round context state (.error error) after
  | batch {head : Nat} {asked answered : FetchState τ} {page : EventPage}
      (hend : state.fetcher.endBlock.any (· < state.fetcher.nextBlock) = false)
      (hasked : state.fetcher.Stays asked.fetcher)
      (hhead : findHead context state = (.ok head, asked)) (hle : asked.fetcher.nextBlock ≤ head)
      (hstays : state.fetcher.Stays answered.fetcher)
      (hpage : requestEvents context head asked = (.ok page, answered))
      (hfollows : state.fetcher.followsRecorded page = true) :
      Round context state (.ok (.batch (toBatch context answered.fetcher head page).1))
        { answered with
          fetcher :=
            { (toBatch context answered.fetcher head page).2 with
              batchSize := (toBatch context answered.fetcher head page).2.batchSize.adjust
                context.responseMicros page.events.length } }
  | fork {head : Nat} {asked answered after : FetchState τ} {page : EventPage}
      {located : Except FetchError Reorg}
      (hend : state.fetcher.endBlock.any (· < state.fetcher.nextBlock) = false)
      (hasked : state.fetcher.Stays asked.fetcher) (hle : asked.fetcher.nextBlock ≤ head)
      (hstays : state.fetcher.Stays answered.fetcher)
      (hpage : requestEvents context head asked = (.ok page, answered))
      (hfork : state.fetcher.followsRecorded page = false)
      (hlocated : locateSafeBlock context answered.fetcher.window.descending answered =
        (located, after)) :
      Round context state (located.map .reorg) after

theorem round_of_fetchNext {state after : FetchState τ} {result : Except FetchError Fetched}
    (h : fetchNext context state = (result, after)) : Round context state result after := by
  rw [fetchNext] at h
  split at h
  next hend =>
    cases h
    exact .finished hend
  next hopen =>
    have hend := Bool.eq_false_iff.2 hopen
    have hasked : state.fetcher.Stays (findHead context state).2.fetcher := findHead_stays
    split at h
    next hhead =>
      cases h
      rw [hhead] at hasked
      exact .headFailed hasked hhead
    next head asked hhead =>
      rw [hhead] at hasked
      split at h
      next hlt =>
        cases h
        exact .atHead hasked hhead hlt
      next hlt =>
        have hle := Nat.not_lt.1 hlt
        have hstays : state.fetcher.Stays (requestEvents context head asked).2.fetcher :=
          hasked.trans (requestEvents_stays head asked)
        split at h
        next hpage =>
          cases h
          rw [hpage] at hstays
          exact .eventsFailed hstays hpage
        next page answered hpage =>
          rw [hpage] at hstays
          split at h
          next hfollows =>
            cases h
            rw [hstays.followsRecorded] at hfollows
            exact .batch hend hasked hhead hle hstays hpage hfollows
          next hfork =>
            rw [hstays.followsRecorded, Bool.not_eq_true] at hfork
            split at h
            next hlocated =>
              cases h
              exact .fork hend hasked hle hstays hpage hfork hlocated
            next hlocated =>
              cases h
              exact .fork hend hasked hle hstays hpage hfork hlocated

/-- A round of fetching leaves the fetcher at its place or moves it on by a batch that follows on
what is on record, unless the answer of the source does not follow on it. -/
theorem fetchNext_checked {state after : FetchState τ} {result : Except FetchError Fetched}
    (hpositive : state.fetcher.batchSize.Positive) (h : fetchNext context state = (result, after)) :
    match result with
    | .ok (.batch batch) => ∃ page maxRecorded, Answered context state.fetcher page ∧
        MovesBy context state.fetcher after.fetcher batch page ∧
        state.fetcher.followsRecorded page = true ∧
        batch.blocks = blocksToRecord maxRecorded page batch.events
    | .ok (.reorg reorg) => (∃ page, Answered context state.fetcher page ∧
        state.fetcher.followsRecorded page = false) ∧
        reorg.chain = state.fetcher.chain ∧ ∃ block ∈ state.fetcher.window.descending,
          ∃ source last, context.source.block state.fetcher.chain block.number source =
            (.ok reorg.safeBlock, last) ∧ reorg.safeBlock.hash = block.hash
    | .ok .finished => state.fetcher.endBlock.any (· < state.fetcher.nextBlock) = true ∧
        state.fetcher.Stays after.fetcher
    | _ => state.fetcher.Stays after.fetcher := by
  cases round_of_fetchNext h with
  | finished hend => exact ⟨hend, Stays.refl _⟩
  | headFailed hstays => exact hstays
  | atHead hstays => exact hstays
  | eventsFailed hstays => exact hstays
  | batch hend hasked _ hle hstays hpage hfollows =>
    exact ⟨_, _, answered_of_requestEvents hasked hpositive hend hle hpage,
      moves_of_toBatch hstays (hstays.positive hpositive), hfollows, rfl⟩
  | @fork _ _ _ _ page located hend hasked hle hstays hpage hfork hlocated =>
    cases located with
    | error error => exact hstays.trans (locateSafeBlock_stays_of_error hlocated)
    | ok reorg =>
      have hfound := locateSafeBlock_eq_ok hlocated
      rw [hstays.chain, hstays.window] at hfound
      exact ⟨⟨page, answered_of_requestEvents hasked hpositive hend hle hpage, hfork⟩, hfound⟩

/-- A round of fetching leaves the fetcher at its place or moves it on by a batch, unless the answer
of the source does not follow on what is on record. -/
theorem fetchNext_spec {state after : FetchState τ} {result : Except FetchError Fetched}
    (hpositive : state.fetcher.batchSize.Positive) (h : fetchNext context state = (result, after)) :
    match result with
    | .ok (.batch batch) => ∃ page, Answered context state.fetcher page ∧
        MovesBy context state.fetcher after.fetcher batch page
    | .ok (.reorg _) => ∃ page, Answered context state.fetcher page ∧
        state.fetcher.followsRecorded page = false
    | _ => state.fetcher.Stays after.fetcher := by
  have hchecked := fetchNext_checked hpositive h
  cases result with
  | error error => exact hchecked
  | ok fetched =>
    cases fetched with
    | batch batch =>
      obtain ⟨page, _, hanswered, hmoves, -⟩ := hchecked
      exact ⟨page, hanswered, hmoves⟩
    | reorg reorg => exact hchecked.1
    | atHead => exact hchecked
    | finished => exact hchecked.2

end Fetcher

end ChainIndexer
