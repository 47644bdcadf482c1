import ChainIndexer.Indexer
import ChainIndexer.Proofs.Fork.Lane
import ChainIndexer.Proofs.Pipeline.Lasting
import ChainIndexer.Proofs.Release.Quiet

/-!
# Lanes whose fetchers wait at the head

Whether a lane that has nothing on its way blocks others depends on the last batch that it took. A
fetcher that has no further block to ask for has either brought no batch at all, or its last batch
reached the head: otherwise it would still know of a higher block. This holds along every run,
whatever the store and the sources answer.
-/

namespace ChainIndexer

/-- Whether the last batch reached the head once an item is taken, given the same before it. -/
def QueueItem.reach (before : Option Bool) : QueueItem → Option Bool
  | .batch fetched => some fetched.reachedHead
  | .reorg _ => before
  | .finished => before

namespace Lane

variable {lane lane' : Lane} {task task' : FetcherTask} {chain : ChainId}

/-- Whether the last batch of a lane reached the head, if it has taken one. -/
def reached (lane : Lane) : Option Bool := lane.fetchedThrough.map fun _ => lane.isLive

/-- The same once a lane has taken some items. -/
def reaching (lane : Lane) (items : List QueueItem) : Option Bool :=
  items.foldl QueueItem.reach lane.reached

/-- Whether all that a lane has is of its chain, and it has nothing before its first batch. -/
structure Rooted (lane : Lane) (chain : ChainId) : Prop where
  own : ∀ event ∈ lane.pending ++ eventsOf lane.queue.items, event.chain = chain
  unfetched : lane.fetchedThrough = none → lane.pending = [] ∧ lane.isLive = false

/-- Whether a fetcher brings a lane only events of its chain, and knows of a further block unless
its last batch reached the head. -/
structure Awaits (lane : Lane) (task : FetcherTask) (chain : ChainId) : Prop where
  fetcherChain : task.isFetching = true → task.fetcher.chain = chain
  own : ∀ event ∈ eventsOf task.sending, event.chain = chain
  heads : task.isFetching = true → lane.reaching (lane.incoming task) = some false →
    ∃ head, task.fetcher.head = some head ∧ task.fetcher.nextBlock ≤ head.number

/-- Whether lanes differ at most in what they report. -/
structure Alike (lane lane' : Lane) : Prop where
  items : lane'.queue.items = lane.queue.items
  pending : lane'.pending = lane.pending
  fetchedThrough : lane'.fetchedThrough = lane.fetchedThrough
  isLive : lane'.isLive = lane.isLive

theorem reached_absorb (lane : Lane) (item : QueueItem) :
    (lane.absorb item).reached = item.reach lane.reached := by
  cases item <;> rfl

theorem reaching_drainItems (lane : Lane) (items sending : List QueueItem) :
    (lane.drainItems items).reaching ((lane.drainItems items).queue.items ++ sending) =
      lane.reaching (items ++ sending) := by
  refine drainItems_induction (P := fun lane' rest => lane'.reaching (rest ++ sending) =
    lane.reaching (items ++ sending)) rfl (fun _ _ _ hkept => hkept) ?_
  rintro lane' item rest - hreaching
  rw [← hreaching, reaching, reaching, reached_absorb]
  rfl

theorem Alike.progress (lane : Lane) (committed : List Event) :
    lane.Alike (lane.progress committed).2 := by
  obtain ⟨unrecorded, hasNewProgress, -, hlane⟩ := lane.progress_lane committed
  rw [hlane]
  exact ⟨rfl, rfl, rfl, rfl⟩

theorem Alike.rooted (h : lane.Alike lane') (hrooted : lane.Rooted chain) : lane'.Rooted chain := by
  refine ⟨?_, ?_⟩
  · rw [h.pending, h.items]
    exact hrooted.own
  · rw [h.fetchedThrough, h.pending, h.isLive]
    exact hrooted.unfetched

namespace Rooted

theorem start (chain : ChainId) (depth : Nat) : (Lane.start chain depth).Rooted chain :=
  ⟨fun _ hevent => absurd hevent List.not_mem_nil, fun _ => ⟨rfl, rfl⟩⟩

theorem drainItems {items : List QueueItem}
    (hown : ∀ event ∈ lane.pending ++ eventsOf items, event.chain = chain)
    (hunfetched : lane.fetchedThrough = none → lane.pending = [] ∧ lane.isLive = false) :
    (lane.drainItems items).Rooted chain := by
  refine ⟨?_, ?_⟩
  · have hahead := (lane.drainItems_ahead items []).1
    rw [List.append_nil, List.append_nil] at hahead
    rwa [hahead]
  · refine drainItems_induction (P := fun lane' _ => lane'.fetchedThrough = none →
      lane'.pending = [] ∧ lane'.isLive = false) hunfetched (fun _ _ _ hkept => hkept) ?_
    intro lane' item rest _ hbefore
    cases item with
    | batch batch => exact fun hfetched => absurd hfetched (Option.some_ne_none _)
    | reorg reorg => exact hbefore
    | finished => exact hbefore

theorem drain (h : lane.Rooted chain) : lane.drainReady.Rooted chain := drainItems h.own h.unfetched

/-- A lane stays rooted if it keeps only the last of its pending events. -/
theorem suffix (h : lane.Rooted chain) {rest : List Event} (hrest : rest <:+ lane.pending)
    (isClosed : Bool) (reorg : Option Reorg) :
    { lane with pending := rest, isClosed := isClosed, reorg := reorg }.Rooted chain := by
  refine ⟨fun event hevent => h.own event ?_, fun hnone => ?_⟩
  · rcases List.mem_append.1 hevent with hpending | hqueued
    · exact List.mem_append_left _ (hrest.subset hpending)
    · exact List.mem_append_right _ hqueued
  · obtain ⟨hpending, hlive⟩ := h.unfetched hnone
    exact ⟨List.suffix_nil.1 (hpending ▸ hrest), hlive⟩

theorem push (h : lane.Rooted chain) {item : QueueItem}
    (hown : ∀ event ∈ item.events, event.chain = chain) :
    { lane with queue := lane.queue.push item }.Rooted chain := by
  refine ⟨fun event hevent => ?_, h.unfetched⟩
  change event ∈ lane.pending ++ eventsOf (lane.queue.items ++ [item]) at hevent
  rw [eventsOf_append, eventsOf_cons, eventsOf_nil, List.append_nil, ← List.append_assoc] at hevent
  exact (List.mem_append.1 hevent).elim (h.own event) (hown event)

end Rooted

namespace Awaits

/-- A fetcher still brings a lane the same after the lane has changed in ways that do not matter to
it. -/
theorem of_reaching (h : lane.Awaits task chain)
    (hreaching : lane'.reaching (lane'.incoming task) = lane.reaching (lane.incoming task)) :
    lane'.Awaits task chain :=
  ⟨h.fetcherChain, h.own, fun hfetching hreached => h.heads hfetching (hreaching ▸ hreached)⟩

theorem drain (h : lane.Awaits task chain) : lane.drainReady.Awaits task chain :=
  h.of_reaching (lane.reaching_drainItems lane.queue.items task.sending)

theorem alike (h : lane.Awaits task chain) (halike : lane.Alike lane') :
    lane'.Awaits task chain := by
  refine h.of_reaching ?_
  rw [incoming, incoming, reaching, reaching, reached, reached, halike.items, halike.fetchedThrough,
    halike.isLive]

/-- A new fetcher brings a new lane nothing yet. -/
theorem start (chain : Chain) (checkpoint : Checkpoint) (window : BlockWindow)
    (settings : FetchSettings) (generation clock depth : Nat) :
    (Lane.start chain.id depth).Awaits
      (.start (.start chain checkpoint window settings) generation clock) chain.id :=
  ⟨fun _ => rfl, fun _ hevent => absurd hevent List.not_mem_nil, fun _ hreached => nomatch hreached⟩

/-- A fetcher that does not fetch any more waits for no block. -/
theorem of_not_fetching (hfetching : task.isFetching = false)
    (hsending : eventsOf task.sending = []) :
    lane.Awaits task chain := by
  refine ⟨fun h => ?_, fun event hevent => ?_, fun h => ?_⟩
  · rw [hfetching] at h
    cases h
  · rw [hsending] at hevent
    exact absurd hevent List.not_mem_nil
  · rw [hfetching] at h
    cases h

/-- A fetcher that stays where it is brings the same. -/
theorem of_task (h : lane.Awaits task chain) (hfetcher : task'.fetcher = task.fetcher)
    (hsending : task'.sending = task.sending) (hfetching : task'.isFetching = task.isFetching) :
    lane.Awaits task' chain := by
  refine ⟨?_, ?_, ?_⟩
  · rw [hfetcher, hfetching]
    exact h.fetcherChain
  · rw [hsending]
    exact h.own
  · rw [incoming, hsending, hfetcher, hfetching]
    exact h.heads

/-- An item that a fetcher puts into the queue is on its way as before. -/
theorem push (h : lane.Awaits task chain) {item : QueueItem} (hphase : task.phase = .send item)
    (clock : Nat) :
    { lane with queue := lane.queue.push item }.Awaits
      (task.goOn (FetcherTask.phaseAfter item) clock) chain := by
  cases item with
  | reorg reorg => exact of_not_fetching rfl rfl
  | finished => exact of_not_fetching rfl rfl
  | batch batch =>
    have hfetching : task.isFetching = true := by
      rw [FetcherTask.isFetching, hphase]
    refine ⟨fun _ => h.fetcherChain hfetching, fun event hevent => absurd hevent List.not_mem_nil,
      fun _ hreached => h.heads hfetching ?_⟩
    rw [lane.incoming_push hphase clock] at hreached
    exact hreached

end Awaits

end Lane

/-! ### Rounds of fetching -/

/-- Whether a source answers with events of the chain that it is asked for. -/
def ChainSource.AnswersOwn {τ : Type} (source : ChainSource τ) : Prop :=
  ∀ chain fromBlock toBlock watched before page after,
    source.events chain fromBlock toBlock watched before = (.ok page, after) →
      ∀ event ∈ page.events, event.chain = chain

namespace Fetcher

variable {τ : Type} {context : FetchContext τ} {state after : FetchState τ}

/-- A head is asked for only if no further block is known. -/
theorem findHead_eq_ok {number : Nat} (h : findHead context state = (.ok number, after)) :
    (∃ head, after.fetcher.head = some head ∧ head.number = number) ∧
      (number < state.fetcher.nextBlock →
        ∀ head, state.fetcher.head = some head → head.number < state.fetcher.nextBlock) := by
  rw [findHead] at h
  split at h
  next head hknown =>
    obtain ⟨hhead, hnext⟩ := Option.filter_eq_some_iff.1 hknown
    cases h
    exact ⟨⟨head, hhead, rfl⟩, fun hlt => absurd (of_decide_eq_true hnext) (Nat.not_le.2 hlt)⟩
  next hunknown =>
    split at h
    next => cases h
    next head asked _ =>
      cases h
      refine ⟨⟨head, rfl, rfl⟩, fun _ known hknown => ?_⟩
      have hbelow := Option.filter_eq_none_iff.1 hunknown known hknown
      rw [decide_eq_true_eq] at hbelow
      exact Nat.not_le.1 hbelow

theorem requestEvents_head (head : Nat) (state : FetchState τ) :
    (requestEvents context head state).2.fetcher.head = state.fetcher.head := by
  obtain ⟨halvings, hhalved⟩ := requestEvents_fetcher context head state
  rw [hhalved]
  rfl

/-- A batch was made with the head that its fetcher knows of; at the head no further block is
known. -/
theorem fetchNext_reach {result : Except FetchError Fetched}
    (h : fetchNext context state = (result, after)) :
    match result with
    | .ok (.batch batch) => after.fetcher.chain = state.fetcher.chain ∧
        after.fetcher.nextBlock = batch.lastBlock.number + 1 ∧
        (∃ head, after.fetcher.head = some head ∧ head.number = batch.head) ∧
        (context.source.AnswersOwn → ∀ event ∈ batch.events, event.chain = state.fetcher.chain)
    | .ok .atHead => after.fetcher.chain = state.fetcher.chain ∧
        ∀ head, state.fetcher.head = some head → head.number < state.fetcher.nextBlock
    | _ => True := by
  cases round_of_fetchNext h with
  | finished => trivial
  | headFailed => trivial
  | atHead hstays hhead hlt =>
    exact ⟨hstays.chain, (findHead_eq_ok hhead).2 (hstays.nextBlock ▸ hlt)⟩
  | eventsFailed => trivial
  | @batch head asked answered page _ hasked hhead _ hstays hpage =>
    obtain ⟨known, hknown, hnumber⟩ := (findHead_eq_ok hhead).1
    have hkept : answered.fetcher.head = asked.fetcher.head :=
      (congrArg (·.2.fetcher.head) hpage).symm.trans (requestEvents_head head asked)
    refine ⟨hstays.chain, rfl, ⟨known, hkept.trans hknown, hnumber⟩, fun hown event hevent => ?_⟩
    obtain ⟨fetcher, source, hfetcher, hcall⟩ := requestEvents_eq_ok hpage
    have hmem : event ∈ page.events :=
      List.mem_of_mem_filter (Event.mem_sortByPosition.1 hevent)
    rw [hown _ _ _ _ _ _ _ hcall event hmem, hfetcher.chain, hasked.chain]
  | @fork _ _ _ _ _ located =>
    cases located with
    | error error => trivial
    | ok reorg => trivial

end Fetcher

/-- A round of fetching leaves a lane with a fetcher that knows of a further block, unless the last
batch reached the head. -/
theorem Lane.Awaits.afterRound {τ : Type} {context : FetchContext τ} {lane : Lane}
    {task : FetcherTask} {chain : ChainId} (h : lane.Awaits task chain)
    (hown : context.source.AnswersOwn) (hidle : task.sending = [])
    (hfetching : task.isFetching = true) {source : τ} {state : FetchState τ}
    {result : Except FetchError Fetched}
    (hround : Fetcher.fetchNext context ⟨task.fetcher, source, 0⟩ = (result, state)) (clock : Nat) :
    lane.Awaits ({ task with fetcher := state.fetcher }.afterRound clock result) chain := by
  cases result with
  | error error => exact .of_not_fetching rfl rfl
  | ok fetched =>
    have hreach := Fetcher.fetchNext_reach hround
    cases fetched with
    | reorg reorg => exact .of_not_fetching rfl rfl
    | finished => exact .of_not_fetching rfl rfl
    | batch batch =>
      obtain ⟨hchain, hnext, ⟨head, hhead, hnumber⟩, hevents⟩ := hreach
      refine ⟨fun _ => hchain.trans (h.fetcherChain hfetching), fun event hevent => ?_,
        fun _ hreached => ⟨head, hhead, ?_⟩⟩
      · rw [← h.fetcherChain hfetching]
        refine hevents hown event ?_
        rwa [← List.append_nil batch.events]
      · -- The batch is the last item on the way, and it did not reach the head.
        have hlast : batch.reachedHead = false := by
          rw [incoming, reaching, List.foldl_append] at hreached
          exact Option.some.inj hreached
        rw [FetchedBatch.reachedHead, decide_eq_false_iff_not] at hlast
        change state.fetcher.nextBlock ≤ head.number
        omega
    | atHead =>
      obtain ⟨hchain, hunknown⟩ := hreach
      have hincoming : lane.incoming ({ task with fetcher := state.fetcher }.afterRound clock
          (.ok .atHead)) = lane.incoming task := by
        rw [incoming, incoming, hidle]
        rfl
      refine ⟨fun _ => hchain.trans (h.fetcherChain hfetching),
        fun event hevent => absurd hevent List.not_mem_nil, fun _ hreached => ?_⟩
      rw [hincoming] at hreached
      obtain ⟨head, hhead, hle⟩ := h.heads hfetching hreached
      exact absurd (hunknown head hhead) (Nat.not_lt.2 hle)

/-! ### All lanes with their fetchers -/

/-- Whether ordered lanes have only what is theirs, and their fetchers know of a further block
unless the last batch reached the head. -/
structure Attends (orderer : Orderer) (tasks : Table ChainId FetcherTask) : Prop where
  mode : orderer.mode = .ordered
  room : 1 ≤ orderer.maxEventsPerUnit
  rooted : ∀ chain lane, orderer.lanes.get? chain = some lane → lane.Rooted chain
  awaits : ∀ chain lane task, orderer.lanes.get? chain = some lane →
    tasks.get? chain = some task → lane.Awaits task chain

namespace Attends

variable {orderer after : Orderer} {tasks : Table ChainId FetcherTask} {chain : ChainId}
  {events : List Event}

/-- A change of single lanes that keeps each of them rooted, and what it awaits. -/
theorem of_lanes (h : Attends orderer tasks) (hmode : after.mode = .ordered)
    (hroom : 1 ≤ after.maxEventsPerUnit)
    (hlanes : ∀ chain lane', after.lanes.get? chain = some lane' →
      ∃ lane, orderer.lanes.get? chain = some lane ∧ (lane.Rooted chain → lane'.Rooted chain) ∧
        ∀ task, lane.Awaits task chain → lane'.Awaits task chain) :
    Attends after tasks := by
  refine ⟨hmode, hroom, fun chain lane' hget => ?_, fun chain lane' task hget htask => ?_⟩
  · obtain ⟨lane, hbefore, hrooted, -⟩ := hlanes chain lane' hget
    exact hrooted (h.rooted chain lane hbefore)
  · obtain ⟨lane, hbefore, -, hawaits⟩ := hlanes chain lane' hget
    exact hawaits task (h.awaits chain lane task hbefore htask)

theorem own (h : Attends orderer tasks) : orderer.Own := fun chain lane hget event hevent =>
  (h.rooted chain lane hget).own event (List.mem_append_left _ hevent)

theorem drain (h : Attends orderer tasks) : Attends orderer.drain tasks := by
  refine h.of_lanes h.mode h.room fun chain lane' hget => ?_
  rw [Orderer.get?_drain] at hget
  obtain ⟨lane, hbefore, rfl⟩ := Option.map_eq_some_iff.1 hget
  exact ⟨lane, hbefore, fun hrooted => hrooted.drain, fun task hawaits => hawaits.drain⟩

theorem thins (h : Attends orderer tasks) (hthins : orderer.Thins after) : Attends after tasks := by
  refine h.of_lanes (hthins.mode.trans h.mode) (hthins.room ▸ h.room) fun chain lane' hget => ?_
  obtain ⟨lane, rest, hbefore, hrest, isClosed, reorg, rfl⟩ := hthins.lanes chain lane' hget
  exact ⟨lane, hbefore, fun hrooted => hrooted.suffix hrest isClosed reorg,
    fun task hawaits => hawaits.of_reaching rfl⟩

theorem nextStep (h : Attends orderer tasks) : Attends orderer.nextStep.2 tasks := by
  rcases Orderer.nextStep_eq h.mode with
    ⟨chain, _, _, -, -, hnext⟩ | ⟨failures, rest, -, hnext⟩ | hnext
  · rw [hnext]
    exact h.drain.thins (Orderer.thins_takeReorg chain)
  · rw [hnext]
    exact h.drain.of_lanes h.mode h.room fun _ lane hget => ⟨lane, hget, id, fun _ => id⟩
  · rw [hnext]
    exact h.drain.thins (Orderer.thins_takeOrdered h.drain.own _)

theorem progress (h : Attends orderer tasks) (committed : List Event) :
    Attends (orderer.progress committed).2.2 tasks := by
  refine h.of_lanes h.mode h.room fun chain lane' hget => ?_
  rw [Orderer.get?_progress] at hget
  obtain ⟨lane, hbefore, rfl⟩ := Option.map_eq_some_iff.1 hget
  have halike := Lane.Alike.progress lane (committed.filter (·.chain = chain))
  exact ⟨lane, hbefore, halike.rooted, fun task hawaits => hawaits.alike halike⟩

/-- What is given back was taken from the front. -/
theorem restore (h : Attends orderer tasks) (hafter : Attends after tasks)
    (hgives : orderer.Gives after events) (count : Nat) :
    Attends (after.restore (events.drop count)) tasks := by
  refine h.of_lanes hafter.mode hafter.room fun chain lane' hget => ?_
  rw [Orderer.get?_restore] at hget
  obtain ⟨given, hgiven, rfl⟩ := Option.map_eq_some_iff.1 hget
  have hchain := hgives chain
  rw [hgiven] at hchain
  generalize hbefore : orderer.lanes.get? chain = found at hchain
  cases hchain with
  | @lane lane rest hpending =>
    have hsuffix : (events.drop count).filter (·.chain = chain) ++ rest <:+ lane.pending := by
      have hsplit := (List.take_append_drop count events).symm
      rw [hpending]
      conv_rhs => rw [hsplit, List.filter_append, List.append_assoc]
      exact List.suffix_append _ _
    exact ⟨lane, rfl, fun hrooted => hrooted.suffix hsuffix lane.isClosed lane.reorg,
      fun task hawaits => hawaits.of_reaching rfl⟩

/-- A new lane with a new fetcher brings nothing yet. -/
theorem spawn (h : Attends orderer tasks) (chain : Chain) (checkpoint : Checkpoint)
    (window : BlockWindow) (settings : FetchSettings) (generation clock depth : Nat) :
    Attends (orderer.addLane (.start chain.id depth))
      (tasks.insert chain.id
        (.start (.start chain checkpoint window settings) generation clock)) := by
  refine ⟨h.mode, h.room, fun id lane hget => ?_, fun id lane task hget htask => ?_⟩
  · rw [Orderer.addLane, Table.get?_insert] at hget
    split at hget
    next hid =>
      cases hget
      exact hid ▸ .start chain.id depth
    next => exact h.rooted id lane hget
  · rw [Orderer.addLane, Table.get?_insert] at hget
    rw [Table.get?_insert] at htask
    split at hget
    next hid =>
      change id = chain.id at hid
      cases hget
      rw [if_pos hid] at htask
      cases htask
      exact hid ▸ .start chain checkpoint window settings generation clock depth
    next hid =>
      change ¬ id = chain.id at hid
      rw [if_neg hid] at htask
      exact h.awaits id lane task hget htask

theorem erase (h : Attends orderer tasks) (chain : ChainId) :
    Attends orderer (tasks.erase chain) := by
  refine ⟨h.mode, h.room, h.rooted, fun id lane task hget htask => ?_⟩
  rw [Table.get?_erase] at htask
  split at htask
  next => cases htask
  next => exact h.awaits id lane task hget htask

theorem removeLane (h : Attends orderer tasks) (chain : ChainId) :
    Attends (orderer.removeLane chain) tasks := by
  refine h.of_lanes h.mode h.room fun other lane hget => ?_
  rw [Orderer.removeLane, Table.get?_erase] at hget
  split at hget
  next => cases hget
  next => exact ⟨lane, hget, id, fun _ => id⟩

/-- A change at one chain, of its lane and its fetcher. -/
theorem changeAt (h : Attends orderer tasks) {task task' : FetcherTask} {f : Lane → Lane}
    (htask : tasks.get? chain = some task)
    (hf : ∀ lane, lane.Rooted chain → lane.Awaits task chain →
      (f lane).Rooted chain ∧ (f lane).Awaits task' chain) :
    Attends (orderer.changeLane chain f) (tasks.insert chain task') := by
  have hkept : ∀ lane, orderer.lanes.get? chain = some lane →
      (f lane).Rooted chain ∧ (f lane).Awaits task' chain := fun lane hget =>
    hf lane (h.rooted chain lane hget) (h.awaits chain lane task hget htask)
  refine ⟨h.mode, h.room, fun id lane hget => ?_, fun id lane other hget hother => ?_⟩
  · rw [Orderer.changeLane, Table.get?_modify] at hget
    split at hget
    next hid =>
      obtain ⟨before, hbefore, rfl⟩ := Option.map_eq_some_iff.1 hget
      exact hid ▸ (hkept before hbefore).1
    next => exact h.rooted id lane hget
  · rw [Orderer.changeLane, Table.get?_modify] at hget
    rw [Table.get?_insert] at hother
    split at hget
    next hid =>
      obtain ⟨before, hbefore, rfl⟩ := Option.map_eq_some_iff.1 hget
      rw [if_pos hid] at hother
      cases hother
      exact hid ▸ (hkept before hbefore).2
    next hid =>
      rw [if_neg hid] at hother
      exact h.awaits id lane other hget hother

/-- What attends to the head lasts in a pipeline. -/
theorem lasting {σ : Type} (context : PipelineContext σ) : Pipeline.Lasting context Attends where
  next := nextStep
  report := fun {orderer after tasks events} h hstep applied => by
    have hafter := h.nextStep
    have hcases := (Orderer.nextStep_cases h.drain.own hstep).2.1
    rw [hstep] at hafter
    exact (h.drain.restore hafter hcases applied).progress _
  hear := fun _ h => h.of_lanes h.mode h.room fun _ lane hget =>
    ⟨lane, hget, fun h => h, fun _ h => h⟩
  abort := fun chain h => h.erase chain
  remove := fun chain h => h.removeLane chain
  spawn := fun chain checkpoint window generation h =>
    h.spawn chain checkpoint window _ generation _ _

end Attends

end ChainIndexer
