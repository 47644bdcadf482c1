import ChainIndexer.Proofs.Fork.Versions
import ChainIndexer.Proofs.Lane
import ChainIndexer.Proofs.Release.Stream

/-!
# Lanes of a chain that may be forked

What is on its way along a lane comes in stretches of blocks, each behind the one before. The block
before each stretch and before each event is known, so it shows whether the next stretch is of the
same version of the chain.
-/

namespace ChainIndexer

/-- The blocks to remember of an item. -/
def QueueItem.blocks : QueueItem → List Block
  | batch fetched => fetched.blocks
  | reorg _ => []
  | finished => []

def blocksOf (items : List QueueItem) : List Block := items.flatMap (·.blocks)

@[simp]
theorem blocksOf_nil : blocksOf [] = [] := rfl

@[simp]
theorem blocksOf_cons (item : QueueItem) (rest : List QueueItem) :
    blocksOf (item :: rest) = item.blocks ++ blocksOf rest := rfl

@[simp]
theorem blocksOf_append (first second : List QueueItem) :
    blocksOf (first ++ second) = blocksOf first ++ blocksOf second := List.flatMap_append

/-- The first block that may still have something to commit after a processed one. -/
def openAfter (processed : Option Nat) : Nat := processed.elim 0 (· + 1)

theorem openAfter_max (a b : Option Nat) :
    openAfter (max a b) = max (openAfter a) (openAfter b) := by
  cases a with
  | none => cases b <;> simp [openAfter]
  | some a =>
    cases b with
    | none => simp [openAfter]
    | some b => exact Nat.add_max_add_right a b 1 |>.symm

theorem openAfter_min (a b : Option Nat) :
    openAfter (min a b) = min (openAfter a) (openAfter b) := by
  cases a with
  | none => cases b <;> simp [openAfter]
  | some a =>
    cases b with
    | none => simp [openAfter]
    | some b => exact Nat.add_min_add_right a b 1 |>.symm

theorem openAfter_checkedSub (number : Nat) : openAfter (Word.checkedSub number 1) = number := by
  rw [Word.checkedSub]
  split
  next hpos => exact Nat.sub_add_cancel hpos
  next hzero =>
    rw [openAfter, Option.elim_none]
    omega

theorem lt_openAfter_iff {processed : Option Nat} {number : Nat} :
    processed.any (number ≤ ·) = true ↔ number < openAfter processed := by
  cases processed with
  | none => simp [openAfter]
  | some processed => exact decide_eq_true_iff.trans Nat.lt_succ_iff.symm

/-- Whether the block before a number is known, or the number is where indexing started. -/
def Grounded (start : Nat) (known : List Block) (number : Nat) : Prop :=
  number ≤ start ∨ ∃ block ∈ known, block.number + 1 = number

theorem Grounded.mono {start number : Nat} {known known' : List Block}
    (h : Grounded start known number) (hknown : known ⊆ known') : Grounded start known' number :=
  h.imp_right fun ⟨block, hblock, hnumber⟩ => ⟨block, hknown hblock, hnumber⟩

/-- Whether a batch covers the blocks from one on, through its last one. -/
structure FetchedBatch.Spans (batch : FetchedBatch) (first : Nat) : Prop where
  le : first ≤ batch.lastBlock.number
  sorted : batch.events.Pairwise fun a b => a.block ≤ b.block
  events : ∀ event ∈ batch.events, first ≤ event.block ∧ event.block ≤ batch.lastBlock.number
  blocks : ∀ block ∈ batch.blocks, first ≤ block.number ∧ block.number ≤ batch.lastBlock.number
  distinct : (batch.blocks.map (·.number)).Nodup
  last : ∃ block ∈ batch.blocks, block.number = batch.lastBlock.number

/-- Whether items cover the blocks from one on, up to another, batch by batch. -/
def Ascends : (first : Nat) → List QueueItem → (stop : Nat) → Prop
  | first, [], stop => first = stop
  | first, .batch batch :: rest, stop =>
    batch.Spans first ∧ Ascends (batch.lastBlock.number + 1) rest stop
  | first, .reorg _ :: rest, stop => Ascends first rest stop
  | first, .finished :: rest, stop => Ascends first rest stop

namespace Ascends

variable {first stop : Nat} {items : List QueueItem}

theorem le (h : Ascends first items stop) : first ≤ stop := by
  induction items generalizing first with
  | nil => exact Nat.le_of_eq h
  | cons item rest ih =>
    cases item with
    | batch batch =>
      have hspan := h.1.le
      have hrest := ih h.2
      omega
    | reorg reorg => exact ih h
    | finished => exact ih h

theorem append {last : Nat} {later : List QueueItem} (h : Ascends first items stop)
    (hlater : Ascends stop later last) : Ascends first (items ++ later) last := by
  induction items generalizing first with
  | nil =>
    obtain rfl : first = stop := h
    exact hlater
  | cons item rest ih =>
    cases item with
    | batch batch => exact ⟨h.1, ih h.2⟩
    | reorg reorg => exact ih h
    | finished => exact ih h

theorem events (h : Ascends first items stop) :
    ∀ event ∈ eventsOf items, first ≤ event.block ∧ event.block < stop := by
  induction items generalizing first with
  | nil => exact fun event hevent => absurd hevent List.not_mem_nil
  | cons item rest ih =>
    intro event hevent
    rcases List.mem_append.1 (eventsOf_cons item rest ▸ hevent) with hitem | hrest
    · cases item with
      | batch batch =>
        have hspan := h.1.events event hitem
        have hrest := h.2.le
        omega
      | reorg reorg => exact absurd hitem List.not_mem_nil
      | finished => exact absurd hitem List.not_mem_nil
    · cases item with
      | batch batch =>
        have hspan := h.1.le
        have hlater := ih h.2 event hrest
        omega
      | reorg reorg => exact ih h event hrest
      | finished => exact ih h event hrest

theorem blocks (h : Ascends first items stop) :
    ∀ block ∈ blocksOf items, first ≤ block.number ∧ block.number < stop := by
  induction items generalizing first with
  | nil => exact fun block hblock => absurd hblock List.not_mem_nil
  | cons item rest ih =>
    intro block hblock
    rcases List.mem_append.1 (blocksOf_cons item rest ▸ hblock) with hitem | hrest
    · cases item with
      | batch batch =>
        have hspan := h.1.blocks block hitem
        have hrest := h.2.le
        omega
      | reorg reorg => exact absurd hitem List.not_mem_nil
      | finished => exact absurd hitem List.not_mem_nil
    · cases item with
      | batch batch =>
        have hspan := h.1.le
        have hlater := ih h.2 block hrest
        omega
      | reorg reorg => exact ih h block hrest
      | finished => exact ih h block hrest

end Ascends

namespace Lane

variable {lane : Lane} {taken rest : List Event} {next first stop : Nat} {task : FetcherTask}

/-- The items that are still to be taken into a lane. -/
def incoming (lane : Lane) (task : FetcherTask) : List QueueItem :=
  lane.queue.items ++ task.sending

/-- All events on their way along a lane. -/
def ahead (lane : Lane) (task : FetcherTask) : List Event :=
  lane.pending ++ eventsOf (lane.incoming task)

/-- All blocks on their way along a lane. -/
def aheadBlocks (lane : Lane) (task : FetcherTask) : List Block :=
  lane.unrecorded ++ blocksOf (lane.incoming task)

/-- Whether a lane or an item on its way to it tells of a reorg. -/
def Announces (lane : Lane) (items : List QueueItem) (reorg : Reorg) : Prop :=
  lane.reorg = some reorg ∨ .reorg reorg ∈ items

/-- Whether a lane, with some events that were taken from it, has the blocks from one on, up to
another. -/
structure Leads (lane : Lane) (taken : List Event) (next first : Nat) : Prop where
  le : next ≤ first
  sorted : (taken ++ lane.pending).Pairwise fun a b => a.block ≤ b.block
  events : ∀ event ∈ taken ++ lane.pending, next ≤ event.block ∧ event.block < first
  blocks : ∀ block ∈ lane.unrecorded, next ≤ block.number ∧ block.number < first
  distinct : (lane.unrecorded.map (·.number)).Nodup
  fetched : ∀ block, lane.fetchedThrough = some block → first = block.number + 1
  unfetched : lane.fetchedThrough = none → taken ++ lane.pending = []

theorem drainItems_ahead (lane : Lane) (items sending : List QueueItem) :
    (lane.drainItems items).pending ++ eventsOf ((lane.drainItems items).queue.items ++ sending) =
        lane.pending ++ eventsOf (items ++ sending) ∧
      (lane.drainItems items).unrecorded ++
          blocksOf ((lane.drainItems items).queue.items ++ sending) =
        lane.unrecorded ++ blocksOf (items ++ sending) := by
  refine drainItems_induction (P := fun lane' rest =>
    lane'.pending ++ eventsOf (rest ++ sending) = lane.pending ++ eventsOf (items ++ sending) ∧
      lane'.unrecorded ++ blocksOf (rest ++ sending) =
        lane.unrecorded ++ blocksOf (items ++ sending)) ⟨rfl, rfl⟩ (fun _ _ _ hkept => hkept) ?_
  rintro lane' item rest - ⟨hevents, hblocks⟩
  rw [← hevents, ← hblocks, absorb_pending, List.append_assoc]
  refine ⟨rfl, ?_⟩
  cases item with
  | batch batch => exact List.append_assoc ..
  | reorg reorg => rfl
  | finished => rfl

theorem announces_of_drainItems {items sending : List QueueItem} {reorg : Reorg}
    (h : (lane.drainItems items).Announces ((lane.drainItems items).queue.items ++ sending) reorg) :
    lane.Announces (items ++ sending) reorg := by
  refine drainItems_induction (P := fun lane' rest => lane'.Announces (rest ++ sending) reorg →
    lane.Announces (items ++ sending) reorg) id (fun _ _ _ hkept => hkept) ?_ h
  intro lane' item rest _ hbefore hannounced
  refine hbefore ?_
  rcases hannounced with hlane | hmem
  · cases item with
    | batch batch => exact Or.inl hlane
    | reorg noticed =>
      cases hlane
      exact Or.inr List.mem_cons_self
    | finished => exact Or.inl hlane
  · exact Or.inr (List.mem_cons_of_mem _ hmem)

/-- The batch that an empty lane takes leads on from the ones before. -/
theorem Leads.absorb (h : lane.Leads [] next first) (hpending : lane.pending = [])
    {batch : FetchedBatch} (hspan : batch.Spans first) :
    (lane.absorb (.batch batch)).Leads [] next (batch.lastBlock.number + 1) := by
  have hle := h.le
  have hlast := hspan.le
  refine ⟨by omega, ?_, fun event hevent => ?_, fun block hblock => ?_, ?_, ?_,
    fun hfetched => absurd hfetched (Option.some_ne_none _)⟩
  · rw [absorb_pending, hpending]
    exact hspan.sorted
  · rw [absorb_pending, hpending] at hevent
    have hrange := hspan.events event hevent
    omega
  · rcases List.mem_append.1 hblock with hold | hnew
    · have hrange := h.blocks block hold
      omega
    · have hrange := hspan.blocks block hnew
      omega
  · change ((lane.unrecorded ++ batch.blocks).map (·.number)).Nodup
    rw [List.map_append]
    refine h.distinct.append hspan.distinct fun number hold hnew => ?_
    obtain ⟨old, hmem, rfl⟩ := List.mem_map.1 hold
    obtain ⟨new, hmem', hsame⟩ := List.mem_map.1 hnew
    have hbelow := h.blocks old hmem
    have habove := hspan.blocks new hmem'
    omega
  · rintro block ⟨⟩
    rfl

theorem Leads.drainItems (h : lane.Leads [] next first) {items sending : List QueueItem}
    (hitems : Ascends first (items ++ sending) stop) {start : Nat} {known : List Block}
    (hground : Grounded start known first) (hknown : blocksOf (items ++ sending) ⊆ known) :
    ∃ first', (lane.drainItems items).Leads [] next first' ∧
      Ascends first' ((lane.drainItems items).queue.items ++ sending) stop ∧
      Grounded start known first' := by
  have hdrained := drainItems_induction (P := fun lane' rest => ∃ first',
    lane'.Leads [] next first' ∧ Ascends first' (rest ++ sending) stop ∧
      Grounded start known first' ∧ blocksOf (rest ++ sending) ⊆ known)
    ⟨first, h, hitems, hground, hknown⟩ ?_ ?_
  · obtain ⟨first', hleads, hascends, hgrounded, -⟩ := hdrained
    exact ⟨first', hleads, hascends, hgrounded⟩
  · rintro lane' rest isClosed ⟨first', hleads, hkept⟩
    exact ⟨first', ⟨hleads.le, hleads.sorted, hleads.events, hleads.blocks, hleads.distinct,
      hleads.fetched, hleads.unfetched⟩, hkept⟩
  · rintro lane' item rest hnone ⟨first', hleads, hascends, hgrounded, hknown⟩
    have hothers : blocksOf (rest ++ sending) ⊆ known := fun block hblock =>
      hknown (List.mem_append_right _ hblock)
    cases item with
    | batch batch =>
      obtain ⟨hspan, hlater⟩ := hascends
      obtain ⟨block, hblock, hnumber⟩ := hspan.last
      have hfound : block ∈ known := hknown (List.mem_append_left _ hblock)
      exact ⟨_, hleads.absorb hnone hspan, hlater,
        Or.inr ⟨block, hfound, congrArg (· + 1) hnumber⟩, hothers⟩
    | reorg reorg =>
      exact ⟨first', ⟨hleads.le, hleads.sorted, hleads.events, hleads.blocks, hleads.distinct,
        hleads.fetched, hleads.unfetched⟩, hascends, hgrounded, hothers⟩
    | finished =>
      exact ⟨first', ⟨hleads.le, hleads.sorted, hleads.events, hleads.blocks, hleads.distinct,
        hleads.fetched, hleads.unfetched⟩, hascends, hgrounded, hothers⟩

theorem openAfter_of_pending {event : Event} {others : List Event}
    (h : lane.pending = event :: others) : openAfter lane.processed = event.block := by
  rw [processed, h]
  exact openAfter_checkedSub event.block

theorem openAfter_of_idle (h : lane.pending = []) :
    openAfter lane.processed = openAfter (lane.fetchedThrough.map (·.number)) := by
  rw [processed, h]
  rfl

/-- What a lane has processed lies between the events that were taken from it and the pending
ones. -/
theorem Leads.openAfter_processed (h : lane.Leads taken next first) :
    (∀ event ∈ taken, event.block ≤ max next (openAfter lane.processed)) ∧
      (∀ event ∈ lane.pending, max next (openAfter lane.processed) ≤ event.block) ∧
      max next (openAfter lane.processed) ≤ first := by
  have hle := h.le
  cases hpending : lane.pending with
  | nil =>
    rw [openAfter_of_idle hpending]
    cases hfetched : lane.fetchedThrough with
    | none =>
      have hnone := (List.append_eq_nil_iff.1 (h.unfetched hfetched)).1
      rw [hnone]
      refine ⟨fun event hevent => absurd hevent List.not_mem_nil,
        fun event hevent => absurd hevent List.not_mem_nil, ?_⟩
      rw [Option.map_none, openAfter, Option.elim_none]
      omega
    | some block =>
      have hopen : openAfter ((some block).map (·.number)) = first :=
        (h.fetched block hfetched).symm
      rw [hopen]
      refine ⟨fun event hevent => ?_, fun event hevent => absurd hevent List.not_mem_nil, by omega⟩
      have hrange := h.events event (List.mem_append_left _ hevent)
      omega
  | cons head others =>
    rw [openAfter_of_pending hpending]
    have hsorted := h.sorted
    rw [hpending] at hsorted
    obtain ⟨-, hothers, htaken⟩ := List.pairwise_append.1 hsorted
    have hhead := h.events head (List.mem_append_right _ (hpending ▸ List.mem_cons_self))
    refine ⟨fun event hevent => ?_, fun event hevent => ?_, by omega⟩
    · have hbefore := htaken event hevent head List.mem_cons_self
      omega
    · rcases List.mem_cons.1 hevent with rfl | hlater
      · omega
      · have hbehind := (List.pairwise_cons.1 hothers).1 event hlater
        omega

end Lane

/-! ### Lanes with their fetchers -/

/-- Whether a fetcher is to fetch another stretch of blocks. -/
def FetcherTask.isFetching (task : FetcherTask) : Bool :=
  match task.phase with
  | .fetch | .take | .send (.batch _) => true
  | .send (.reorg _) | .send .finished | .ended => false

theorem FetcherTask.isFetching_of_round {task : FetcherTask}
    (h : task.phase = .fetch ∨ task.phase = .take) : task.isFetching = true := by
  rcases h with h | h <;> rw [isFetching, h]

/-- A fetcher goes on after an item exactly if it did so before. -/
theorem FetcherTask.isFetching_phaseAfter {task : FetcherTask} {item : QueueItem}
    (h : task.phase = .send item) (clock : Nat) :
    (task.goOn (phaseAfter item) clock).isFetching = task.isFetching := by
  rw [isFetching, isFetching, h]
  cases item <;> rfl

theorem Lane.incoming_of_idle (lane : Lane) {task : FetcherTask} (h : task.sending = []) :
    lane.incoming task = lane.queue.items := by
  rw [incoming, h, List.append_nil]

/-- An item that a fetcher puts into the queue is on its way as before. -/
theorem Lane.incoming_push (lane : Lane) {task : FetcherTask} {item : QueueItem}
    (h : task.phase = .send item) (clock : Nat) :
    incoming { lane with queue := lane.queue.push item }
      (task.goOn (FetcherTask.phaseAfter item) clock) = lane.incoming task := by
  rw [incoming_of_idle _ (task.sending_phaseAfter item clock), incoming,
    FetcherTask.sending_of_send h]
  rfl

/-- What a lane takes comes before all that is on its way afterwards. -/
theorem Lane.incoming_absorb {lane : Lane} (task : FetcherTask) {item : QueueItem}
    {rest : List QueueItem} (h : lane.queue.items = item :: rest) :
    lane.incoming task =
      item :: incoming ({ lane with queue := { lane.queue with items := rest } }.absorb item)
        task := by
  rw [incoming, h]
  cases item <;> rfl

/-- Whether a fetcher of a chain remembers the block before the next one, and only known blocks. -/
structure Fetcher.Remembers (fetcher : Fetcher) (chain : Chain) (known : List Block) (stop : Nat) :
    Prop where
  fetcherChain : fetcher.chain = chain.id
  positive : fetcher.batchSize.Positive
  nextBlock : fetcher.nextBlock = stop
  capacity : 1 ≤ fetcher.window.capacity
  within : fetcher.window.Within known
  before : stop ≤ chain.startBlock ∨ ∃ block, fetcher.window.get? (stop - 1) = some block

/-- Whether a lane, with some events that were taken from it, and its fetcher go on from a block of
a chain of which some blocks are recorded. -/
structure Lane.Traces (lane : Lane) (task : FetcherTask) (chain : Chain) (next : Nat)
    (recorded : List Block) (taken : List Event) : Prop where
  laneChain : lane.chain = chain.id
  stretches : ∃ first stop, lane.Leads taken next first ∧ Ascends first (lane.incoming task) stop ∧
    Grounded chain.startBlock (recorded ++ lane.aheadBlocks task) first ∧
    (task.isFetching = true →
      task.fetcher.Remembers chain (recorded ++ lane.aheadBlocks task) stop)
  grounded : ∀ event ∈ taken ++ lane.ahead task,
    Grounded chain.startBlock (recorded ++ lane.aheadBlocks task) event.block
  announced : ∀ reorg, lane.Announces (lane.incoming task) reorg →
    reorg.chain = chain.id ∧ ∃ block ∈ recorded ++ lane.aheadBlocks task,
      block.number = reorg.safeBlock.number ∧ block.hash = reorg.safeBlock.hash

namespace Fetcher.Remembers

variable {fetcher fetcher' : Fetcher} {chain : Chain} {stop : Nat} {known known' : List Block}

theorem mono (h : fetcher.Remembers chain known stop) (hknown : known ⊆ known') :
    fetcher.Remembers chain known' stop :=
  ⟨h.fetcherChain, h.positive, h.nextBlock, h.capacity, h.within.mono hknown, h.before⟩

theorem of_stays (h : fetcher.Remembers chain known stop) (hstays : fetcher.Stays fetcher') :
    fetcher'.Remembers chain known stop :=
  ⟨hstays.chain.trans h.fetcherChain, hstays.positive h.positive,
    hstays.nextBlock.trans h.nextBlock, hstays.window ▸ h.capacity, hstays.window ▸ h.within,
    hstays.window ▸ h.before⟩

theorem grounded (h : fetcher.Remembers chain known stop) :
    Grounded chain.startBlock known stop := by
  by_cases hstart : stop ≤ chain.startBlock
  · exact Or.inl hstart
  · obtain ⟨block, hget⟩ := h.before.resolve_left hstart
    obtain ⟨hnumber, hknown⟩ := h.within _ _ hget
    exact Or.inr ⟨block, hknown, by omega⟩

end Fetcher.Remembers

namespace Lane.Traces

variable {lane lane' : Lane} {task task' : FetcherTask} {chain : Chain} {next : Nat}
  {recorded : List Block} {taken committed rest : List Event}

theorem start {checkpoint : Checkpoint} {window : BlockWindow} {settings : FetchSettings}
    (hremembers :
      (Fetcher.start chain checkpoint window settings).Remembers chain recorded next)
    (depth generation clock : Nat) :
    (Lane.start chain.id depth).Traces
      (.start (.start chain checkpoint window settings) generation clock) chain next recorded
      [] where
  laneChain := rfl
  stretches := by
    have hnone : recorded ++ (Lane.start chain.id depth).aheadBlocks
        (.start (.start chain checkpoint window settings) generation clock) = recorded :=
      List.append_nil recorded
    rw [hnone]
    refine ⟨next, next, ⟨Nat.le_refl _, .nil, ?_, ?_, List.nodup_nil,
      fun _ hfetched => (nomatch hfetched), fun _ => rfl⟩, rfl, hremembers.grounded,
      fun _ => hremembers⟩
    · exact fun _ hmem => absurd hmem List.not_mem_nil
    · exact fun _ hmem => absurd hmem List.not_mem_nil
  grounded := fun _ hmem => absurd hmem List.not_mem_nil
  announced := fun reorg hannounced => hannounced.elim (fun h => nomatch h)
    fun hmem => absurd hmem List.not_mem_nil

/-- What is on its way stays the same if the lane and its fetcher differ in nothing that matters. -/
theorem congr (h : lane.Traces task chain next recorded taken) (hchain : lane'.chain = lane.chain)
    (hpending : lane'.pending = lane.pending)
    (hfetched : lane'.fetchedThrough = lane.fetchedThrough)
    (hreorg : ∀ reorg, lane'.reorg = some reorg → lane.reorg = some reorg)
    (hunrecorded : lane'.unrecorded = lane.unrecorded)
    (hincoming : lane'.incoming task' = lane.incoming task)
    (hstays : task'.isFetching = true →
      task.isFetching = true ∧ task.fetcher.Stays task'.fetcher) :
    lane'.Traces task' chain next recorded taken ∧ lane'.ahead task' = lane.ahead task ∧
      lane'.aheadBlocks task' = lane.aheadBlocks task := by
  have hahead : lane'.ahead task' = lane.ahead task := by
    rw [ahead, ahead, hincoming, hpending]
  have hblocks : lane'.aheadBlocks task' = lane.aheadBlocks task := by
    rw [aheadBlocks, aheadBlocks, hincoming, hunrecorded]
  obtain ⟨first, stop, hleads, hascends, hground, hremembers⟩ := h.stretches
  refine ⟨⟨hchain.trans h.laneChain, ⟨first, stop, ⟨hleads.le, ?_, ?_, ?_, ?_, ?_, ?_⟩, ?_, ?_,
    fun hfetching => ?_⟩, ?_, fun reorg hannounced => ?_⟩, hahead, hblocks⟩
  · rw [hpending]
    exact hleads.sorted
  · rw [hpending]
    exact hleads.events
  · rw [hunrecorded]
    exact hleads.blocks
  · rw [hunrecorded]
    exact hleads.distinct
  · rw [hfetched]
    exact hleads.fetched
  · rw [hfetched, hpending]
    exact hleads.unfetched
  · rwa [hincoming]
  · rwa [hblocks]
  · rw [hblocks]
    obtain ⟨hbefore, hsame⟩ := hstays hfetching
    exact (hremembers hbefore).of_stays hsame
  · rw [hahead, hblocks]
    exact h.grounded
  · rw [Announces, hincoming] at hannounced
    rw [hblocks]
    exact h.announced reorg (hannounced.imp_left (hreorg reorg))

theorem drain (h : lane.Traces task chain next recorded []) :
    lane.drainReady.Traces task chain next recorded [] ∧
      lane.drainReady.ahead task = lane.ahead task ∧
      lane.drainReady.aheadBlocks task = lane.aheadBlocks task := by
  obtain ⟨hahead, hblocks⟩ := lane.drainItems_ahead lane.queue.items task.sending
  have hsame : lane.drainReady.ahead task = lane.ahead task := hahead
  have hsameBlocks : lane.drainReady.aheadBlocks task = lane.aheadBlocks task := hblocks
  obtain ⟨first, stop, hleads, hascends, hground, hremembers⟩ := h.stretches
  have hknown : blocksOf (lane.incoming task) ⊆ recorded ++ lane.aheadBlocks task :=
    fun block hblock => List.mem_append_right _ (List.mem_append_right _ hblock)
  obtain ⟨first', hdrained, hlater, hground'⟩ := hleads.drainItems hascends hground hknown
  refine ⟨⟨(lane.drainItems_chain _).trans h.laneChain, ?_, ?_, ?_⟩, hsame, hsameBlocks⟩
  · rw [hsameBlocks]
    exact ⟨first', stop, hdrained, hlater, hground', hremembers⟩
  · rw [hsame, hsameBlocks]
    exact h.grounded
  · rw [hsameBlocks]
    exact fun reorg hannounced => h.announced reorg (announces_of_drainItems hannounced)

theorem take (h : lane.Traces task chain next recorded [])
    (hpending : lane.pending = taken ++ rest) :
    { lane with pending := rest }.Traces task chain next recorded taken := by
  obtain ⟨first, stop, hleads, hascends, hstretches⟩ := h.stretches
  have hgrounded := h.grounded
  rw [ahead, hpending, List.nil_append, List.append_assoc] at hgrounded
  refine ⟨h.laneChain, ⟨first, stop, ⟨hleads.le, ?_, ?_, hleads.blocks,
    hleads.distinct, hleads.fetched, fun hnone => ?_⟩, hascends, hstretches⟩, hgrounded,
    h.announced⟩
  · exact hpending ▸ hleads.sorted
  · exact hpending ▸ hleads.events
  · exact hpending ▸ hleads.unfetched hnone

theorem restore (h : lane.Traces task chain next recorded (committed ++ rest)) :
    (lane.restore rest).Traces task chain next recorded committed := by
  obtain ⟨first, stop, hleads, hascends, hstretches⟩ := h.stretches
  have hpending : committed ++ (lane.restore rest).pending = committed ++ rest ++ lane.pending :=
    (List.append_assoc ..).symm
  have hahead : committed ++ (lane.restore rest).ahead task =
      committed ++ rest ++ lane.ahead task := by
    rw [ahead, ahead, ← List.append_assoc, hpending, List.append_assoc]
    rfl
  refine ⟨h.laneChain, ⟨first, stop, ⟨hleads.le, ?_, ?_, hleads.blocks,
    hleads.distinct, hleads.fetched, fun hnone => ?_⟩, hascends, hstretches⟩, ?_, h.announced⟩
  · rw [hpending]
    exact hleads.sorted
  · rw [hpending]
    exact hleads.events
  · rw [hpending]
    exact hleads.unfetched hnone
  · rw [hahead]
    exact h.grounded

/-- The last item of a fetcher comes behind all batches. -/
theorem last (h : lane.Traces task chain next recorded taken) {item : QueueItem}
    (hidle : task.sending = []) (hsending : task'.sending = [item])
    (hfetching : task'.isFetching = false)
    (hitem : item.events = [] ∧ item.blocks = [] ∧ ∀ stop, Ascends stop [item] stop)
    (hreorg : ∀ reorg, item = .reorg reorg →
      reorg.chain = chain.id ∧ ∃ block ∈ recorded ++ lane.aheadBlocks task,
        block.number = reorg.safeBlock.number ∧ block.hash = reorg.safeBlock.hash) :
    lane.Traces task' chain next recorded taken ∧ lane.ahead task' = lane.ahead task ∧
      lane.aheadBlocks task' = lane.aheadBlocks task := by
  have hincoming : lane.incoming task' = lane.incoming task ++ [item] := by
    rw [incoming, incoming, hidle, hsending, List.append_nil]
  have hahead : lane.ahead task' = lane.ahead task := by
    rw [ahead, ahead, hincoming, eventsOf_append, eventsOf_cons, hitem.1]
    simp
  have hblocks : lane.aheadBlocks task' = lane.aheadBlocks task := by
    rw [aheadBlocks, aheadBlocks, hincoming, blocksOf_append, blocksOf_cons, hitem.2.1]
    simp
  obtain ⟨first, stop, hleads, hascends, hground, -⟩ := h.stretches
  refine ⟨⟨h.laneChain, ⟨first, stop, hleads, ?_, ?_, fun hnow => ?_⟩, ?_,
    fun reorg hannounced => ?_⟩, hahead, hblocks⟩
  · rw [hincoming]
    exact hascends.append (hitem.2.2 stop)
  · rwa [hblocks]
  · rw [hfetching] at hnow
    cases hnow
  · rw [hahead, hblocks]
    exact h.grounded
  · rw [hblocks]
    rw [hincoming] at hannounced
    rcases hannounced with hlane | hmem
    · exact h.announced reorg (Or.inl hlane)
    · rcases List.mem_append.1 hmem with hold | hnew
      · exact h.announced reorg (Or.inr hold)
      · exact hreorg reorg (List.mem_singleton.1 hnew).symm

theorem mono (h : lane.Traces task chain next recorded taken) {recorded' : List Block}
    (hrecorded : recorded ⊆ recorded') : lane.Traces task chain next recorded' taken := by
  have hknown : recorded ++ lane.aheadBlocks task ⊆ recorded' ++ lane.aheadBlocks task :=
    List.append_subset.2 ⟨fun _ hmem => List.mem_append_left _ (hrecorded hmem),
      List.subset_append_right _ _⟩
  obtain ⟨first, stop, hleads, hascends, hground, hremembers⟩ := h.stretches
  exact ⟨h.laneChain, ⟨first, stop, hleads, hascends, hground.mono hknown,
    fun hfetching => (hremembers hfetching).mono hknown⟩,
    fun event hevent => (h.grounded event hevent).mono hknown,
    fun reorg hannounced => (h.announced reorg hannounced).imp_right
      fun ⟨block, hblock, hsame⟩ => ⟨block, hknown hblock, hsame⟩⟩

end Lane.Traces

end ChainIndexer
