import ChainIndexer.Fetch.Task
import ChainIndexer.Lane
import ChainIndexer.Proofs.Fetch
import ChainIndexer.Proofs.Due

/-!
# What is on its way along a lane

The events left of a chain stand in three places: pending in the lane below some block, in the queue
and at the fetcher up to another, and at the source from there on. Each step of a lane or a fetcher
moves these two blocks and loses nothing.
-/

namespace ChainIndexer

/-- Whether items carry exactly the events left from one block to before another. -/
def Carries (left : List Event) : (first : Nat) → List QueueItem → (next : Nat) → Prop
  | first, [], next => first = next
  | first, .batch batch :: rest, next =>
    first ≤ batch.lastBlock.number ∧
      batch.events =
        left.filter (fun event => first ≤ event.block ∧ event.block ≤ batch.lastBlock.number) ∧
      Carries left (batch.lastBlock.number + 1) rest next
  | first, .finished :: rest, next => Carries left first rest next
  | _, .reorg _ :: _, _ => False

namespace Carries

variable {left left' : List Event} {first next : Nat} {items : List QueueItem}

theorem le (h : Carries left first items next) : first ≤ next := by
  induction items generalizing first with
  | nil => exact Nat.le_of_eq h
  | cons item rest ih =>
    cases item with
    | batch batch =>
      have hrest := ih h.2.2
      have hfirst := h.1
      omega
    | finished => exact ih h
    | reorg reorg => cases h

theorem congr (hleft : left'.filter (first ≤ ·.block) = left.filter (first ≤ ·.block))
    (h : Carries left first items next) : Carries left' first items next := by
  induction items generalizing first with
  | nil => exact h
  | cons item rest ih =>
    cases item with
    | batch batch =>
      obtain ⟨hfirst, hevents, hrest⟩ := h
      have hrange : ∀ events : List Event,
          events.filter
              (fun event => first ≤ event.block ∧ event.block ≤ batch.lastBlock.number) =
            (events.filter (first ≤ ·.block)).filter (·.block ≤ batch.lastBlock.number) := by
        intro events
        rw [List.filter_filter]
        exact List.filter_congr fun event _ => by simp [Bool.and_comm]
      have hlater : ∀ events : List Event,
          events.filter (batch.lastBlock.number + 1 ≤ ·.block) =
            (events.filter (first ≤ ·.block)).filter (batch.lastBlock.number + 1 ≤ ·.block) := by
        intro events
        rw [List.filter_filter]
        refine List.filter_congr fun event _ => ?_
        rw [← Bool.decide_and, decide_eq_decide]
        omega
      refine ⟨hfirst, ?_, ih ?_ hrest⟩
      · rw [hevents, hrange, hrange, hleft]
      · rw [hlater left', hleft, ← hlater left]
    | finished => exact ih hleft h
    | reorg reorg => cases h

theorem append {last : Nat} {later : List QueueItem} (h : Carries left first items next)
    (hlater : Carries left next later last) : Carries left first (items ++ later) last := by
  induction items generalizing first with
  | nil =>
    obtain rfl : first = next := h
    exact hlater
  | cons item rest ih =>
    cases item with
    | batch batch => exact ⟨h.1, h.2.1, ih h.2.2⟩
    | finished => exact ih h
    | reorg reorg => cases h

end Carries

namespace Lane

variable {lane : Lane} {left taken : List Event} {next : Nat}

/-- Whether a lane has pending, behind some events that were taken from it, exactly the events left
before a block, up to which the chain was fetched. -/
structure Holds (lane : Lane) (left taken : List Event) (next : Nat) : Prop where
  pending : taken ++ lane.pending = left.filter (·.block < next)
  fetched : ∀ block, lane.fetchedThrough = some block → next = block.number + 1
  reorg : lane.reorg = none

theorem drainItems_chain (lane : Lane) (items : List QueueItem) :
    (lane.drainItems items).chain = lane.chain := by
  refine drainItems_induction (P := fun lane' _ => lane'.chain = lane.chain) rfl
    (fun _ _ _ h => h) fun lane' item _ _ h => ?_
  cases item <;> exact h

theorem Holds.drainItems (h : lane.Holds left [] next) {items sending : List QueueItem} {stop : Nat}
    (hitems : Carries left next (items ++ sending) stop) :
    ∃ next', (lane.drainItems items).Holds left [] next' ∧
      Carries left next' ((lane.drainItems items).queue.items ++ sending) stop := by
  refine drainItems_induction (P := fun lane' rest => ∃ next', lane'.Holds left [] next' ∧
    Carries left next' (rest ++ sending) stop) ⟨next, h, hitems⟩ ?_ ?_
  · rintro lane' rest isClosed ⟨next', hholds, hcarries⟩
    exact ⟨next', ⟨hholds.pending, hholds.fetched, hholds.reorg⟩, hcarries⟩
  · rintro lane' item rest hnone ⟨next', hholds, hcarries⟩
    cases item with
    | batch batch =>
      obtain ⟨hfirst, hevents, hrest⟩ := hcarries
      refine ⟨_, ⟨?_, ?_, hholds.reorg⟩, hrest⟩
      · have hbelow := hholds.pending
        rw [hnone, List.append_nil] at hbelow
        rw [Lane.absorb, hnone, List.nil_append, List.nil_append, hevents]
        refine List.filter_congr fun event hevent => ?_
        have hge := List.filter_eq_nil_iff.1 hbelow.symm event hevent
        rw [decide_eq_true_eq] at hge
        rw [decide_eq_decide]
        omega
      · rintro block ⟨⟩
        rfl
    | finished => exact ⟨next', ⟨hholds.pending, hholds.fetched, hholds.reorg⟩, hcarries⟩
    | reorg reorg => cases hcarries

theorem Holds.restore {committed rest : List Event} (h : lane.Holds left (committed ++ rest) next) :
    (lane.restore rest).Holds left committed next :=
  ⟨(List.append_assoc ..).symm.trans h.pending, h.fetched, h.reorg⟩

/-- What is left besides the committed events lies above the block that a lane calls processed. -/
theorem Holds.lt_of_processed {committed : List Event} (h : lane.Holds left committed next)
    (horder : InOrder left) {processed : Nat} (hprocessed : lane.processed = some processed) :
    processed < next ∧
      ∀ event ∈ lane.pending ++ left.filter (next ≤ ·.block), processed < event.block := by
  have hpending : InOrder lane.pending := by
    have hfilter := horder.filter (·.block < next)
    rw [← h.pending] at hfilter
    exact (List.pairwise_append.1 hfilter).2.1
  have hbelow : ∀ event ∈ lane.pending, event.block < next := by
    intro event hevent
    have hmem : event ∈ left.filter (·.block < next) :=
      h.pending ▸ List.mem_append_right committed hevent
    exact of_decide_eq_true (List.mem_filter.1 hmem).2
  have hlater : ∀ event ∈ left.filter (next ≤ ·.block), next ≤ event.block := fun event hevent =>
    of_decide_eq_true (List.mem_filter.1 hevent).2
  have hblocks : processed < next ∧ ∀ event ∈ lane.pending, processed < event.block := by
    rw [Lane.processed] at hprocessed
    cases hevents : lane.pending with
    | nil =>
      rw [hevents] at hprocessed
      obtain ⟨block, hfetched, rfl⟩ := Option.map_eq_some_iff.1 hprocessed
      rw [h.fetched block hfetched]
      exact ⟨Nat.lt_succ_self _, fun event hevent => absurd hevent List.not_mem_nil⟩
    | cons first rest =>
      rw [hevents] at hprocessed hpending hbelow
      simp only [List.head?_cons, Word.checkedSub, Option.ite_none_right_eq_some,
        Option.some.injEq] at hprocessed
      refine ⟨?_, fun event hevent => ?_⟩
      · have hfirst := hbelow first List.mem_cons_self
        omega
      · have hle := Position.block_le_of_le (hpending.head_le hevent)
        change first.block ≤ event.block at hle
        omega
  refine ⟨hblocks.1, fun event hevent => ?_⟩
  rcases List.mem_append.1 hevent with hmem | hmem
  · exact hblocks.2 event hmem
  · exact Nat.lt_of_lt_of_le hblocks.1 (hlater event hmem)

end Lane

theorem Progress.filter_reaches {progress : Progress} {committed rest : List Event}
    (horder : InOrder (committed ++ rest))
    (hprocessed : ∀ processed, progress.processed = some processed →
      ∀ event ∈ rest, processed < event.block)
    (hposition : progress.position = committed.getLast?.map Event.position) :
    (committed ++ rest).filter (fun event => progress.reaches event.position) = committed := by
  have hreached : ∀ event ∈ committed, progress.reaches event.position = true := by
    intro event hevent
    cases hlast : committed.getLast? with
    | none => rw [List.getLast?_eq_none_iff.1 hlast] at hevent; cases hevent
    | some last =>
      have hle := InOrder.le_getLast (List.pairwise_append.1 horder).1 hevent hlast
      simp [reaches, hposition, hlast, hle]
  have hopen : ∀ event ∈ rest, ¬ progress.reaches event.position = true := by
    intro event hevent hreaches
    rw [reaches, Bool.or_eq_true, Option.any_eq_true, Option.any_eq_true] at hreaches
    rcases hreaches with ⟨processed, heq, hle⟩ | ⟨last, heq, hle⟩
    · have hlt := hprocessed processed heq event hevent
      have hblock : event.block ≤ processed := of_decide_eq_true hle
      omega
    · rw [hposition, Option.map_eq_some_iff] at heq
      obtain ⟨final, hfinal, rfl⟩ := heq
      have hmem := List.mem_of_getLast? hfinal
      exact Position.le_iff.1 (of_decide_eq_true hle) (horder.lt_of_append hmem hevent)
  rw [List.filter_append, List.filter_eq_self.2 hreached, List.filter_eq_nil_iff.2 hopen,
    List.append_nil]

namespace Lane

variable {lane : Lane} {left committed : List Event} {next : Nat}

/-- Whether progress is what a lane reports of some committed events, or less of its blocks. -/
structure Reports (lane : Lane) (committed : List Event) (progress : Progress) : Prop where
  processed : ∀ processed, progress.processed = some processed →
    ∃ reported, lane.processed = some reported ∧ processed ≤ reported
  position : progress.position = committed.getLast?.map Event.position

/-- Of what is left the progress of a lane reaches the committed events, and nothing from the block
on up to which the chain was fetched. -/
theorem Reports.reaches {progress : Progress} (hreports : lane.Reports committed progress)
    (h : lane.Holds left committed next) (horder : InOrder left) :
    left.filter (fun event => progress.reaches event.position) = committed ∧
      ∀ position : Position, next ≤ position.block → progress.reaches position = false := by
  have hleft : committed ++ (lane.pending ++ left.filter (next ≤ ·.block)) = left := by
    rw [← List.append_assoc, h.pending]
    exact horder.filter_block next
  refine ⟨?_, fun position hposition => ?_⟩
  · have hbelow : ∀ processed, progress.processed = some processed →
        ∀ event ∈ lane.pending ++ left.filter (next ≤ ·.block), processed < event.block := by
      intro processed hprocessed event hevent
      obtain ⟨reported, hreported, hle⟩ := hreports.processed processed hprocessed
      exact Nat.lt_of_le_of_lt hle ((h.lt_of_processed horder hreported).2 event hevent)
    have hreached := Progress.filter_reaches (hleft.symm ▸ horder) hbelow hreports.position
    rwa [hleft] at hreached
  · rw [Bool.eq_false_iff]
    intro hreaches
    rw [Progress.reaches, Bool.or_eq_true, Option.any_eq_true, Option.any_eq_true] at hreaches
    rcases hreaches with ⟨processed, heq, hle⟩ | ⟨last, heq, hle⟩
    · obtain ⟨reported, hreported, hprocessed⟩ := hreports.processed processed heq
      have hlt := (h.lt_of_processed horder hreported).1
      have hblock : position.block ≤ processed := of_decide_eq_true hle
      omega
    · rw [hreports.position, Option.map_eq_some_iff] at heq
      obtain ⟨final, hfinal, rfl⟩ := heq
      have hmem : final ∈ left.filter (·.block < next) :=
        h.pending ▸ List.mem_append_left _ (List.mem_of_getLast? hfinal)
      have hblock := Position.block_le_of_le (of_decide_eq_true hle)
      have hlt : final.block < next := of_decide_eq_true (List.mem_filter.1 hmem).2
      change position.block ≤ final.block at hblock
      omega

end Lane

/-! ### Lanes with their fetchers -/

/-- The item that a fetcher is about to hand over. -/
def FetcherTask.sending (task : FetcherTask) : List QueueItem :=
  match task.phase with
  | .send item => [item]
  | _ => []

namespace FetcherTask

variable {task : FetcherTask} {item : QueueItem}

theorem sending_of_round (h : task.phase = .fetch ∨ task.phase = .take) : task.sending = [] := by
  rcases h with h | h <;> rw [sending, h]

theorem sending_of_send (h : task.phase = .send item) : task.sending = [item] := by
  rw [sending, h]

theorem sending_phaseAfter (task : FetcherTask) (item : QueueItem) (clock : Nat) :
    (task.goOn (phaseAfter item) clock).sending = [] := by
  cases item <;> rfl

end FetcherTask

/-- Whether the blocks to remember of an item are blocks of a chain. -/
def QueueItem.Follows {chain : ChainId} (log : ChainLog chain) : QueueItem → Prop
  | .batch fetched => ∀ block ∈ fetched.blocks, log.Has block
  | .reorg _ => True
  | .finished => True

/-- Whether all blocks that a lane and its fetcher remember, or are to remember, are blocks of a
chain. -/
structure Lane.Follows {chain : ChainId} (lane : Lane) (task : FetcherTask)
    (log : ChainLog chain) : Prop where
  window : task.fetcher.window.Follows log
  unrecorded : ∀ block ∈ lane.unrecorded, log.Has block
  items : ∀ item ∈ lane.queue.items, item.Follows log
  sending : ∀ item ∈ task.sending, item.Follows log

/-- Whether a lane, behind some events that were taken from it, and its fetcher bring exactly the
events left of a chain. -/
structure Lane.Serves {chain : ChainId} (lane : Lane) (task : FetcherTask) (log : ChainLog chain)
    (covers : Position → Bool) (left taken : List Event) : Prop where
  laneChain : lane.chain = chain
  fetcherChain : task.fetcher.chain = chain
  positive : task.fetcher.batchSize.Positive
  follows : lane.Follows task log
  skips : ∀ position : Position, task.fetcher.nextBlock ≤ position.block →
    task.fetcher.skipThrough.all (fun through => decide (through < position)) = !covers position
  brings : ∃ next, lane.Holds left taken next ∧
    Carries left next (lane.queue.items ++ task.sending) task.fetcher.nextBlock

theorem Progress.reaches_of_le {progress : Progress} {a b : Position} (hle : a ≤ b)
    (h : progress.reaches b = true) : progress.reaches a = true := by
  have hblock := Position.block_le_of_le hle
  rw [reaches, Bool.or_eq_true, Option.any_eq_true, Option.any_eq_true] at h ⊢
  refine h.imp ?_ ?_
  · rintro ⟨processed, heq, hb⟩
    have hprocessed : b.block ≤ processed := of_decide_eq_true hb
    exact ⟨processed, heq, decide_eq_true (Nat.le_trans hblock hprocessed)⟩
  · rintro ⟨last, heq, hb⟩
    exact ⟨last, heq, decide_eq_true (Position.le_trans hle (of_decide_eq_true hb))⟩

namespace Lane.Follows

variable {lane : Lane} {task : FetcherTask} {chain : ChainId} {log : ChainLog chain}

theorem drainItems (h : ∀ block ∈ lane.unrecorded, log.Has block) {items : List QueueItem}
    (hitems : ∀ item ∈ items, item.Follows log) :
    (∀ block ∈ (lane.drainItems items).unrecorded, log.Has block) ∧
      ∀ item ∈ (lane.drainItems items).queue.items, item.Follows log := by
  refine drainItems_induction (P := fun lane' rest =>
    (∀ block ∈ lane'.unrecorded, log.Has block) ∧ ∀ item ∈ rest, item.Follows log) ⟨h, hitems⟩
    (fun _ _ _ hkept => hkept) ?_
  rintro lane' item rest - ⟨hblocks, hfollows⟩
  obtain ⟨hitem, hrest⟩ := List.forall_mem_cons.1 hfollows
  refine ⟨?_, hrest⟩
  cases item with
  | batch batch =>
    intro block hblock
    exact (List.mem_append.1 hblock).elim (hblocks block) (hitem block)
  | reorg reorg => exact hblocks
  | finished => exact hblocks

theorem drain (h : lane.Follows task log) : lane.drainReady.Follows task log :=
  have hdrained := drainItems h.unrecorded h.items
  ⟨h.window, hdrained.1, hdrained.2, h.sending⟩

end Lane.Follows

namespace Lane.Serves

variable {lane lane' : Lane} {task task' : FetcherTask} {chain : ChainId} {log : ChainLog chain}
  {covers : Position → Bool} {left taken committed rest : List Event}

/-- A new lane with a new fetcher brings everything that its checkpoint does not cover. -/
theorem start {chain : Chain} {log : ChainLog chain.id} {checkpoint : Checkpoint}
    {settings : FetchSettings} {window : BlockWindow}
    (hleft : ∀ event ∈ left, checkpoint.covers event.position = false)
    (hpositive : settings.batchSize.Positive) (hwindow : window.Follows log)
    (depth generation clock : Nat) :
    (Lane.start chain.id depth).Serves
      (.start (.start chain checkpoint window settings) generation clock) log checkpoint.covers left
      [] where
  laneChain := rfl
  fetcherChain := rfl
  positive := hpositive
  follows := ⟨hwindow, fun _ hmem => absurd hmem List.not_mem_nil,
    fun _ hmem => absurd hmem List.not_mem_nil, fun _ hmem => absurd hmem List.not_mem_nil⟩
  skips := fun _ hblock => Checkpoint.skipThrough_all_lt hblock
  brings := by
    refine ⟨checkpoint.resumeBlock, ⟨?_, fun _ hnone => (nomatch hnone), rfl⟩, rfl⟩
    refine (List.filter_eq_nil_iff.2 fun event hevent => ?_).symm
    have hresume := Checkpoint.resumeBlock_le_of_not_covers (hleft event hevent)
    change checkpoint.resumeBlock ≤ event.block at hresume
    rw [decide_eq_true_eq]
    omega

theorem of_lane (h : lane.Serves task log covers left taken) (hchain : lane'.chain = lane.chain)
    (hpending : lane'.pending = lane.pending)
    (hfetched : lane'.fetchedThrough = lane.fetchedThrough)
    (hreorg : lane'.reorg = lane.reorg) (hitems : lane'.queue.items = lane.queue.items)
    (hunrecorded : ∀ block ∈ lane'.unrecorded, block ∈ lane.unrecorded) :
    lane'.Serves task log covers left taken := by
  obtain ⟨next, hholds, hcarries⟩ := h.brings
  refine ⟨hchain.trans h.laneChain, h.fetcherChain, h.positive, ⟨h.follows.window, ?_, ?_,
    h.follows.sending⟩, h.skips, next, ⟨?_, ?_, ?_⟩, ?_⟩
  · exact fun block hblock => h.follows.unrecorded block (hunrecorded block hblock)
  · rw [hitems]
    exact h.follows.items
  · rw [hpending, hholds.pending]
  · rw [hfetched]
    exact hholds.fetched
  · rw [hreorg, hholds.reorg]
  · rwa [hitems]

/-- A fetcher that stays where it is may put other items on their way if these carry the same. -/
theorem of_sending (h : lane.Serves task log covers left taken)
    (hstays : task.fetcher.Stays task'.fetcher)
    (hfollows : ∀ item ∈ task'.sending, item.Follows log)
    (hsending : ∀ {first next : Nat}, Carries left first (lane.queue.items ++ task.sending) next →
      Carries left first (lane.queue.items ++ task'.sending) next) :
    lane.Serves task' log covers left taken := by
  obtain ⟨next, hholds, hcarries⟩ := h.brings
  refine ⟨h.laneChain, hstays.chain.trans h.fetcherChain, hstays.positive h.positive,
    ⟨?_, h.follows.unrecorded, h.follows.items, hfollows⟩, ?_, next, hholds, ?_⟩
  · rw [hstays.window]
    exact h.follows.window
  · rw [hstays.nextBlock, hstays.skipThrough]
    exact h.skips
  · rw [hstays.nextBlock]
    exact hsending hcarries

theorem of_stays (h : lane.Serves task log covers left taken)
    (hstays : task.fetcher.Stays task'.fetcher) (hsending : task'.sending = task.sending) :
    lane.Serves task' log covers left taken := by
  refine h.of_sending hstays ?_ fun hcarries => ?_
  · rw [hsending]
    exact h.follows.sending
  · rwa [hsending]

theorem drain (h : lane.Serves task log covers left []) :
    lane.drainReady.Serves task log covers left [] := by
  obtain ⟨next, hholds, hcarries⟩ := h.brings
  exact ⟨(lane.drainItems_chain _).trans h.laneChain, h.fetcherChain, h.positive, h.follows.drain,
    h.skips, hholds.drainItems hcarries⟩

theorem take (h : lane.Serves task log covers left []) (hpending : lane.pending = taken ++ rest) :
    { lane with pending := rest }.Serves task log covers left taken := by
  obtain ⟨next, hholds, hcarries⟩ := h.brings
  refine ⟨h.laneChain, h.fetcherChain, h.positive,
    ⟨h.follows.window, h.follows.unrecorded, h.follows.items, h.follows.sending⟩, h.skips, next,
    ⟨?_, hholds.fetched, hholds.reorg⟩, hcarries⟩
  rw [← hholds.pending, hpending, List.nil_append]

theorem restore (h : lane.Serves task log covers left (committed ++ rest)) :
    (lane.restore rest).Serves task log covers left committed := by
  obtain ⟨next, hholds, hcarries⟩ := h.brings
  exact ⟨h.laneChain, h.fetcherChain, h.positive,
    ⟨h.follows.window, h.follows.unrecorded, h.follows.items, h.follows.sending⟩, h.skips, next,
    hholds.restore, hcarries⟩

/-- Once the committed events of a lane are covered it brings the others. -/
theorem commit (h : lane.Serves task log covers left committed) (horder : InOrder left)
    {progress : Progress} (hreports : lane.Reports committed progress) :
    left.filter (fun event => progress.reaches event.position) = committed ∧
      lane.Serves task log (fun position => covers position || progress.reaches position)
        (left.filter fun event => !progress.reaches event.position) [] := by
  obtain ⟨next, hholds, hcarries⟩ := h.brings
  obtain ⟨hreached, hlater⟩ := hreports.reaches hholds horder
  have hopen : left.filter (fun event => !progress.reaches event.position) =
      lane.pending ++ left.filter (next ≤ ·.block) := by
    have hcut := horder.filter_append (p := fun event => progress.reaches event.position)
      fun a b hlt hb => Progress.reaches_of_le (Position.le_of_lt hlt) hb
    have hblocks := horder.filter_block next
    rw [← hholds.pending, List.append_assoc] at hblocks
    rw [hreached] at hcut
    exact List.append_cancel_left (hcut.trans hblocks.symm)
  refine ⟨hreached, h.laneChain, h.fetcherChain, h.positive, h.follows, fun position hblock => ?_,
    next, ⟨?_, hholds.fetched, hholds.reorg⟩, Carries.congr ?_ hcarries⟩
  · rw [hlater position (Nat.le_trans hcarries.le hblock), Bool.or_false]
    exact h.skips position hblock
  · have hpending : lane.pending.filter (·.block < next) = lane.pending := by
      refine List.filter_eq_self.2 fun event hevent => ?_
      have hmem : event ∈ left.filter (·.block < next) :=
        hholds.pending ▸ List.mem_append_right committed hevent
      exact (List.mem_filter.1 hmem).2
    have hnone : (left.filter (next ≤ ·.block)).filter (·.block < next) = [] := by
      refine List.filter_eq_nil_iff.2 fun event hevent => ?_
      have hblock : next ≤ event.block := of_decide_eq_true (List.mem_filter.1 hevent).2
      rw [decide_eq_true_eq]
      omega
    rw [hopen, List.filter_append, hpending, hnone, List.append_nil, List.nil_append]
  · rw [List.filter_filter]
    refine List.filter_congr fun event _ => ?_
    by_cases hblock : next ≤ event.block
    · rw [hlater event.position hblock]
      simp
    · simp [hblock]

theorem push (h : lane.Serves task log covers left taken) {item : QueueItem}
    (hsending : task.sending = [item]) (hfetcher : task'.fetcher = task.fetcher)
    (hnext : task'.sending = []) :
    { lane with queue := lane.queue.push item }.Serves task' log covers left taken := by
  obtain ⟨next, hholds, hcarries⟩ := h.brings
  have hitem : item.Follows log := h.follows.sending item (hsending ▸ List.mem_singleton_self item)
  refine ⟨h.laneChain, ?_, ?_, ⟨?_, h.follows.unrecorded, fun other hother => ?_, ?_⟩, ?_, next,
    ⟨hholds.pending, hholds.fetched, hholds.reorg⟩, ?_⟩
  · rw [hfetcher, h.fetcherChain]
  · rw [hfetcher]
    exact h.positive
  · rw [hfetcher]
    exact h.follows.window
  · rcases List.mem_append.1 hother with hold | hnew
    · exact h.follows.items other hold
    · rwa [List.mem_singleton.1 hnew]
  · rw [hnext]
    exact fun _ hmem => absurd hmem List.not_mem_nil
  · rw [hfetcher]
    exact h.skips
  · rw [hsending] at hcarries
    rwa [hnext, hfetcher, List.append_nil]

/-- A fetcher that is at its end says so behind all batches. -/
theorem finish (h : lane.Serves task log covers left taken) (hidle : task.sending = [])
    (hstays : task.fetcher.Stays task'.fetcher) (hsending : task'.sending = [.finished]) :
    lane.Serves task' log covers left taken := by
  refine h.of_sending hstays ?_ fun hcarries => ?_
  · rw [hsending]
    exact List.forall_mem_singleton.2 trivial
  · rw [hidle, List.append_nil] at hcarries
    rw [hsending]
    exact hcarries.append rfl

end Lane.Serves

/-- The batch that a fetcher makes of an honest answer holds what is left of its range. -/
theorem Fetcher.MovesBy.events_eq {τ : Type} {context : FetchContext τ} {before after : Fetcher}
    {batch : FetchedBatch} {page : EventPage} {registry : Registry} {chain : ChainId}
    {log : ChainLog chain} {covers : Position → Bool}
    (h : MovesBy context before after batch page) (hkeyed : registry.Keyed)
    (hwatched : context.watched = registry.watchedOn chain)
    (hhonest : page.Honest log context.watched before.nextBlock)
    (hskips : ∀ position : Position, before.nextBlock ≤ position.block →
      before.skipThrough.all (fun through => decide (through < position)) = !covers position) :
    batch.events = (log.events.filter fun event =>
      registry.wants context.handlers event && !covers event.position).filter fun event =>
        before.nextBlock ≤ event.block ∧ event.block ≤ batch.lastBlock.number := by
  have hfind : ∀ event ∈ log.events,
      context.watched.find? (·.address = Text.lowercase event.address) =
        registry.watched.get? event.source := by
    intro event hevent
    rw [hwatched, Registry.find?_watchedOn hkeyed, Event.source, log.own event hevent]
  have hwants : ∀ event ∈ log.events, before.nextBlock ≤ event.block →
      wants context before.skipThrough event =
        (registry.wants context.handlers event && !covers event.position) := by
    intro event hevent hblock
    rw [wants, Registry.wants, hfind event hevent, hskips event.position hblock]
  rw [h.events]
  refine ((log.inOrder.filter _).filter _).sortByPosition_eq (hhonest.nodup.filter _)
    fun event => ?_
  rw [List.mem_filter, List.mem_filter, List.mem_filter, h.lastBlock, decide_eq_true_eq]
  constructor
  · rintro ⟨hpage, hkeep⟩
    obtain ⟨hevent, hfirst, hlast⟩ := hhonest.sound event hpage
    rw [hwants event hevent hfirst] at hkeep
    exact ⟨⟨hevent, hkeep⟩, hfirst, hlast⟩
  · rintro ⟨⟨hevent, hkeep⟩, hfirst, hlast⟩
    refine ⟨hhonest.complete event hevent hfirst hlast ?_, by rwa [hwants event hevent hfirst]⟩
    rw [Registry.wants, Bool.and_eq_true, Bool.and_eq_true, Option.any_eq_true] at hkeep
    obtain ⟨⟨-, watched, hget, hstart⟩, -⟩ := hkeep
    rw [← hfind event hevent] at hget
    exact ⟨watched, List.mem_of_find?_eq_some hget, by simpa using List.find?_some hget,
      of_decide_eq_true hstart⟩

theorem Lane.Serves.fetch {τ : Type} {context : FetchContext τ} {lane : Lane}
    {task task' : FetcherTask} {chain : ChainId} {log : ChainLog chain} {registry : Registry}
    {covers : Position → Bool} {taken : List Event} {batch : FetchedBatch} {page : EventPage}
    (h : lane.Serves task log covers (log.events.filter fun event =>
      registry.wants context.handlers event && !covers event.position) taken)
    (hidle : task.sending = []) (hmoves : task.fetcher.MovesBy context task'.fetcher batch page)
    (hkeyed : registry.Keyed) (hwatched : context.watched = registry.watchedOn chain)
    (hhonest : page.Honest log context.watched task.fetcher.nextBlock)
    (hsending : task'.sending = [.batch batch]) :
    lane.Serves task' log covers (log.events.filter fun event =>
      registry.wants context.handlers event && !covers event.position) taken := by
  obtain ⟨next, hholds, hcarries⟩ := h.brings
  have hrange := hhonest.range
  have hevents := hmoves.events_eq hkeyed hwatched hhonest h.skips
  have hblocks : ∀ block ∈ batch.blocks, log.Has block := fun block hblock =>
    hhonest.has (hmoves.blocks block hblock)
  refine ⟨h.laneChain, hmoves.chain.trans h.fetcherChain, hmoves.positive,
    ⟨?_, h.follows.unrecorded, h.follows.items, ?_⟩, fun position hblock => ?_, next, hholds, ?_⟩
  · rw [hmoves.window]
    exact h.follows.window.recordAll hblocks
  · rw [hsending]
    exact List.forall_mem_singleton.2 hblocks
  · rw [hmoves.nextBlock] at hblock
    rw [← h.skips position (by omega), hmoves.skipThrough]
    cases task.fetcher.skipThrough with
    | none => rfl
    | some through =>
      by_cases hthrough : page.lastBlock.number < through.block
      · simp [Option.filter, hthrough]
      · have hlt : through < position := Or.inl (by omega)
        simp [Option.filter, hthrough, hlt]
  · rw [hidle, List.append_nil] at hcarries
    rw [hsending, hmoves.nextBlock]
    refine hcarries.append ⟨hmoves.lastBlock ▸ hrange, hevents, ?_⟩
    exact congrArg (·.number + 1) hmoves.lastBlock

end ChainIndexer
