import ChainIndexer.Proofs.Pipeline.Own
import Mathlib.Order.MinMax

/-!
# Lanes that near the end of their chain

A fetcher says that its chain is finished once no block through the end is left to ask for. By then
all blocks through the end are on their way to its lane, or its checkpoint had nothing left before
the fetcher started. What a lane reports as processed once it is finished and has nothing pending
thus reaches the end of the chain, unless the chain was to start only above its end.
-/

namespace ChainIndexer

/-! ### Checkpoints -/

namespace Checkpoint

/-- Whether a chain is done through an end block, or was to start only above it. -/
def Completes (checkpoint : Checkpoint) (endBlock : Nat) : Prop :=
  endBlock < checkpoint.startBlock ∨
    ∃ processed, checkpoint.processed = some processed ∧ endBlock ≤ processed

/-- Whether the last committed event is at most in the block after the processed ones. -/
def Tight (checkpoint : Checkpoint) : Prop :=
  ∀ position ∈ checkpoint.position, position.block ≤ openAfter checkpoint.processed

variable {checkpoint : Checkpoint} {endBlock : Nat} {progress : Progress}

theorem completes_iff : checkpoint.Completes endBlock ↔
    endBlock < checkpoint.startBlock ∨ endBlock < openAfter checkpoint.processed := by
  refine or_congr Iff.rfl ?_
  cases checkpoint.processed with
  | none => simp [openAfter]
  | some processed =>
    simp only [Option.some.injEq, exists_eq_left']
    exact Nat.lt_succ_iff.symm

/-- What lies below the block to resume at is done. -/
theorem Tight.completes (h : checkpoint.Tight) (hlt : endBlock < checkpoint.resumeBlock) :
    checkpoint.Completes endBlock := by
  rw [completes_iff]
  rw [resumeBlock] at hlt
  cases hskip : checkpoint.skipThrough with
  | some position =>
    rw [hskip] at hlt
    have hposition := h position (Option.filter_eq_some_iff.1 hskip).1
    exact Or.inr (Nat.lt_of_lt_of_le hlt hposition)
  | none =>
    rw [hskip] at hlt
    cases hprocessed : checkpoint.processed with
    | none =>
      rw [hprocessed] at hlt
      exact Or.inl hlt
    | some processed =>
      rw [hprocessed] at hlt
      exact (lt_max_iff.1 hlt).symm

theorem openAfter_update (checkpoint : Checkpoint) (progress : Progress) (now : Int) :
    openAfter (checkpoint.update progress now).processed =
      max (openAfter checkpoint.processed) (openAfter progress.processed) := openAfter_max ..

theorem Completes.update (h : checkpoint.Completes endBlock) (progress : Progress) (now : Int) :
    (checkpoint.update progress now).Completes endBlock := by
  rw [completes_iff] at h ⊢
  rw [openAfter_update]
  exact h.imp_right fun hlt => lt_max_of_lt_left hlt

theorem completes_of_progress {processed : Nat} (hprocessed : progress.processed = some processed)
    (hle : endBlock ≤ processed) (now : Int) :
    (checkpoint.update progress now).Completes endBlock := by
  rw [completes_iff, openAfter_update, hprocessed]
  exact Or.inr (lt_max_of_lt_right (Nat.lt_succ_of_le hle))

theorem Tight.update (h : checkpoint.Tight)
    (hprogress : ∀ position ∈ progress.position, position.block ≤ openAfter progress.processed)
    (now : Int) : (checkpoint.update progress now).Tight := by
  intro position hposition
  have hcases : position ∈ checkpoint.position ∨ position ∈ progress.position := by
    change position ∈ max checkpoint.position progress.position at hposition
    cases hold : checkpoint.position with
    | none =>
      rw [hold] at hposition
      cases hnew : progress.position with
      | none =>
        rw [hnew] at hposition
        cases hposition
      | some new =>
        rw [hnew] at hposition
        exact Or.inr hposition
    | some old =>
      rw [hold] at hposition
      cases hnew : progress.position with
      | none =>
        rw [hnew] at hposition
        exact Or.inl hposition
      | some new =>
        rw [hnew] at hposition
        change some (if old < new then new else old) = some position at hposition
        split at hposition
        next => exact Or.inr hposition
        next => exact Or.inl hposition
  rw [openAfter_update]
  rcases hcases with hold | hnew
  · exact Nat.le_trans (h position hold) (Nat.le_max_left ..)
  · exact Nat.le_trans (hprogress position hnew) (Nat.le_max_right ..)

theorem Tight.rewind (h : checkpoint.Tight) (block : Option Nat) :
    (checkpoint.rewind block).Tight := by
  intro position hposition
  obtain ⟨hold, hkept⟩ := Option.filter_eq_some_iff.1 hposition
  have hmin : openAfter (checkpoint.rewind block).processed =
      min (openAfter checkpoint.processed) (openAfter block) := openAfter_min ..
  rw [hmin]
  refine Nat.le_min.2 ⟨h position hold, ?_⟩
  cases block with
  | none => cases hkept
  | some block => exact Nat.le_succ_of_le (of_decide_eq_true hkept)

theorem Tight.fresh (chain : Chain) : (Checkpoint.fresh chain).Tight :=
  fun _ hposition => absurd hposition (Option.not_mem_none _)

theorem Tight.resume (h : checkpoint.Tight) (chain : Chain) : (checkpoint.resume chain).Tight := h

end Checkpoint

/-! ### Lanes -/

/-- Whether a source answers with events through the last block that it says is covered. -/
def ChainSource.AnswersWithin {τ : Type} (source : ChainSource τ) : Prop :=
  ∀ chain fromBlock toBlock watched before page after,
    source.events chain fromBlock toBlock watched before = (.ok page, after) →
      ∀ event ∈ page.events, event.block ≤ page.lastBlock.number

/-- Whether events come in the order of their blocks, through a last one. -/
def RunsThrough (events : List Event) (last : Option Block) : Prop :=
  events.Pairwise (fun a b => a.block ≤ b.block) ∧
    ∀ event ∈ events, ∃ block, last = some block ∧ event.block ≤ block.number

/-- Whether the events of an item come in the order of their blocks, through its last one. -/
def QueueItem.IsOrdered : QueueItem → Prop
  | .batch fetched => RunsThrough fetched.events (some fetched.lastBlock)
  | .reorg _ => True
  | .finished => True

/-- The last block that is fetched once an item is taken. -/
def QueueItem.through (before : Option Block) : QueueItem → Option Block
  | .batch fetched => some fetched.lastBlock
  | .reorg _ => before
  | .finished => before

namespace Lane

variable {lane : Lane}

/-- The last block that is fetched once a lane has taken some items. -/
def through (lane : Lane) (items : List QueueItem) : Option Block :=
  items.foldl QueueItem.through lane.fetchedThrough

theorem through_concat (lane : Lane) (items : List QueueItem) (item : QueueItem) :
    lane.through (items ++ [item]) = item.through (lane.through items) := List.foldl_append ..

theorem fetchedThrough_absorb (lane : Lane) (item : QueueItem) :
    (lane.absorb item).fetchedThrough = item.through lane.fetchedThrough := by
  cases item <;> rfl

end Lane

/-- Whether a chain is fetched through its end, with a last block if one was fetched at all. -/
def Checkpoint.Reaches (checkpoint : Checkpoint) (chain : Chain) (last : Option Block) : Prop :=
  ∃ endBlock, chain.endBlock = some endBlock ∧
    last.elim (checkpoint.Completes endBlock) (endBlock ≤ ·.number)

/-- Whether what a lane has and what its fetcher brings leads to the end of a chain. -/
structure Standing.Nears (standing : Standing) (chain : Chain) : Prop where
  own : standing.IsOf chain.id
  tight : standing.tracked.Tight
  pending : RunsThrough standing.lane.pending standing.lane.fetchedThrough
  ordered : ∀ item ∈ standing.lane.incoming standing.task, item.IsOrdered
  endBlock : standing.task.isFetching = true → standing.task.fetcher.endBlock = chain.endBlock
  next : standing.task.isFetching = true →
    (standing.lane.through (standing.lane.incoming standing.task)).elim
      (∀ endBlock < standing.task.fetcher.nextBlock, standing.tracked.Completes endBlock)
      fun last => standing.task.fetcher.nextBlock = last.number + 1
  ended : standing.lane.isFinished = true ∨ .finished ∈ standing.lane.incoming standing.task →
    standing.task.isFetching = false ∧
      standing.tracked.Reaches chain (standing.lane.through (standing.lane.incoming standing.task))
  last : .finished ∉ (standing.lane.incoming standing.task).dropLast
  nothing : standing.lane.isFinished = true → standing.lane.incoming standing.task = []
  settled : standing.lane.isDone = true → standing.lane.hasNewProgress = false →
    standing.stored = some standing.tracked ∧ standing.tracked.isFinished = true ∧
      ∃ endBlock, chain.endBlock = some endBlock ∧ standing.tracked.Completes endBlock

namespace Standing.Nears

variable {standing : Standing} {chain : Chain}

theorem start {checkpoint : Checkpoint} (htight : checkpoint.Tight) (window : BlockWindow)
    (settings : FetchSettings) (generation clock depth : Nat) (stored : Option Checkpoint) :
    Nears ⟨.start chain.id depth,
      .start (.start chain checkpoint window settings) generation clock, checkpoint, stored⟩
      chain := by
  refine ⟨.start chain checkpoint window settings generation clock depth stored, htight, ?_, ?_,
    fun _ => rfl, fun _ _ hlt => htight.completes hlt, ?_, List.not_mem_nil, nofun, nofun⟩
  · exact ⟨List.Pairwise.nil, fun _ hevent => absurd hevent List.not_mem_nil⟩
  · exact fun _ hitem => absurd hitem List.not_mem_nil
  · rintro (hfinished | hmem)
    · cases hfinished
    · exact absurd hmem List.not_mem_nil

theorem close (h : standing.Nears chain) (hasSender isClosed : Bool) :
    Nears { standing with
      lane := { standing.lane with
        queue := { standing.lane.queue with hasSender := hasSender }, isClosed := isClosed } }
      chain :=
  ⟨h.own.close hasSender isClosed, h.tight, h.pending, h.ordered, h.endBlock, h.next, h.ended,
    h.last, h.nothing, h.settled⟩

theorem absorb (h : standing.Nears chain) {item : QueueItem} {rest : List QueueItem}
    (hitems : standing.lane.queue.items = item :: rest) (hempty : standing.lane.pending = []) :
    Nears { standing with
      lane := { standing.lane with
        queue := { standing.lane.queue with items := rest } }.absorb item } chain := by
  let taken : Lane :=
    { standing.lane with queue := { standing.lane.queue with items := rest } }.absorb item
  have hincoming : standing.lane.incoming standing.task = item :: taken.incoming standing.task :=
    Lane.incoming_absorb _ hitems
  have hthrough : taken.through (taken.incoming standing.task) =
      standing.lane.through (standing.lane.incoming standing.task) := by
    rw [hincoming, Lane.through, Lane.through, Lane.fetchedThrough_absorb]
    rfl
  have hopen : standing.lane.isFinished = false := by
    rw [← Bool.not_eq_true]
    intro hfinished
    rw [h.nothing hfinished] at hincoming
    cases hincoming
  have hordered := h.ordered
  have hnext := h.next
  have hended := h.ended
  have hlast := h.last
  rw [← hthrough] at hnext hended
  rw [hincoming] at hordered hended hlast
  have hfinished : taken.isFinished = true → item = .finished := by
    intro hclosed
    cases item with
    | finished => rfl
    | batch batch =>
      rw [show taken.isFinished = standing.lane.isFinished from rfl, hopen] at hclosed
      cases hclosed
    | reorg reorg =>
      rw [show taken.isFinished = standing.lane.isFinished from rfl, hopen] at hclosed
      cases hclosed
  refine ⟨h.own.absorb hitems, h.tight, ?_, fun other hother => ?_, h.endBlock, hnext,
    fun hdone => hended (Or.inr ?_), fun hmem => hlast ?_, fun hclosed => ?_, fun hdone hnew => ?_⟩
  · cases item with
    | batch batch =>
      have hbatch : RunsThrough batch.events (some batch.lastBlock) :=
        hordered _ List.mem_cons_self
      change RunsThrough (standing.lane.pending ++ batch.events) (some batch.lastBlock)
      rwa [hempty, List.nil_append]
    | reorg reorg => exact h.pending
    | finished => exact h.pending
  · exact hordered other (List.mem_cons_of_mem _ hother)
  · rcases hdone with hclosed | hmem
    · rw [hfinished hclosed]
      exact List.mem_cons_self
    · exact List.mem_cons_of_mem _ hmem
  · rw [List.dropLast_cons_of_ne_nil (List.ne_nil_of_mem (List.dropLast_subset _ hmem))]
    exact List.mem_cons_of_mem _ hmem
  · -- Nothing follows on the item that says that the chain is finished.
    by_contra hmore
    rw [List.dropLast_cons_of_ne_nil hmore, hfinished hclosed] at hlast
    exact hlast List.mem_cons_self
  · cases item with
    | batch batch => cases hnew
    | reorg reorg => exact h.settled hdone hnew
    | finished => cases hnew

theorem drain (h : standing.Nears chain) :
    Nears { standing with lane := standing.lane.drainReady } chain := by
  refine Standing.drained (Q := fun standing => standing.Nears chain) h ?_ ?_
  · exact fun hkept isClosed => hkept.close _ isClosed
  · exact fun hkept hitems hempty => hkept.absorb hitems hempty

end Standing.Nears

/-! ### Reports -/

theorem Lane.report_eq {lane after : Lane} {committed : List Event} {progress : Progress}
    {recorded : List RecordedBlock}
    (h : lane.progress committed = (some (progress, recorded), after)) :
    progress.processed = lane.processed ∧
      progress.position = committed.getLast?.map Event.position ∧
      progress.isFinished = lane.isDone ∧
      ∃ unrecorded, after = { lane with hasNewProgress := false, unrecorded := unrecorded } := by
  obtain ⟨rfl, -, rfl⟩ := progress_eq_some h
  exact ⟨rfl, rfl, rfl, _, rfl⟩

/-- What is committed last is at most in the block after those that a lane reports. -/
theorem RunsThrough.le_openAfter {lane : Lane} {committed rest : List Event}
    (h : RunsThrough (committed ++ rest) lane.fetchedThrough) {event : Event}
    (hevent : event ∈ committed) :
    event.block ≤ openAfter (Lane.processed { lane with pending := rest }) := by
  obtain ⟨hsorted, hthrough⟩ := h
  cases rest with
  | nil =>
    obtain ⟨block, hblock, hle⟩ := hthrough event (List.mem_append_left _ hevent)
    change _ ≤ openAfter (lane.fetchedThrough.map (·.number))
    rw [hblock]
    exact Nat.le_succ_of_le hle
  | cons first others =>
    change _ ≤ openAfter (Word.checkedSub first.block 1)
    rw [openAfter_checkedSub]
    exact (List.pairwise_append.1 hsorted).2.2 event hevent first List.mem_cons_self

namespace Standing.Nears

variable {standing : Standing} {chain : Chain} {committed rest : List Event} {progress : Progress}
  {recorded : List RecordedBlock} {lane : Lane}

theorem tight_reported (h : standing.Nears chain)
    (hpending : standing.lane.pending = committed ++ rest)
    (hprogress : Lane.progress { standing.lane with pending := rest } committed =
      (some (progress, recorded), lane)) (now : Int) (registering : Option Event)
    (hregistering : ∀ event ∈ registering, event.chain = chain.id →
      committed.getLast? = some event) :
    (standing.tracked.update (progress.held registering) now).Tight := by
  obtain ⟨hprocessed, hposition, -, -⟩ := Lane.report_eq hprogress
  have hchain : progress.chain = chain.id :=
    (Lane.reports_progress hprogress).1.trans h.own.chain
  have hruns := h.pending
  rw [hpending] at hruns
  have hplain : ∀ position ∈ progress.position,
      position.block ≤ openAfter progress.processed := by
    intro position hmem
    rw [hposition] at hmem
    obtain ⟨last, hlast, rfl⟩ := Option.map_eq_some_iff.1 hmem
    rw [hprocessed]
    exact hruns.le_openAfter (List.mem_of_getLast? hlast)
  refine h.tight.update ?_ now
  cases registering with
  | none => exact hplain
  | some event =>
    rw [Progress.held, Option.elim_some, Progress.holdBefore]
    split
    next hsame =>
      intro position hmem
      have hbelow := hplain position hmem
      change position ∈ progress.position at hmem
      rw [hposition, hregistering event rfl (hsame.symm.trans hchain)] at hmem
      cases hmem
      change _ ≤ openAfter (min progress.processed (Word.checkedSub event.block 1))
      rw [openAfter_min, openAfter_checkedSub]
      exact Nat.le_min.2 ⟨hbelow, Nat.le_refl _⟩
    next => exact hplain

/-- A lane that reports all that it has, and is finished, has its chain done in the store. -/
theorem report (h : standing.Nears chain) (hpending : standing.lane.pending = committed ++ rest)
    (hprogress : Lane.progress { standing.lane with pending := rest } committed =
      (some (progress, recorded), lane)) (now : Int) :
    Nears ⟨lane, standing.task, standing.tracked.update progress now,
      some (standing.tracked.update progress now)⟩ chain := by
  have hown := h.own.report hpending hprogress (standing.tracked.update progress now)
    (some (standing.tracked.update progress now))
  have htight := h.tight_reported hpending hprogress now none nofun
  obtain ⟨hprocessed, -, hfinished, unrecorded, rfl⟩ := Lane.report_eq hprogress
  have hreaches : ∀ last, standing.tracked.Reaches chain last →
      (standing.tracked.update progress now).Reaches chain last := by
    rintro last ⟨endBlock, hend, hreach⟩
    refine ⟨endBlock, hend, ?_⟩
    cases last with
    | none => exact Checkpoint.Completes.update hreach progress now
    | some block => exact hreach
  refine ⟨hown, htight, ?_, h.ordered, h.endBlock, fun hfetching => ?_,
    fun hended => (h.ended hended).imp_right (hreaches _), h.last, h.nothing, fun hdone _ => ?_⟩
  · obtain ⟨hsorted, hthrough⟩ := h.pending
    rw [hpending] at hsorted hthrough
    exact ⟨(List.pairwise_append.1 hsorted).2.1, fun event hevent =>
      hthrough event (List.mem_append_right _ hevent)⟩
  · have hnext := h.next hfetching
    change Option.elim (standing.lane.through (standing.lane.incoming standing.task)) _ _
    cases hlast : standing.lane.through (standing.lane.incoming standing.task) with
    | none =>
      rw [hlast] at hnext
      exact fun endBlock hlt => (hnext endBlock hlt).update progress now
    | some block =>
      rw [hlast] at hnext
      exact hnext
  · change (standing.lane.isFinished && rest.isEmpty) = true at hdone
    have hfinal := hdone
    rw [Bool.and_eq_true, List.isEmpty_iff] at hdone
    obtain ⟨hclosed, rfl⟩ := hdone
    obtain ⟨-, endBlock, hend, hreach⟩ := h.ended (Or.inl hclosed)
    rw [h.nothing hclosed] at hreach
    refine ⟨rfl, ?_, endBlock, hend, ?_⟩
    · have hreported : progress.isFinished = true := hfinished.trans hfinal
      change (standing.tracked.isFinished || progress.isFinished) = true
      rw [hreported, Bool.or_true]
    · change Option.elim standing.lane.fetchedThrough _ _ at hreach
      cases hlast : standing.lane.fetchedThrough with
      | none =>
        rw [hlast] at hreach
        exact Checkpoint.Completes.update hreach progress now
      | some block =>
        rw [hlast] at hreach
        have hreported : progress.processed = some block.number := by
          rw [hprocessed]
          change standing.lane.fetchedThrough.map (·.number) = some block.number
          rw [hlast, Option.map_some]
        exact Checkpoint.completes_of_progress hreported hreach now

/-! ### Fetchers -/

/-- A fetcher that was still fetching had not said that its chain is finished. -/
theorem of_fetching (h : standing.Nears chain) (hfetching : standing.task.isFetching = true) :
    standing.lane.isFinished = false ∧
      .finished ∉ standing.lane.incoming standing.task := by
  refine ⟨Bool.eq_false_iff.2 fun hfinished => ?_, fun hmem => ?_⟩
  · have hidle := (h.ended (Or.inl hfinished)).1
    rw [hfetching] at hidle
    cases hidle
  · have hidle := (h.ended (Or.inr hmem)).1
    rw [hfetching] at hidle
    cases hidle

/-- What a fetcher does next leads to the end as well if this holds of what it is about to send. -/
theorem with_task (h : standing.Nears chain) (hidle : standing.task.sending = [])
    (hfetching : standing.task.isFetching = true) {task : FetcherTask}
    (hown : IsOf chain.id { standing with task := task })
    (hordered : ∀ item ∈ task.sending, item.IsOrdered)
    (hendBlock : task.isFetching = true → task.fetcher.endBlock = chain.endBlock)
    (hnext : task.isFetching = true →
      (standing.lane.through (standing.lane.incoming task)).elim
        (∀ endBlock < task.fetcher.nextBlock, standing.tracked.Completes endBlock)
        fun last => task.fetcher.nextBlock = last.number + 1)
    (hended : .finished ∈ task.sending → task.isFetching = false ∧
      standing.tracked.Reaches chain (standing.lane.through (standing.lane.incoming task))) :
    Nears { standing with task := task } chain := by
  obtain ⟨hopen, hnone⟩ := h.of_fetching hfetching
  have hqueued := standing.lane.incoming_of_idle hidle
  rw [hqueued] at hnone
  have hitems := h.ordered
  rw [hqueued] at hitems
  refine ⟨hown, h.tight, h.pending, fun item hitem => ?_, hendBlock, hnext, ?_, fun hmem => ?_,
    fun hfinished => ?_, h.settled⟩
  · exact (List.mem_append.1 hitem).elim (hitems item) (hordered item)
  · rintro (hfinished | hmem)
    · rw [hopen] at hfinished
      cases hfinished
    · exact hended ((List.mem_append.1 hmem).resolve_left hnone)
  · refine hnone ?_
    dsimp only [Lane.incoming] at hmem
    cases hsending : task.sending with
    | nil =>
      rw [hsending, List.append_nil] at hmem
      exact List.dropLast_subset _ hmem
    | cons item others =>
      have hothers : others = [] := by
        rw [FetcherTask.sending] at hsending
        split at hsending
        next => exact (List.cons.inj hsending).2.symm
        next => cases hsending
      rwa [hsending, hothers, List.dropLast_concat] at hmem
  · rw [hopen] at hfinished
    cases hfinished

/-- A fetcher that failed brings nothing more. -/
theorem fail (h : standing.Nears chain) (hidle : standing.task.sending = [])
    (hfetching : standing.task.isFetching = true) {task : FetcherTask}
    (hown : IsOf chain.id { standing with task := task }) (hnothing : task.sending = [])
    (hover : task.isFetching = false) : Nears { standing with task := task } chain := by
  refine h.with_task hidle hfetching hown (fun item hitem => ?_) (fun hgoes => ?_)
    (fun hgoes => ?_) fun hmem => ?_
  · rw [hnothing] at hitem
    cases hitem
  · rw [hover] at hgoes
    cases hgoes
  · rw [hover] at hgoes
    cases hgoes
  · rw [hnothing] at hmem
    cases hmem

variable {τ : Type} {context : FetchContext τ} {source : τ} {result : Except FetchError Fetched}
  {state : FetchState τ}

theorem round (h : standing.Nears chain) (hsource : context.source.AnswersOwn)
    (hwithin : context.source.AnswersWithin) (hidle : standing.task.sending = [])
    (hfetching : standing.task.isFetching = true)
    (hround : Fetcher.fetchNext context ⟨standing.task.fetcher, source, 0⟩ = (result, state))
    (clock : Nat) :
    Nears { standing with
      task := { standing.task with fetcher := state.fetcher }.afterRound clock result } chain := by
  have hown := h.own.round hsource hfetching hround clock
  have hqueued := standing.lane.incoming_of_idle hidle
  have hnext := h.next hfetching
  have hendBlock := h.endBlock hfetching
  rw [hqueued] at hnext
  cases Fetcher.round_of_fetchNext hround with
  | finished hend =>
    refine h.with_task hidle hfetching hown (fun item hitem => ?_)
      (fun hgoes => absurd hgoes Bool.false_ne_true)
      (fun hgoes => absurd hgoes Bool.false_ne_true) fun _ => ⟨rfl, ?_⟩
    · rw [List.mem_singleton.1 hitem]
      trivial
    · obtain ⟨endBlock, hlast, hlt⟩ := (Option.any_eq_true ..).1 hend
      refine ⟨endBlock, hendBlock.symm.trans hlast, ?_⟩
      change (standing.lane.through (standing.lane.queue.items ++ [.finished])).elim _ _
      rw [Lane.through_concat, QueueItem.through]
      cases hthrough : standing.lane.through standing.lane.queue.items with
      | none =>
        rw [hthrough] at hnext
        exact hnext endBlock (of_decide_eq_true hlt)
      | some block =>
        rw [hthrough] at hnext
        change standing.task.fetcher.nextBlock = block.number + 1 at hnext
        have hbelow : endBlock < standing.task.fetcher.nextBlock := of_decide_eq_true hlt
        rw [hnext] at hbelow
        exact Nat.le_of_lt_succ hbelow
  | headFailed =>
    exact h.fail hidle hfetching hown rfl rfl
  | eventsFailed =>
    exact h.fail hidle hfetching hown rfl rfl
  | atHead hstays =>
    refine h.with_task hidle hfetching hown (fun _ hitem => absurd hitem List.not_mem_nil)
      (fun _ => hstays.endBlock.trans hendBlock) (fun _ => ?_)
      fun hmem => absurd hmem List.not_mem_nil
    change (standing.lane.through (standing.lane.queue.items ++ [])).elim
      (∀ endBlock < state.fetcher.nextBlock, _) fun last => state.fetcher.nextBlock = _
    rw [List.append_nil, hstays.nextBlock]
    exact hnext
  | @batch head asked answered page hend hasked hhead hle hstays hpage hfollows =>
    refine h.with_task hidle hfetching hown (fun item hitem => ?_)
      (fun _ => hstays.endBlock.trans hendBlock) (fun _ => ?_) fun hmem => ?_
    · rw [List.mem_singleton.1 hitem]
      obtain ⟨fetcher, before, -, hcall⟩ := Fetcher.requestEvents_eq_ok hpage
      refine ⟨(Event.sortByPosition_pairwise _).imp Position.block_le_of_le, fun event hevent => ?_⟩
      refine ⟨page.lastBlock, rfl, hwithin _ _ _ _ _ _ _ hcall event ?_⟩
      exact List.mem_of_mem_filter (Event.mem_sortByPosition.1 hevent)
    · change (standing.lane.through (standing.lane.queue.items ++ [_])).elim _ _
      rw [Lane.through_concat]
      rfl
    · cases List.mem_singleton.1 hmem
  | @fork _ _ _ _ _ located =>
    cases located with
    | error error =>
      exact h.fail hidle hfetching hown rfl rfl
    | ok reorg =>
      refine h.with_task hidle hfetching hown (fun item hitem => ?_)
        (fun hgoes => absurd hgoes Bool.false_ne_true)
        (fun hgoes => absurd hgoes Bool.false_ne_true) fun hmem => ?_
      · rw [List.mem_singleton.1 hitem]
        trivial
      · cases List.mem_singleton.1 hmem

/-- A fetcher that waits for a round to be over stays where it is. -/
theorem pause (h : standing.Nears chain) (hphase : standing.task.phase = .fetch) (dueAt : Nat) :
    Nears { standing with task := standing.task.goOn .take dueAt } chain := by
  have hidle := FetcherTask.sending_of_round (Or.inl hphase)
  have hfetching := FetcherTask.isFetching_of_round (Or.inl hphase)
  have hnext := h.next hfetching
  rw [Lane.incoming, hidle] at hnext
  exact h.with_task hidle hfetching (h.own.pause hphase dueAt)
    (fun _ hitem => absurd hitem List.not_mem_nil) (fun _ => h.endBlock hfetching)
    (fun _ => hnext) fun hmem => absurd hmem List.not_mem_nil

theorem send (h : standing.Nears chain) {item : QueueItem}
    (hphase : standing.task.phase = .send item) (clock : Nat) :
    Nears { standing with
      lane := { standing.lane with queue := standing.lane.queue.push item }
      task := standing.task.goOn (FetcherTask.phaseAfter item) clock } chain := by
  have hsent := standing.lane.incoming_push hphase clock
  have hfetching := FetcherTask.isFetching_phaseAfter hphase clock
  refine ⟨h.own.send hphase clock, h.tight, h.pending, ?_, ?_, ?_, ?_, ?_, ?_, h.settled⟩
  · rw [hsent]
    exact h.ordered
  · rw [hfetching]
    exact h.endBlock
  · rw [hsent, hfetching]
    exact h.next
  · rw [hsent, hfetching]
    exact h.ended
  · rw [hsent]
    exact h.last
  · rw [hsent]
    exact h.nothing

end Standing.Nears

end ChainIndexer
