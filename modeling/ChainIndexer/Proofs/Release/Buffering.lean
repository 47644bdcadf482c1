import ChainIndexer.Proofs.Release.Reports

/-!
# What a lane buffers

A lane takes an item from its queue only while it has nothing pending, so a full queue holds back
the fetcher. As long as the rest of a unit is given back before the lane takes anything more, all
that is pending is the rest of one batch, and a lane with its queue never holds events of more
batches than the queue has room for and one.
-/

namespace ChainIndexer

/-- The events of the last of some items that brings any. -/
def lastEvents (items : List QueueItem) : List Event :=
  (items.map (·.events)).foldl (fun last events => if events.isEmpty then last else events) []

theorem lastEvents_concat (items : List QueueItem) (item : QueueItem) :
    lastEvents (items ++ [item]) =
      if item.events.isEmpty then lastEvents items else item.events := by
  rw [lastEvents, List.map_append, List.foldl_append]
  rfl

theorem lastEvents_eq (items : List QueueItem) :
    lastEvents items = [] ∨ ∃ batch, .batch batch ∈ items ∧ lastEvents items = batch.events := by
  induction items using List.reverseRecOn with
  | nil => exact Or.inl rfl
  | append_singleton rest item ih =>
    rw [lastEvents_concat]
    by_cases hnone : item.events.isEmpty = true
    · rw [if_pos hnone]
      refine ih.imp_right ?_
      rintro ⟨batch, hmem, heq⟩
      exact ⟨batch, List.mem_append_left _ hmem, heq⟩
    · rw [if_neg hnone]
      cases item with
      | batch batch =>
        exact Or.inr ⟨batch, List.mem_append_right _ List.mem_cons_self, rfl⟩
      | reorg reorg => exact Or.inl rfl
      | finished => exact Or.inl rfl

/-- Whether no events stand behind the end of a chain. -/
def NothingBehindFinished (items : List QueueItem) : Prop :=
  ∀ before after, items = before ++ .finished :: after → eventsOf after = []

namespace Lane

/-- Whether a lane that takes some items one by one has nothing pending, and no reorg, before each
of them. -/
def TakesIdly : Lane → List QueueItem → Prop
  | _, [] => True
  | lane, item :: rest => lane.pending = [] ∧ lane.reorg = none ∧ (lane.absorb item).TakesIdly rest

/-- Whether a lane has taken some items from its queue, each while it was idle. -/
structure Refills (lane after : Lane) (taken : List QueueItem) : Prop where
  items : lane.queue.items = taken ++ after.queue.items
  idle : lane.TakesIdly taken
  after : ∃ isClosed, after = { taken.foldl absorb lane with
    queue := { lane.queue with items := after.queue.items }, isClosed := isClosed }

/-- Whether what is pending is the rest of some events, which are the rest of the last batch with
events that the lane has absorbed. None are left while it has a reorg, nor when it is finished,
unless it absorbed events since. -/
structure Buffers (lane : Lane) (left : List Event) (absorbed : List QueueItem) : Prop where
  pending : lane.pending <:+ left
  batch : left <:+ lastEvents absorbed
  reorg : lane.reorg ≠ none → left = []
  finished : lane.isFinished = true → ∃ before after, absorbed = before ++ .finished :: after ∧
    (eventsOf after = [] → left = [])

variable {lane after : Lane} {left : List Event} {absorbed taken : List QueueItem}

/-! ### Taking items from the queue -/

theorem drainItems_eq (lane : Lane) (items : List QueueItem) :
    ∃ taken left isClosed, items = taken ++ left ∧ lane.TakesIdly taken ∧
      lane.drainItems items = { taken.foldl absorb lane with
        queue := { lane.queue with items := left }, isClosed := isClosed } := by
  induction items generalizing lane with
  | nil =>
    rw [drainItems]
    split
    next => exact ⟨[], [], true, rfl, trivial, rfl⟩
    next => exact ⟨[], [], lane.isClosed, rfl, trivial, rfl⟩
  | cons item rest ih =>
    rw [drainItems]
    split
    next hfree =>
      simp only [Bool.and_eq_true, List.isEmpty_iff, Option.isNone_iff_eq_none] at hfree
      obtain ⟨taken, left, isClosed, hitems, hidle, heq⟩ := ih (lane.absorb item)
      refine ⟨item :: taken, left, isClosed, congrArg (item :: ·) hitems,
        ⟨hfree.1.1, hfree.1.2, hidle⟩, ?_⟩
      rw [heq, absorb_queue, List.foldl_cons]
    next => exact ⟨[], item :: rest, lane.isClosed, rfl, trivial, rfl⟩

theorem refills_drainReady (lane : Lane) : ∃ taken, lane.Refills lane.drainReady taken := by
  obtain ⟨taken, left, isClosed, hitems, hidle, heq⟩ := drainItems_eq lane lane.queue.items
  have hleft : lane.drainReady.queue.items = left := congrArg (·.queue.items) heq
  refine ⟨taken, hleft ▸ hitems, hidle, isClosed, ?_⟩
  rw [hleft]
  exact heq

theorem refills_waitItem (h : lane.isWaitable = true) :
    ∃ taken, lane.Refills (lane.waitItem.getD lane) taken := by
  obtain ⟨hpending, -, -, hreorg⟩ := isWaitable_iff.1 h
  cases hitems : lane.queue.items with
  | nil =>
    rw [waitItem, hitems]
    cases lane.queue.hasSender with
    | true => exact ⟨[], rfl, trivial, lane.isClosed, rfl⟩
    | false => exact ⟨[], rfl, trivial, true, rfl⟩
  | cons item rest =>
    rw [waitItem, hitems, Option.getD_some]
    refine ⟨[item], ?_, ⟨hpending, hreorg, trivial⟩, lane.isClosed, ?_⟩
    · rw [absorb_queue, hitems]
      rfl
    · cases item <;> rfl

/-! ### What is buffered -/

/-- Events that were left may be dropped. -/
theorem Buffers.pending_only (h : lane.Buffers left absorbed) :
    lane.Buffers lane.pending absorbed := by
  refine ⟨List.suffix_refl _, h.pending.trans h.batch, fun hreorg => ?_, fun hfinished => ?_⟩
  · exact List.suffix_nil.1 (h.reorg hreorg ▸ h.pending)
  · obtain ⟨before, after, heq, hnone⟩ := h.finished hfinished
    exact ⟨before, after, heq, fun hafter => List.suffix_nil.1 (hnone hafter ▸ h.pending)⟩

theorem Buffers.absorb (h : lane.Buffers left absorbed) (item : QueueItem)
    (hpending : lane.pending = []) (hreorg : lane.reorg = none) :
    (lane.absorb item).Buffers (lane.absorb item).pending (absorbed ++ [item]) := by
  have hevents : (lane.absorb item).pending = item.events := by
    rw [absorb_pending, hpending, List.nil_append]
  rw [hevents]
  refine ⟨hevents ▸ List.suffix_refl _, ?_, fun hsome => ?_, fun hfinished => ?_⟩
  · by_cases hnone : item.events.isEmpty = true
    · rw [List.isEmpty_iff.1 hnone]
      exact List.nil_suffix
    · have hlast : lastEvents (absorbed ++ [item]) = item.events := by
        rw [lastEvents_concat, if_neg hnone]
      exact hlast ▸ List.suffix_refl _
  · cases item with
    | batch batch => exact absurd hreorg hsome
    | reorg reorg => rfl
    | finished => rfl
  · by_cases hbefore : lane.isFinished = true
    · obtain ⟨before, after, rfl, -⟩ := h.finished hbefore
      refine ⟨before, after ++ [item], by rw [List.append_assoc, List.cons_append], fun hnone => ?_⟩
      rw [eventsOf_append, List.append_eq_nil_iff] at hnone
      simpa using hnone.2
    · cases item with
      | batch batch => exact absurd hfinished hbefore
      | reorg reorg => exact absurd hfinished hbefore
      | finished => exact ⟨absorbed, [], rfl, fun _ => rfl⟩

theorem Buffers.absorbAll (h : lane.Buffers left absorbed) (hidle : lane.TakesIdly taken) :
    (taken.foldl Lane.absorb lane).Buffers (taken.foldl Lane.absorb lane).pending
      (absorbed ++ taken) := by
  induction taken generalizing lane left absorbed with
  | nil =>
    rw [List.append_nil]
    exact h.pending_only
  | cons item others ih =>
    obtain ⟨hpending, hreorg, hrest⟩ := hidle
    have hothers := ih (h.absorb item hpending hreorg) hrest
    rwa [List.append_assoc] at hothers

theorem Buffers.of_lane {after : Lane} (h : lane.Buffers left absorbed)
    (hpending : after.pending <:+ left) (hreorg : after.reorg = none ∨ after.reorg = lane.reorg)
    (hfinished : after.isFinished = lane.isFinished) : after.Buffers left absorbed := by
  refine ⟨hpending, h.batch, fun hsome => ?_, hfinished ▸ h.finished⟩
  rcases hreorg with hnone | hsame
  · exact absurd hnone hsome
  · exact h.reorg (hsame ▸ hsome)

theorem Refills.buffers (h : lane.Refills after taken) (hbuffers : lane.Buffers left absorbed) :
    after.Buffers after.pending (absorbed ++ taken) := by
  obtain ⟨isClosed, heq⟩ := h.after
  rw [heq]
  exact (hbuffers.absorbAll h.idle).of_lane (List.suffix_refl _) (Or.inr rfl) rfl

end Lane

/-! ### Runs of a lane -/

/-- A lane with its queue, what its fetcher pushed, and the events taken last. -/
structure BufferRun where
  lane : Lane
  pushed : List QueueItem
  /-- The events taken since the lane last took an item, but for those given back. -/
  unit : List Event
  /-- Whether the lane took an item from its queue since it gave these events. -/
  isStale : Bool
deriving DecidableEq

namespace BufferRun

def start (chain : ChainId) (depth : Nat) : BufferRun := ⟨.start chain depth, [], [], false⟩

/-- The items that are not in the queue any more. -/
def absorbed (run : BufferRun) : List QueueItem :=
  run.pushed.take (run.pushed.length - run.lane.queue.items.length)

/-- Has the lane take items from its queue. -/
def refill (run : BufferRun) (lane : Lane) : BufferRun :=
  { run with
    lane := lane
    isStale := run.isStale || lane.queue.items.length != run.lane.queue.items.length }

/-- Takes events from the lane. -/
def give (run : BufferRun) (events : List Event) (lane : Lane) : BufferRun :=
  { run with
    lane := lane
    unit := if run.isStale then events else run.unit ++ events
    isStale := false }

def step (run : BufferRun) : LaneMove → BufferRun
  | .push item =>
    { run with
      lane := { run.lane with queue := run.lane.queue.push item }
      pushed := run.pushed ++ [item] }
  | .close => { run with lane := { run.lane with queue := run.lane.queue.close } }
  | .drain => run.refill run.lane.drainReady
  | .wait => run.refill (run.lane.waitItem.getD run.lane)
  | .pop => run.give run.lane.popFront.1.toList run.lane.popFront.2
  | .take maxEvents => run.give (run.lane.takeFront maxEvents).1 (run.lane.takeFront maxEvents).2
  | .giveBack kept =>
    { run with lane := run.lane.restore (run.unit.drop kept), unit := run.unit.take kept }
  | .takeReorg => { run with lane := run.lane.takeReorg.2 }
  | .report => { run with lane := (run.lane.progress run.unit).2 }

def play (run : BufferRun) (moves : List LaneMove) : BufferRun := moves.foldl step run

/-- Whether a fetcher or an orderer may make a move: a full queue takes no item, and only lanes that
can be waited for are. -/
def allows (run : BufferRun) : LaneMove → Bool
  | .push _ => !run.lane.queue.isFull
  | .wait => run.lane.isWaitable
  | _ => true

/-- Whether a move gives back nothing that was taken before the last item. -/
def isPrompt (run : BufferRun) : LaneMove → Bool
  | .giveBack kept => !run.isStale || decide (run.unit.length ≤ kept)
  | _ => true

/-- Whether each of some moves passes a test where it is made. -/
def each (test : BufferRun → LaneMove → Bool) : BufferRun → List LaneMove → Bool
  | _, [] => true
  | run, move :: rest => test run move && each test (run.step move) rest

/-- What is left of the last batch: what is pending, behind the events taken since. -/
def left (run : BufferRun) : List Event :=
  if run.isStale then run.lane.pending else run.unit ++ run.lane.pending

/-- Whether the lane absorbed some of the pushed items, and the others are in a queue with room for
them. -/
structure Fed (run : BufferRun) (depth : Nat) (absorbed : List QueueItem) : Prop where
  pushed : run.pushed = absorbed ++ run.lane.queue.items
  capacity : run.lane.queue.depth = max depth 1
  room : run.lane.queue.items.length ≤ max depth 1

variable {run : BufferRun} {chain : ChainId} {depth : Nat} {absorbed : List QueueItem}

theorem Fed.absorbed_eq (h : run.Fed depth absorbed) : run.absorbed = absorbed := by
  rw [BufferRun.absorbed, h.pushed]
  exact List.take_left' (by rw [List.length_append, Nat.add_sub_cancel])

/-- Items are taken from the queue while the lane is idle, and then only what is pending is left. -/
theorem Fed.refill (h : run.Fed depth absorbed) {lane : Lane} {taken : List QueueItem}
    (hrefills : run.lane.Refills lane taken) :
    (run.refill lane).Fed depth (absorbed ++ taken) ∧
      (run.lane.Buffers run.left absorbed →
        lane.Buffers (run.refill lane).left (absorbed ++ taken)) := by
  obtain ⟨isClosed, heq⟩ := hrefills.after
  have hlength : run.lane.queue.items.length = taken.length + lane.queue.items.length := by
    rw [hrefills.items, List.length_append]
  refine ⟨⟨?_, ?_, ?_⟩, fun hbuffers => ?_⟩
  · rw [BufferRun.refill, h.pushed, hrefills.items, List.append_assoc]
  · rw [BufferRun.refill, heq]
    exact h.capacity
  · have hroom := h.room
    rw [BufferRun.refill]
    dsimp only
    omega
  · cases taken with
    | nil =>
      have hsame : (lane.queue.items.length != run.lane.queue.items.length) = false := by
        rw [hlength, List.length_nil, Nat.zero_add, bne_self_eq_false]
      have hpending : lane.pending = run.lane.pending := by rw [heq]; rfl
      have hleft : (run.refill lane).left = run.left := by
        rw [left, left, BufferRun.refill, hsame, Bool.or_false, hpending]
      rw [hleft, List.append_nil]
      refine hbuffers.of_lane (hpending ▸ hbuffers.pending) (Or.inr ?_) ?_
      · rw [heq]
        rfl
      · rw [heq]
        rfl
    | cons item others =>
      have hstale : (lane.queue.items.length != run.lane.queue.items.length) = true := by
        rw [hlength, List.length_cons, bne_iff_ne]
        omega
      have hleft : (run.refill lane).left = lane.pending := by
        rw [left, BufferRun.refill, hstale, Bool.or_true, if_pos rfl]
      rw [hleft]
      exact hrefills.buffers hbuffers

theorem pending_suffix_left (run : BufferRun) : run.lane.pending <:+ run.left := by
  rw [left]
  split
  next => exact List.suffix_refl _
  next => exact List.suffix_append _ _

/-- Taking events from the front of what is pending leaves the same of the last batch. -/
theorem left_give {events pending : List Event} {lane : Lane}
    (hpending : run.lane.pending = events ++ pending) (hlane : lane.pending = pending) :
    (run.give events lane).left = run.left := by
  rw [left, left, give, hpending, hlane]
  cases run.isStale with
  | true => rfl
  | false => simp

theorem left_giveBack {kept : Nat} (h : run.isPrompt (.giveBack kept) = true) :
    (run.step (.giveBack kept)).left = run.left := by
  rw [isPrompt, Bool.or_eq_true, Bool.not_eq_true', decide_eq_true_eq] at h
  rw [left, left, step, Lane.restore]
  cases hstale : run.isStale with
  | true =>
    rcases h with hfresh | hkept
    · rw [hstale] at hfresh
      cases hfresh
    · rw [List.drop_eq_nil_of_le hkept]
      rfl
  | false =>
    dsimp only
    rw [if_neg Bool.false_ne_true, if_neg Bool.false_ne_true, ← List.append_assoc,
      List.take_append_drop]

/-- A move takes items from the queue only while the lane is idle. Unless it gives back events too
late, what is left stays the rest of the last batch. -/
theorem Fed.step (h : run.Fed depth absorbed) {move : LaneMove} (hallows : run.allows move = true) :
    ∃ taken, run.lane.TakesIdly taken ∧ (run.step move).Fed depth (absorbed ++ taken) ∧
      (run.isPrompt move = true → run.lane.Buffers run.left absorbed →
        (run.step move).lane.Buffers (run.step move).left (absorbed ++ taken)) := by
  -- All moves but drains and waits leave the queue, and what is left of the last batch.
  have hkeeps : ∀ after : BufferRun, after.Fed depth absorbed →
      (run.isPrompt move = true → after.left = run.left) →
      (after.lane.reorg = none ∨ after.lane.reorg = run.lane.reorg) →
      after.lane.isFinished = run.lane.isFinished →
      ∃ taken, run.lane.TakesIdly taken ∧ after.Fed depth (absorbed ++ taken) ∧
        (run.isPrompt move = true → run.lane.Buffers run.left absorbed →
          after.lane.Buffers after.left (absorbed ++ taken)) := by
    intro after hfed hleft hreorg hfinished
    refine ⟨[], trivial, ?_⟩
    rw [List.append_nil]
    refine ⟨hfed, fun hprompt hbuffers => ?_⟩
    have hpending := after.pending_suffix_left
    rw [hleft hprompt] at hpending ⊢
    exact hbuffers.of_lane hpending hreorg hfinished
  have hqueue : ∀ after : BufferRun, after.pushed = run.pushed →
      after.lane.queue = run.lane.queue → after.Fed depth absorbed :=
    fun after hpushed hsame =>
      ⟨hsame ▸ hpushed ▸ h.pushed, hsame ▸ h.capacity, hsame ▸ h.room⟩
  cases move with
  | push item =>
    refine hkeeps _ ⟨?_, h.capacity, ?_⟩ (fun _ => rfl) (Or.inr rfl) rfl
    · rw [BufferRun.step, h.pushed, List.append_assoc]
      rfl
    · have hroom : run.lane.queue.items.length < max depth 1 := by
        rw [← h.capacity]
        simpa [allows, ItemQueue.isFull] using hallows
      rw [BufferRun.step, ItemQueue.push, List.length_append]
      exact hroom
  | close => exact hkeeps _ ⟨h.pushed, h.capacity, h.room⟩ (fun _ => rfl) (Or.inr rfl) rfl
  | drain =>
    obtain ⟨taken, hrefills⟩ := run.lane.refills_drainReady
    obtain ⟨hfed, hbuffers⟩ := h.refill hrefills
    exact ⟨taken, hrefills.idle, hfed, fun _ => hbuffers⟩
  | wait =>
    obtain ⟨taken, hrefills⟩ := Lane.refills_waitItem hallows
    obtain ⟨hfed, hbuffers⟩ := h.refill hrefills
    exact ⟨taken, hrefills.idle, hfed, fun _ => hbuffers⟩
  | pop =>
    refine hkeeps _ (hqueue _ rfl rfl) (fun _ => left_give ?_ rfl) (Or.inr rfl) rfl
    rw [Lane.popFront]
    cases run.lane.pending <;> rfl
  | take maxEvents =>
    refine hkeeps _ (hqueue _ rfl rfl) (fun _ => left_give ?_ rfl) (Or.inr rfl) rfl
    exact (List.take_append_drop _ _).symm
  | giveBack kept => exact hkeeps _ (hqueue _ rfl rfl) left_giveBack (Or.inr rfl) rfl
  | takeReorg => exact hkeeps _ (hqueue _ rfl rfl) (fun _ => rfl) (Or.inl rfl) rfl
  | report =>
    obtain ⟨unrecorded, hasNewProgress, -, hlane⟩ := run.lane.progress_lane run.unit
    rw [BufferRun.step, hlane]
    exact hkeeps _ (hqueue _ rfl rfl) (fun _ => rfl) (Or.inr rfl) rfl

theorem Fed.start (chain : ChainId) (depth : Nat) : (start chain depth).Fed depth [] :=
  ⟨rfl, rfl, Nat.zero_le _⟩

theorem Fed.play (h : run.Fed depth absorbed) {moves : List LaneMove}
    (hallows : each allows run moves = true) :
    ∃ taken, (run.play moves).Fed depth (absorbed ++ taken) ∧
      (each isPrompt run moves = true → run.lane.Buffers run.left absorbed →
        (run.play moves).lane.Buffers (run.play moves).left (absorbed ++ taken)) := by
  induction moves generalizing run absorbed with
  | nil =>
    refine ⟨[], ?_⟩
    rw [List.append_nil]
    exact ⟨h, fun _ hbuffers => hbuffers⟩
  | cons move rest ih =>
    rw [each, Bool.and_eq_true] at hallows
    obtain ⟨first, -, hfed, hbuffers⟩ := h.step hallows.1
    obtain ⟨later, hfed', hbuffers'⟩ := ih hfed hallows.2
    refine ⟨first ++ later, ?_⟩
    rw [← List.append_assoc]
    refine ⟨hfed', fun hprompt hbefore => ?_⟩
    rw [each, Bool.and_eq_true] at hprompt
    exact hbuffers' hprompt.2 (hbuffers hprompt.1 hbefore)

/-! ### How much is buffered -/

/-- The events of some items come from as many batches at most. -/
theorem exists_batches (items : List QueueItem) :
    ∃ batches : List FetchedBatch, (batches.map QueueItem.batch).Sublist items ∧
      batches.flatMap (·.events) = eventsOf items := by
  induction items with
  | nil => exact ⟨[], List.Sublist.refl _, rfl⟩
  | cons item rest ih =>
    obtain ⟨batches, hsublist, hevents⟩ := ih
    cases item with
    | batch batch =>
      refine ⟨batch :: batches, hsublist.cons_cons _, ?_⟩
      rw [List.flatMap_cons, hevents]
      rfl
    | reorg reorg => exact ⟨batches, hsublist.cons _, hevents⟩
    | finished => exact ⟨batches, hsublist.cons _, hevents⟩

theorem Fed.exists_batches (h : run.Fed depth absorbed)
    (hpending : run.lane.pending <:+ lastEvents absorbed) :
    ∃ batches : List FetchedBatch, batches.length ≤ max depth 1 + 1 ∧
      (batches.map QueueItem.batch).Sublist run.pushed ∧
      run.lane.pending ++ eventsOf run.lane.queue.items <:+ batches.flatMap (·.events) := by
  obtain ⟨queued, hqueued, hevents⟩ := BufferRun.exists_batches run.lane.queue.items
  have hlength : queued.length ≤ max depth 1 := by
    have hle := hqueued.length_le
    rw [List.length_map] at hle
    exact hle.trans h.room
  rw [h.pushed, ← hevents]
  rcases lastEvents_eq absorbed with hnone | ⟨batch, hmem, hlast⟩
  · rw [hnone, List.suffix_nil] at hpending
    refine ⟨queued, by omega, hqueued.trans (List.sublist_append_right _ _), ?_⟩
    rw [hpending]
    exact List.suffix_refl _
  · refine ⟨batch :: queued, Nat.succ_le_succ hlength, ?_, ?_⟩
    · exact (List.singleton_sublist.2 hmem).append hqueued
    · rw [hlast] at hpending
      obtain ⟨before, hbefore⟩ := hpending
      exact ⟨before, by rw [List.flatMap_cons, ← hbefore, List.append_assoc]⟩

/-- A lane takes items from its queue only while nothing is pending, and the queue never holds more
than it has room for. As long as no events are given back after the lane took a further item, all
that is pending is the rest of the last batch with events. Nothing is pending then while there is a
reorg, nor once the lane is finished, if no events were sent behind that. So the lane and its queue
hold events of one batch more than the queue has room for, at most. -/
theorem buffers_one_batch {moves : List LaneMove} (hrun : (start chain depth).play moves = run)
    (hallows : each allows (start chain depth) moves = true) :
    run.pushed = run.absorbed ++ run.lane.queue.items ∧
    run.lane.queue.items.length ≤ max depth 1 ∧
    (∀ move, run.allows move = true → ∃ taken,
      (run.step move).absorbed = run.absorbed ++ taken ∧ run.lane.TakesIdly taken) ∧
    (each isPrompt (start chain depth) moves = true →
      run.lane.pending <:+ lastEvents run.absorbed ∧
      (run.lane.reorg ≠ none → run.lane.pending = []) ∧
      (run.lane.isFinished = true → NothingBehindFinished run.pushed → run.lane.pending = []) ∧
      ∃ batches : List FetchedBatch, batches.length ≤ max depth 1 + 1 ∧
        (batches.map QueueItem.batch).Sublist run.pushed ∧
        run.lane.pending ++ eventsOf run.lane.queue.items <:+ batches.flatMap (·.events)) := by
  obtain ⟨absorbed, hfed, hbuffers⟩ := (Fed.start chain depth).play hallows
  rw [hrun, List.nil_append] at hfed hbuffers
  rw [hfed.absorbed_eq]
  refine ⟨hfed.pushed, hfed.room, fun move hmove => ?_, fun hprompt => ?_⟩
  · obtain ⟨taken, hidle, hstep, -⟩ := hfed.step hmove
    exact ⟨taken, hstep.absorbed_eq, hidle⟩
  · have hempty : (start chain depth).lane.Buffers (start chain depth).left [] :=
      ⟨List.suffix_refl _, List.suffix_refl _, fun _ => rfl, fun hfinished => nomatch hfinished⟩
    have hheld := (hbuffers hprompt hempty).pending_only
    refine ⟨hheld.batch, hheld.reorg, fun hfinished hnothing => ?_, hfed.exists_batches hheld.batch⟩
    obtain ⟨before, after, rfl, hnone⟩ := hheld.finished hfinished
    have hbehind : eventsOf (after ++ run.lane.queue.items) = [] := by
      refine hnothing before _ ?_
      rw [hfed.pushed, List.append_assoc, List.cons_append]
    rw [eventsOf_append, List.append_eq_nil_iff] at hbehind
    exact hnone hbehind.1

/-- A batch with one event. -/
def batchAt (block : Nat) : QueueItem :=
  .batch { (default : FetchedBatch) with events := [{ (default : Event) with block := block }] }

theorem buffers_one_batch_sample :
    ∃ run, (start 1 1).play [.push (batchAt 3), .drain, .push (batchAt 12), .take 1, .giveBack 0] =
        run ∧
      each allows (start 1 1)
        [.push (batchAt 3), .drain, .push (batchAt 12), .take 1, .giveBack 0] = true ∧
      each isPrompt (start 1 1)
        [.push (batchAt 3), .drain, .push (batchAt 12), .take 1, .giveBack 0] = true ∧
      run.lane.pending.map (·.block) = [3] ∧ run.lane.pending <:+ lastEvents run.absorbed := by
  have hallows : each allows (start 1 1)
      [.push (batchAt 3), .drain, .push (batchAt 12), .take 1, .giveBack 0] = true := by decide
  have hprompt : each isPrompt (start 1 1)
      [.push (batchAt 3), .drain, .push (batchAt 12), .take 1, .giveBack 0] = true := by decide
  obtain ⟨-, -, -, hheld⟩ := buffers_one_batch rfl hallows
  exact ⟨_, rfl, hallows, hprompt, by decide, (hheld hprompt).1⟩

/-- An event that is given back after the next batch was taken comes before that batch, and events
behind the end of a chain are pending on a finished lane. -/
theorem buffers_more_than_one_batch :
    (∃ moves, each allows (start 1 4) moves = true ∧
      ¬ ((start 1 4).play moves).lane.pending <:+
        lastEvents ((start 1 4).play moves).absorbed) ∧
    ∃ moves, each allows (start 1 4) moves = true ∧
      ((start 1 4).play moves).lane.isFinished = true ∧
      ((start 1 4).play moves).lane.pending ≠ [] :=
  ⟨⟨[.push (batchAt 3), .push (batchAt 12), .drain, .take 1, .drain, .giveBack 0],
      by decide, by decide⟩,
    ⟨[.push .finished, .push (batchAt 3), .drain], by decide, by decide, by decide⟩⟩

end BufferRun

end ChainIndexer
