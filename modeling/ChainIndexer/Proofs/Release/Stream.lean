import ChainIndexer.Proofs.Progress

/-!
# Streams of chains in key order

What a chain brings comes in the order of keys, and nothing that comes after a batch stands before
the end of its last block. What is still ahead on a lane stays in this order as the lane takes items
from its queue.
-/

namespace ChainIndexer

namespace EventKey

theorem not_lt {a b : EventKey} : ¬ a < b ↔ b ≤ a := by
  rw [le_iff]

theorem le_refl (a : EventKey) : a ≤ a := by
  rw [le_iff, lt_iff]
  unfold ChainId
  omega

theorem le_of_lt {a b : EventKey} (h : a < b) : a ≤ b := by
  rw [le_iff, lt_iff]
  rw [lt_iff] at h
  unfold ChainId at *
  omega

theorem le_trans {a b c : EventKey} (hab : a ≤ b) (hbc : b ≤ c) : a ≤ c := by
  rw [le_iff, lt_iff] at *
  unfold ChainId at *
  omega

theorem le_total (a b : EventKey) : a ≤ b ∨ b ≤ a := by
  rw [le_iff, le_iff, lt_iff, lt_iff]
  unfold ChainId
  omega

end EventKey

namespace QueueItem

/-- The events of an item. -/
def events : QueueItem → List Event
  | batch fetched => fetched.events
  | reorg _ => []
  | finished => []

/-- Whether an event at a key may still come after an item. -/
def Allows (chain : ChainId) (key : EventKey) : QueueItem → Prop
  | batch fetched => Lane.keyAfter chain fetched.lastBlock ≤ key
  | reorg _ => True
  | finished => False

def isReorg : QueueItem → Bool
  | reorg _ => true
  | _ => false

end QueueItem

/-- The events that items bring. -/
def eventsOf (items : List QueueItem) : List Event := items.flatMap (·.events)

@[simp]
theorem eventsOf_nil : eventsOf [] = [] := rfl

@[simp]
theorem eventsOf_cons (item : QueueItem) (rest : List QueueItem) :
    eventsOf (item :: rest) = item.events ++ eventsOf rest := rfl

@[simp]
theorem eventsOf_append (first second : List QueueItem) :
    eventsOf (first ++ second) = eventsOf first ++ eventsOf second := List.flatMap_append

/-- Whether items are what a chain may bring: its own events in the order of keys, none of them
before the end of a batch that comes before them or after the end of the chain. There is no reorg.
-/
structure InKeyOrder (chain : ChainId) (items : List QueueItem) : Prop where
  own : ∀ event ∈ eventsOf items, event.chain = chain
  sorted : (eventsOf items).Pairwise fun a b => a.key ≤ b.key
  after : items.Pairwise fun earlier later =>
    ∀ event ∈ later.events, earlier.Allows chain event.key
  steady : ∀ item ∈ items, item.isReorg = false

namespace Lane

/-- Whether what is pending on a lane and the items that are still to come are in this order. -/
structure Ahead (lane : Lane) (chain : ChainId) (items : List QueueItem) : Prop where
  laneChain : lane.chain = chain
  own : ∀ event ∈ lane.pending ++ eventsOf items, event.chain = chain
  sorted : (lane.pending ++ eventsOf items).Pairwise fun a b => a.key ≤ b.key
  fetched : ∀ block ∈ lane.fetchedThrough, ∀ event ∈ eventsOf items,
    keyAfter chain block ≤ event.key
  finished : lane.isFinished = true → eventsOf items = []
  after : items.Pairwise fun earlier later =>
    ∀ event ∈ later.events, earlier.Allows chain event.key
  steady : lane.reorg = none ∧ ∀ item ∈ items, item.isReorg = false

/-- All events that a lane will still give, if some items come behind its queue. -/
def future (lane : Lane) (coming : List QueueItem) : List Event :=
  lane.pending ++ eventsOf (lane.queue.items ++ coming)

/-- Whether a lane with what comes to it has nothing ahead that was not ahead before, in order if it
was in order before. -/
def Keeps (after before : Lane) (chain : ChainId) (coming' coming : List QueueItem) : Prop :=
  before.Ahead chain (before.queue.items ++ coming) →
    after.Ahead chain (after.queue.items ++ coming') ∧ after.future coming' ⊆ before.future coming

variable {lane : Lane} {chain : ChainId} {item : QueueItem} {items coming : List QueueItem}

theorem Ahead.start (h : InKeyOrder chain items) (depth : Nat) :
    (Lane.start chain depth).Ahead chain items where
  laneChain := rfl
  own := h.own
  sorted := h.sorted
  fetched := fun _ hnone => nomatch hnone
  finished := fun hfinished => nomatch hfinished
  after := h.after
  steady := ⟨rfl, h.steady⟩

theorem isWaitable_iff : lane.isWaitable = true ↔
    lane.pending = [] ∧ lane.isFinished = false ∧ lane.isClosed = false ∧ lane.reorg = none := by
  simp [isWaitable, and_assoc]

theorem absorb_pending (lane : Lane) (item : QueueItem) :
    (lane.absorb item).pending = lane.pending ++ item.events := by
  cases item with
  | batch fetched => rfl
  | reorg reorg => exact (List.append_nil _).symm
  | finished => exact (List.append_nil _).symm

/-- A lane that has waited took the first item of its queue, or learned that none will come. -/
theorem waitItem_eq_some {lane' : Lane} (h : lane.waitItem = some lane') :
    (∃ item rest, lane.queue.items = item :: rest ∧
      lane' = { lane with queue := { lane.queue with items := rest } }.absorb item) ∨
    lane.queue.items = [] ∧ lane.queue.hasSender = false ∧
      lane' = { lane with isClosed := true } := by
  rw [waitItem] at h
  split at h
  next item rest hitems =>
    cases h
    exact Or.inl ⟨item, rest, hitems, rfl⟩
  next hitems =>
    rw [Option.ite_none_left_eq_some, Bool.not_eq_true] at h
    obtain ⟨hsender, h⟩ := h
    cases h
    exact Or.inr ⟨hitems, hsender, rfl⟩

theorem absorb_queue (lane : Lane) (item : QueueItem) : (lane.absorb item).queue = lane.queue := by
  cases item <;> rfl

/-- A lane that takes an item does not look into its queue. -/
theorem absorb_of_queue (lane : Lane) (queued : List QueueItem) (item : QueueItem) :
    { lane with queue := { lane.queue with items := queued } }.absorb item =
      { lane.absorb item with queue := { (lane.absorb item).queue with items := queued } } := by
  cases item <;> rfl

theorem drainItems_of_queue (lane : Lane) (queued items : List QueueItem) :
    { lane with queue := { lane.queue with items := queued } }.drainItems items =
      lane.drainItems items := by
  induction items generalizing lane with
  | nil => rfl
  | cons item rest ih => rw [drainItems, drainItems, absorb_of_queue, ih]

/-- What a lane took while it was waited for it would have taken with the others. -/
theorem drainReady_waitItem {lane' : Lane} (hwaitable : lane.isWaitable = true)
    (hwait : lane.waitItem = some lane') : lane'.drainReady = lane.drainReady := by
  obtain ⟨hpending, -, hopen, hreorg⟩ := isWaitable_iff.1 hwaitable
  obtain ⟨item, rest, hitems, rfl⟩ | ⟨hitems, hsender, rfl⟩ := waitItem_eq_some hwait
  · rw [absorb_of_queue]
    change Lane.drainItems _ rest = lane.drainItems lane.queue.items
    rw [drainItems_of_queue, hitems, drainItems, hpending, hreorg, hopen]
    rfl
  · change Lane.drainItems _ lane.queue.items = lane.drainItems lane.queue.items
    rw [hitems, drainItems, drainItems, hpending, hreorg, hsender]
    rfl

theorem Ahead.absorb (h : lane.Ahead chain (item :: items)) :
    (lane.absorb item).Ahead chain items := by
  obtain ⟨hfirst, hafter⟩ := List.pairwise_cons.1 h.after
  have hlater : ∀ event ∈ eventsOf items, item.Allows chain event.key := by
    intro event hevent
    obtain ⟨later, hmem, hin⟩ := List.mem_flatMap.1 hevent
    exact hfirst later hmem event hin
  have hown := h.own
  have hsorted := h.sorted
  rw [eventsOf_cons, ← List.append_assoc, ← absorb_pending] at hown hsorted
  have hsteady := h.steady.2 item List.mem_cons_self
  have hrest := fun other hother => h.steady.2 other (List.mem_cons_of_mem item hother)
  have hfetched : ∀ block ∈ lane.fetchedThrough, ∀ event ∈ eventsOf items,
      keyAfter chain block ≤ event.key := fun block hblock event hevent =>
    h.fetched block hblock event (List.mem_append_right _ hevent)
  have hfinished : lane.isFinished = true → eventsOf items = [] := fun hdone =>
    (List.append_eq_nil_iff.1 (h.finished hdone)).2
  cases item with
  | batch fetched =>
    refine ⟨h.laneChain, hown, hsorted, ?_, hfinished, hafter, h.steady.1, hrest⟩
    intro block hblock event hevent
    obtain rfl := Option.mem_some.1 hblock
    exact hlater event hevent
  | reorg reorg => cases hsteady
  | finished =>
    refine ⟨h.laneChain, hown, hsorted, hfetched, fun _ => ?_, hafter, h.steady.1, hrest⟩
    exact List.eq_nil_iff_forall_not_mem.2 fun event hevent => hlater event hevent

theorem Ahead.of_lane {lane' : Lane} (h : lane.Ahead chain items)
    (hchain : lane'.chain = lane.chain) (hpending : lane'.pending.Sublist lane.pending)
    (hfetched : lane'.fetchedThrough = lane.fetchedThrough)
    (hfinished : lane'.isFinished = lane.isFinished) (hreorg : lane'.reorg = lane.reorg) :
    lane'.Ahead chain items where
  laneChain := hchain.trans h.laneChain
  own := fun event hevent => h.own event ((hpending.append_right _).subset hevent)
  sorted := h.sorted.sublist (hpending.append_right _)
  fetched := hfetched ▸ h.fetched
  finished := hfinished ▸ h.finished
  after := h.after
  steady := ⟨hreorg.trans h.steady.1, h.steady.2⟩

/-- Draining a lane keeps what is ahead on it. -/
theorem Ahead.drainItems (h : lane.Ahead chain (items ++ coming)) :
    (lane.drainItems items).Ahead chain ((lane.drainItems items).queue.items ++ coming) ∧
      (lane.drainItems items).future coming = lane.pending ++ eventsOf (items ++ coming) := by
  refine drainItems_induction (P := fun lane' rest => lane'.Ahead chain (rest ++ coming) ∧
    lane'.pending ++ eventsOf (rest ++ coming) = lane.pending ++ eventsOf (items ++ coming))
    ⟨h, rfl⟩ ?_ ?_
  · rintro lane' rest isClosed ⟨hahead, hfuture⟩
    exact ⟨hahead.of_lane rfl (List.Sublist.refl _) rfl rfl rfl, hfuture⟩
  · rintro lane' item rest - ⟨hahead, hfuture⟩
    refine ⟨hahead.absorb, ?_⟩
    rw [← hfuture, absorb_pending, List.append_assoc]
    rfl

theorem Keeps.refl (lane : Lane) (chain : ChainId) (coming : List QueueItem) :
    lane.Keeps lane chain coming coming := fun h => ⟨h, List.Subset.refl _⟩

theorem keeps_drainReady (lane : Lane) : lane.drainReady.Keeps lane chain coming coming := by
  intro h
  obtain ⟨hahead, hfuture⟩ := h.drainItems
  exact ⟨hahead, hfuture ▸ List.Subset.refl _⟩

/-- An item that comes to the queue was ahead before. -/
theorem keeps_push (lane : Lane) :
    { lane with queue := lane.queue.push item }.Keeps lane chain coming (item :: coming) := by
  have hitems : (lane.queue.push item).items ++ coming = lane.queue.items ++ (item :: coming) :=
    List.append_assoc ..
  intro h
  rw [future, future, hitems]
  exact ⟨h.of_lane rfl (List.Sublist.refl _) rfl rfl rfl, List.Subset.refl _⟩

theorem keeps_close (lane : Lane) :
    { lane with queue := lane.queue.close }.Keeps lane chain coming coming := fun h =>
  ⟨h.of_lane rfl (List.Sublist.refl _) rfl rfl rfl, List.Subset.refl _⟩

theorem keeps_waitItem {lane' : Lane} (hwait : lane.waitItem = some lane') :
    lane'.Keeps lane chain coming coming := by
  intro h
  obtain ⟨item, rest, hitems, rfl⟩ | ⟨-, -, rfl⟩ := waitItem_eq_some hwait
  · rw [hitems, List.cons_append] at h
    have hqueue : { lane with queue := { lane.queue with items := rest } }.Ahead chain
        (item :: (rest ++ coming)) := h.of_lane rfl (List.Sublist.refl _) rfl rfl rfl
    refine ⟨?_, ?_⟩
    · rw [absorb_queue]
      exact hqueue.absorb
    · rw [future, future, absorb_pending, absorb_queue, hitems, List.cons_append, eventsOf_cons,
        List.append_assoc]
      exact List.Subset.refl _
  · exact ⟨h.of_lane rfl (List.Sublist.refl _) rfl rfl rfl, List.Subset.refl _⟩

theorem keeps_progress (lane : Lane) (committed : List Event) :
    (lane.progress committed).2.Keeps lane chain coming coming := by
  intro h
  obtain ⟨unrecorded, hasNewProgress, -, hlane⟩ := lane.progress_lane committed
  rw [hlane]
  exact ⟨h.of_lane rfl (List.Sublist.refl _) rfl rfl rfl, List.Subset.refl _⟩

/-- A lane keeps what is ahead if some of its events are taken away. -/
theorem keeps_pending {pending : List Event} (h : pending.Sublist lane.pending) :
    { lane with pending := pending }.Keeps lane chain coming coming := fun hahead =>
  ⟨hahead.of_lane rfl h rfl rfl rfl, (h.append_right _).subset⟩

end Lane

end ChainIndexer
