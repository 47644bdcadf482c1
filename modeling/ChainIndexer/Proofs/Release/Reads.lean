import ChainIndexer.Proofs.Release.Bounds

/-!
# Lanes that read streams

Each chain brings a stream of items, of which its lane has read a part. Since the lane keeps what it
has read and not yet given away, the events that are still ahead on it are the rest of the stream,
whatever batches the stream was cut into. An event that is released in order then stands before all
that is ahead, except on lanes that are live with nothing pending.
-/

namespace ChainIndexer

namespace EventKey

theorem lt_of_lt_of_le {a b c : EventKey} (hab : a < b) (hbc : b ≤ c) : a < c := by
  rw [le_iff, lt_iff] at *
  unfold ChainId at *
  omega

theorem lt_of_le_of_chain_ne {a b : EventKey} (h : a ≤ b) (hchain : a.chain ≠ b.chain) : a < b := by
  rw [le_iff, lt_iff] at *
  unfold ChainId at *
  omega

/-- Before the end of a block stands only what also stands before all later events of the chain. -/
theorem lt_of_lt_keyAfter {key : EventKey} {event : Event} {block : Block}
    (h : key < Lane.keyAfter event.chain block) (hchain : key.chain ≠ event.chain)
    (htime : block.timestamp ≤ event.timestamp) : key < event.key := by
  rw [lt_iff] at *
  simp only [Lane.keyAfter, Event.key] at h ⊢
  unfold ChainId at *
  omega

end EventKey

/-- Whether an event may come after an item: its block is not older than the end of a batch, and
nothing comes after the end of the chain. -/
def QueueItem.AllowsTime (event : Event) : QueueItem → Prop
  | batch fetched => fetched.lastBlock.timestamp ≤ event.timestamp
  | reorg _ => True
  | finished => False

instance (event : Event) : DecidablePred (QueueItem.AllowsTime event)
  | .batch fetched =>
    inferInstanceAs (Decidable (fetched.lastBlock.timestamp ≤ event.timestamp))
  | .reorg _ => inferInstanceAs (Decidable True)
  | .finished => inferInstanceAs (Decidable False)

/-- Whether items are a stream of a chain: its own events, each with a higher key than the ones
before, and in time behind the batches before. -/
structure InStrictOrder (chain : ChainId) (items : List QueueItem) : Prop where
  own : ∀ event ∈ eventsOf items, event.chain = chain
  sorted : (eventsOf items).Pairwise fun a b => a.key < b.key
  after : items.Pairwise fun earlier later => ∀ event ∈ later.events, earlier.AllowsTime event

theorem InStrictOrder.allows {chain : ChainId} {read rest : List QueueItem}
    (h : InStrictOrder chain (read ++ rest)) {item : QueueItem} (hitem : item ∈ read) :
    ∀ event ∈ eventsOf rest, item.AllowsTime event := by
  intro event hevent
  obtain ⟨later, hlater, hmem⟩ := List.mem_flatMap.1 hevent
  exact (List.pairwise_append.1 h.after).2.2 item hitem later hlater event hmem

namespace Lane

/-- Whether a lane has read items, and some of their events were taken from it. -/
structure HasRead (lane : Lane) (chain : ChainId) (read : List QueueItem) (taken : List Event) :
    Prop where
  laneChain : lane.chain = chain
  events : taken ++ lane.pending = eventsOf read
  fetched : ∀ block ∈ lane.fetchedThrough, ∃ batch, .batch batch ∈ read ∧ batch.lastBlock = block
  finished : lane.isFinished = true → .finished ∈ read

/-- Whether a lane has read a part of a stream of which the rest is in its queue or comes. -/
def Reads (lane : Lane) (chain : ChainId) (stream coming : List QueueItem) (taken : List Event) :
    Prop :=
  ∃ read, stream = read ++ (lane.queue.items ++ coming) ∧ lane.HasRead chain read taken

/-- Whether an ordered release does not wait for a lane that may still go on. -/
def isPassed (lane : Lane) : Bool := lane.isLive && !lane.isFinished && lane.pending.isEmpty

variable {lane lane' : Lane} {chain : ChainId} {read stream coming : List QueueItem}
  {item : QueueItem} {taken : List Event}

theorem Reads.start (stream : List QueueItem) (depth : Nat) :
    (Lane.start chain depth).Reads chain stream stream [] :=
  ⟨[], rfl, rfl, rfl, (fun _ hnone => nomatch hnone), fun hfinished => nomatch hfinished⟩

theorem HasRead.of_lane (h : lane.HasRead chain read taken) (hchain : lane'.chain = lane.chain)
    (hpending : lane'.pending = lane.pending)
    (hfetched : lane'.fetchedThrough = lane.fetchedThrough)
    (hfinished : lane'.isFinished = lane.isFinished) : lane'.HasRead chain read taken :=
  ⟨hchain.trans h.laneChain, hpending ▸ h.events, hfetched ▸ h.fetched, hfinished ▸ h.finished⟩

theorem HasRead.absorb (h : lane.HasRead chain read taken) (item : QueueItem) :
    (lane.absorb item).HasRead chain (read ++ [item]) taken := by
  have hevents : taken ++ (lane.absorb item).pending = eventsOf (read ++ [item]) := by
    rw [absorb_pending, ← List.append_assoc, h.events, eventsOf_append, eventsOf_cons, eventsOf_nil,
      List.append_nil]
  have hold : ∀ other ∈ read, other ∈ read ++ [item] := fun other hother =>
    List.mem_append_left _ hother
  have hfetched : ∀ block ∈ lane.fetchedThrough,
      ∃ batch, .batch batch ∈ read ++ [item] ∧ batch.lastBlock = block := fun block hblock => by
    obtain ⟨batch, hbatch, heq⟩ := h.fetched block hblock
    exact ⟨batch, hold _ hbatch, heq⟩
  cases item with
  | batch fetched =>
    refine ⟨h.laneChain, hevents, fun block hblock => ?_, fun hdone => hold _ (h.finished hdone)⟩
    exact ⟨fetched, List.mem_append_right _ List.mem_cons_self, Option.mem_some.1 hblock⟩
  | reorg reorg =>
    exact ⟨h.laneChain, hevents, hfetched, fun hdone => hold _ (h.finished hdone)⟩
  | finished =>
    exact ⟨h.laneChain, hevents, hfetched,
      fun _ => List.mem_append_right _ List.mem_cons_self⟩

/-- A drained lane has read the first items of its queue and left the others there. -/
theorem HasRead.drainItems {items : List QueueItem} (h : lane.HasRead chain read taken)
    (hstream : stream = read ++ (items ++ coming)) :
    (lane.drainItems items).Reads chain stream coming taken := by
  refine drainItems_induction (P := fun lane' rest => ∃ read', stream = read' ++ (rest ++ coming) ∧
    lane'.HasRead chain read' taken) ⟨read, hstream, h⟩ ?_ ?_
  · rintro lane' rest isClosed ⟨read', hrest, hread⟩
    exact ⟨read', hrest, hread.of_lane rfl rfl rfl rfl⟩
  · rintro lane' item rest - ⟨read', hrest, hread⟩
    refine ⟨read' ++ [item], ?_, hread.absorb item⟩
    rw [hrest, List.append_assoc]
    rfl

theorem Reads.of_lane (h : lane.Reads chain stream coming taken) (hchain : lane'.chain = lane.chain)
    (hitems : lane'.queue.items = lane.queue.items) (hpending : lane'.pending = lane.pending)
    (hfetched : lane'.fetchedThrough = lane.fetchedThrough)
    (hfinished : lane'.isFinished = lane.isFinished) : lane'.Reads chain stream coming taken := by
  obtain ⟨read, hstream, hread⟩ := h
  exact ⟨read, hitems ▸ hstream, hread.of_lane hchain hpending hfetched hfinished⟩

theorem Reads.drainReady (h : lane.Reads chain stream coming taken) :
    lane.drainReady.Reads chain stream coming taken := by
  obtain ⟨read, hstream, hread⟩ := h
  exact hread.drainItems hstream

/-- An item that was still to come is in the queue now. -/
theorem Reads.push (h : lane.Reads chain stream (item :: coming) taken) :
    { lane with queue := lane.queue.push item }.Reads chain stream coming taken := by
  obtain ⟨read, hstream, hread⟩ := h
  refine ⟨read, ?_, hread.of_lane rfl rfl rfl rfl⟩
  rw [hstream, ItemQueue.push, List.append_assoc]
  rfl

theorem Reads.waitItem (h : lane.Reads chain stream coming taken)
    (hwait : lane.waitItem = some lane') : lane'.Reads chain stream coming taken := by
  obtain ⟨item, rest, hitems, rfl⟩ | ⟨-, -, rfl⟩ := waitItem_eq_some hwait
  · obtain ⟨read, hstream, hread⟩ := h
    have hqueue :
        { lane with queue := { lane.queue with items := rest } }.HasRead chain read taken :=
      hread.of_lane rfl rfl rfl rfl
    refine ⟨read ++ [item], ?_, hqueue.absorb item⟩
    rw [hstream, hitems, absorb_queue, List.append_assoc]
    rfl
  · exact h.of_lane rfl rfl rfl rfl rfl

theorem Reads.progress (h : lane.Reads chain stream coming taken) (committed : List Event) :
    (lane.progress committed).2.Reads chain stream coming taken := by
  obtain ⟨unrecorded, hasNewProgress, -, hlane⟩ := lane.progress_lane committed
  rw [hlane]
  exact h.of_lane rfl rfl rfl rfl rfl

/-- Events move between what was taken from a lane and what is pending on it. -/
theorem Reads.pending (h : lane.Reads chain stream coming taken) {taken' pending : List Event}
    (heq : taken' ++ pending = taken ++ lane.pending) :
    { lane with pending := pending }.Reads chain stream coming taken' := by
  obtain ⟨read, hstream, hread⟩ := h
  exact ⟨read, hstream, hread.laneChain, heq.trans hread.events, hread.fetched, hread.finished⟩

/-- What was taken from a lane and what is still ahead on it is the whole stream. -/
theorem Reads.future (h : lane.Reads chain stream coming taken) :
    taken ++ lane.future coming = eventsOf stream := by
  obtain ⟨read, hstream, hread⟩ := h
  rw [Lane.future, ← List.append_assoc, hread.events, hstream, ← eventsOf_append]

/-- Nothing ahead on a lane stands before the first pending event. -/
theorem Reads.front_le (h : lane.Reads chain stream coming taken)
    (hstream : InStrictOrder chain stream) {front : Event} {others : List Event}
    (hpending : lane.pending = front :: others) :
    ∀ later ∈ lane.future coming, front.key ≤ later.key := by
  have hsorted := hstream.sorted.sublist (h.future ▸ List.sublist_append_right _ _)
  rw [Lane.future, hpending, List.cons_append] at hsorted ⊢
  refine List.forall_mem_cons.2 ⟨EventKey.le_refl _, fun later hlater => ?_⟩
  exact EventKey.le_of_lt ((List.pairwise_cons.1 hsorted).1 later hlater)

/-- Once a lane is done nothing is ahead on it. -/
theorem Reads.future_of_done (h : lane.Reads chain stream coming taken)
    (hstream : InStrictOrder chain stream) (hdone : lane.isDone = true) :
    lane.future coming = [] := by
  rw [isDone, Bool.and_eq_true, List.isEmpty_iff] at hdone
  obtain ⟨read, rfl, hread⟩ := h
  rw [Lane.future, hdone.2, List.nil_append]
  exact List.eq_nil_iff_forall_not_mem.2 (hstream.allows (hread.finished hdone.1))

/-- What is ahead on a lane with nothing pending stands behind any key that the lane is not waited
for, unless the lane is passed. -/
theorem Reads.lt_of_cannotPrecede (h : lane.Reads chain stream coming taken)
    (hstream : InStrictOrder chain stream) (hpending : lane.pending = []) {key : EventKey}
    (hchain : key.chain ≠ chain) (hopen : lane.cannotPrecede key = true) :
    lane.isPassed = true ∨ ∀ later ∈ lane.future coming, key < later.key := by
  have hown : ∀ later ∈ lane.future coming, later.chain = chain := fun later hlater =>
    hstream.own later (h.future ▸ List.mem_append_right _ hlater)
  obtain ⟨read, rfl, hread⟩ := h
  rw [Lane.future, hpending, List.nil_append] at hown ⊢
  have hnothing (hfinished : lane.isFinished = true) :
      ∀ later ∈ eventsOf (lane.queue.items ++ coming), key < later.key := fun later hlater =>
    (hstream.allows (hread.finished hfinished) later hlater).elim
  rw [cannotPrecede, Bool.or_eq_true, Bool.or_eq_true, Option.any_eq_true] at hopen
  rcases hopen with (hfinished | hlive) | ⟨block, hblock, hbefore⟩
  · exact Or.inr (hnothing hfinished)
  · cases hfinished : lane.isFinished with
    | true => exact Or.inr (hnothing hfinished)
    | false =>
      refine Or.inl ?_
      rw [isPassed, hlive, hfinished, hpending]
      rfl
  · obtain ⟨batch, hbatch, rfl⟩ := hread.fetched block hblock
    refine Or.inr fun later hlater => ?_
    have htime : batch.lastBlock.timestamp ≤ later.timestamp := hstream.allows hbatch later hlater
    have hkey := of_decide_eq_true hbefore
    rw [hread.laneChain, ← hown later hlater] at hkey
    exact EventKey.lt_of_lt_keyAfter hkey (hown later hlater ▸ hchain) htime

end Lane

/-- An event with the orderer as it was when the event was released. -/
structure Released where
  event : Event
  orderer : Orderer
deriving DecidableEq, Inhabited

namespace Released

/-- Whether the lane of a chain was passed: it was live, not finished, with nothing pending. -/
def Passed (release : Released) (chain : ChainId) : Prop :=
  ∃ lane, release.orderer.lanes.get? chain = some lane ∧ lane.isPassed = true

/-- Whether a released event stands before a later one, or the lane of that one, which is another
lane, was passed. -/
def Precedes (release : Released) (later : Event) : Prop :=
  release.event.key < later.key ∨
    later.chain ≠ release.event.chain ∧ release.Passed later.chain

end Released

/-- Whether released events that follow others stand before all that was ahead in the streams when
they were released. -/
def Sequenced (streams : ChainId → List QueueItem) : List Event → List Released → Prop
  | _, [] => True
  | taken, release :: rest =>
    (∀ chain ahead,
      (taken ++ [release.event]).filter (·.chain = chain) ++ ahead = eventsOf (streams chain) →
        ∀ later ∈ ahead, release.Precedes later) ∧
      Sequenced streams (taken ++ [release.event]) rest

section Sequenced

variable {streams : ChainId → List QueueItem} {taken : List Event} {first second : List Released}

theorem sequenced_append :
    Sequenced streams taken (first ++ second) ↔
      Sequenced streams taken first ∧ Sequenced streams (taken ++ first.map (·.event)) second := by
  induction first generalizing taken with
  | nil => rw [List.nil_append, List.map_nil, List.append_nil, Sequenced, true_and]
  | cons release rest ih =>
    rw [List.cons_append, Sequenced, Sequenced, ih, List.map_cons, and_assoc, List.append_assoc,
      List.singleton_append]

theorem Sequenced.take (h : Sequenced streams taken first) (count : Nat) :
    Sequenced streams taken (first.take count) := by
  rw [← List.take_append_drop count first] at h
  exact (sequenced_append.1 h).1

/-- A released event precedes those released later and all that is left in the streams. -/
theorem Sequenced.precedes (h : Sequenced streams taken first) {left : ChainId → List Event}
    (hleft : ∀ chain, (taken ++ first.map (·.event)).filter (·.chain = chain) ++ left chain =
      eventsOf (streams chain)) :
    (first.Pairwise fun a b => a.Precedes b.event) ∧
      ∀ release ∈ first, ∀ chain, ∀ later ∈ left chain, release.Precedes later := by
  induction first generalizing taken with
  | nil => exact ⟨.nil, fun _ hrelease => absurd hrelease List.not_mem_nil⟩
  | cons release rest ih =>
    obtain ⟨hfirst, hrest⟩ := h
    have hahead : ∀ chain, (taken ++ [release.event]).filter (·.chain = chain) ++
        ((rest.map (·.event)).filter (·.chain = chain) ++ left chain) =
          eventsOf (streams chain) := fun chain => by
      rw [← hleft chain, List.map_cons, ← List.append_assoc, ← List.filter_append,
        List.append_assoc, List.singleton_append]
    obtain ⟨hpairwise, hlater⟩ := ih hrest fun chain => by
      rw [List.append_assoc, List.singleton_append]
      exact hleft chain
    refine ⟨List.pairwise_cons.2 ⟨fun other hother => ?_, hpairwise⟩,
      List.forall_mem_cons.2 ⟨fun chain later hmem => ?_, hlater⟩⟩
    · refine hfirst _ _ (hahead other.event.chain) _ (List.mem_append_left _ ?_)
      exact List.mem_filter.2 ⟨List.mem_map_of_mem hother, decide_eq_true rfl⟩
    · exact hfirst chain _ (hahead chain) later (List.mem_append_right _ hmem)

end Sequenced

namespace Orderer

/-- Whether the lanes have read parts of streams, events were taken from them, and the rest of the
streams comes. A chain without a lane brings nothing. -/
structure Reads (orderer : Orderer) (streams coming : ChainId → List QueueItem)
    (taken : List Event) : Prop where
  lane : ∀ chain lane, orderer.lanes.get? chain = some lane →
    lane.Reads chain (streams chain) (coming chain) (taken.filter (·.chain = chain))
  absent : ∀ chain, orderer.lanes.get? chain = none →
    streams chain = [] ∧ taken.filter (·.chain = chain) = []

/-- What `takeOrdered` releases, with the orderer at each release. -/
def releases : (room : Nat) → Orderer → List Released
  | 0, _ => []
  | room + 1, orderer =>
    match leastFront orderer.lanes.entries with
    | none => []
    | some (chain, event) =>
      match orderer.blocking chain event.key with
      | [] =>
        ⟨event, orderer⟩ :: releases room (orderer.changeLane chain fun lane => lane.popFront.2)
      | _ :: _ => []

variable {orderer after : Orderer} {streams coming coming' : ChainId → List QueueItem}
  {taken events : List Event} {chain : ChainId} {event : Event}

theorem Reads.of_map (h : orderer.Reads streams coming taken) {f : ChainId → Lane → Lane}
    (hget : ∀ chain, after.lanes.get? chain = (orderer.lanes.get? chain).map (f chain))
    (hf : ∀ chain lane, orderer.lanes.get? chain = some lane →
      lane.Reads chain (streams chain) (coming chain) (taken.filter (·.chain = chain)) →
        (f chain lane).Reads chain (streams chain) (coming' chain)
          (taken.filter (·.chain = chain))) :
    after.Reads streams coming' taken := by
  refine ⟨fun chain lane' hlane' => ?_, fun chain hnone => h.absent chain ?_⟩
  · rw [hget] at hlane'
    obtain ⟨lane, hlane, rfl⟩ := Option.map_eq_some_iff.1 hlane'
    exact hf chain lane hlane (h.lane chain lane hlane)
  · rw [hget] at hnone
    exact Option.map_eq_none_iff.1 hnone

theorem Reads.drain (h : orderer.Reads streams coming taken) :
    orderer.drain.Reads streams coming taken :=
  h.of_map (fun chain => get?_drain orderer chain) fun _ _ _ hlane => hlane.drainReady

theorem Reads.progress (h : orderer.Reads streams coming taken) (committed : List Event) :
    (orderer.progress committed).2.2.Reads streams coming taken :=
  h.of_map (fun chain => get?_progress orderer committed chain) fun _ _ _ hlane =>
    hlane.progress _

/-- What one lane still reads all lanes still read. -/
theorem Reads.changeLane (h : orderer.Reads streams coming taken) (chain : ChainId)
    (items : List QueueItem) {f : Lane → Lane}
    (hf : ∀ lane, orderer.lanes.get? chain = some lane →
      lane.Reads chain (streams chain) (coming chain) (taken.filter (·.chain = chain)) →
        (f lane).Reads chain (streams chain) items (taken.filter (·.chain = chain))) :
    (orderer.changeLane chain f).Reads streams (Function.update coming chain items) taken := by
  refine h.of_map (f := fun other => if other = chain then f else id) (fun other => ?_)
    fun other lane hget hlane => ?_
  · rw [Orderer.changeLane, Table.get?_modify]
    split
    next hother => rw [hother]
    next => exact (Option.map_id_apply).symm
  · by_cases hother : other = chain
    · subst hother
      rw [if_pos rfl, Function.update_self]
      exact hf lane hget hlane
    · rw [if_neg hother, Function.update_of_ne hother]
      exact hlane

theorem Reads.gives (h : orderer.Reads streams coming taken) (hgives : orderer.Gives after events) :
    after.Reads streams coming (taken ++ events) := by
  refine ⟨fun chain lane' hget => ?_, fun chain hnone => ?_⟩
  · have hchain := hgives chain
    rw [hget] at hchain
    generalize hbefore : orderer.lanes.get? chain = found at hchain
    cases hchain with
    | lane hpending =>
      refine (h.lane chain _ hbefore).pending ?_
      rw [hpending, List.filter_append, List.append_assoc]
  · have hchain := hgives chain
    rw [hnone] at hchain
    generalize hbefore : orderer.lanes.get? chain = found at hchain
    cases hchain with
    | absent hevents =>
      obtain ⟨hstream, htaken⟩ := h.absent chain hbefore
      rw [List.filter_append, htaken, hevents]
      exact ⟨hstream, rfl⟩

/-- Events that are given back count as not taken. -/
theorem Reads.restore (h : orderer.Reads streams coming (taken ++ events)) :
    (orderer.restore events).Reads streams coming taken := by
  refine ⟨fun chain lane' hget => ?_, fun chain hnone => ?_⟩
  · rw [get?_restore] at hget
    obtain ⟨lane, hlane, rfl⟩ := Option.map_eq_some_iff.1 hget
    refine (h.lane chain lane hlane).pending ?_
    rw [List.filter_append, List.append_assoc]
  · rw [get?_restore] at hnone
    obtain ⟨hstream, htaken⟩ := h.absent chain (Option.map_eq_none_iff.1 hnone)
    rw [List.filter_append] at htaken
    exact ⟨hstream, (List.append_eq_nil_iff.1 htaken).1⟩

/-- What was taken and what is still ahead is all of the streams. -/
theorem Reads.future (h : orderer.Reads streams coming taken) (chain : ChainId) :
    taken.filter (·.chain = chain) ++ orderer.future coming chain = eventsOf (streams chain) := by
  rw [Orderer.future]
  cases hget : orderer.lanes.get? chain with
  | none =>
    obtain ⟨hstream, htaken⟩ := h.absent chain hget
    rw [hstream, htaken]
    rfl
  | some lane => exact (h.lane chain lane hget).future

theorem Reads.sublist_future (h : orderer.Reads streams coming taken) (chain : ChainId) :
    (orderer.future coming chain).Sublist (eventsOf (streams chain)) :=
  h.future chain ▸ List.sublist_append_right _ _

theorem Reads.own (h : orderer.Reads streams coming taken)
    (hstreams : ∀ chain, ∀ event ∈ eventsOf (streams chain), event.chain = chain) :
    orderer.Own := by
  intro chain lane hget event hevent
  refine hstreams chain event ((h.sublist_future chain).subset ?_)
  exact mem_future.2 ⟨lane, hget, List.mem_append_left _ hevent⟩

theorem releases_events (room : Nat) (orderer : Orderer) :
    (releases room orderer).map (·.event) = (takeOrdered room orderer).1 := by
  induction room generalizing orderer with
  | zero => rfl
  | succ room ih =>
    rw [releases, takeOrdered]
    cases leastFront orderer.lanes.entries with
    | none => rfl
    | some front =>
      dsimp only
      cases orderer.blocking front.1 front.2.key with
      | nil => exact congrArg (front.2 :: ·) (ih _)
      | cons first others => rfl

/-- An event that no lane blocks precedes all that is ahead behind it. -/
theorem Reads.precedes (h : orderer.Reads streams coming taken)
    (hstreams : ∀ chain, InStrictOrder chain (streams chain))
    (hleast : leastFront orderer.lanes.entries = some (chain, event))
    (hblocking : orderer.blocking chain event.key = []) (other : ChainId) :
    ∀ later ∈ (orderer.changeLane chain fun lane => lane.popFront.2).future coming other,
      Released.Precedes ⟨event, orderer⟩ later := by
  intro later hlater
  have hown := h.own fun chain => (hstreams chain).own
  obtain ⟨lane, rest, hentry, hpending⟩ := leastFront_eq_some hleast
  have hevent : event.chain = chain := by
    refine hown chain lane (Table.mem_entries_iff.1 hentry) event ?_
    rw [hpending]
    exact List.mem_cons_self
  have hfuture := (gives_popFront hown hleast).future_eq coming other
  by_cases hother : chain = other
  · subst hother
    rw [List.filter_singleton, hevent, decide_eq_true rfl] at hfuture
    have hsorted := (hstreams chain).sorted.sublist (h.sublist_future chain)
    rw [hfuture] at hsorted
    exact Or.inl ((List.pairwise_cons.1 hsorted).1 later hlater)
  · rw [List.filter_singleton, hevent, decide_eq_false hother] at hfuture
    have hmem : later ∈ orderer.future coming other := hfuture ▸ hlater
    have hlaterChain := (hstreams other).own later ((h.sublist_future other).subset hmem)
    have hne : event.key.chain ≠ other := fun heq => hother (hevent.symm.trans heq)
    obtain ⟨lane', hget, hmem'⟩ := mem_future.1 hmem
    have hreads := h.lane other lane' hget
    have hentry' := Table.mem_entries_iff.2 hget
    cases hpending' : lane'.pending with
    | cons front others =>
      have hfront : event.key ≤ front.key := by
        obtain ⟨least, hfound, hle⟩ :=
          leastFront_le orderer.lanes.entries (other, lane') hentry' front (by rw [hpending']; rfl)
        rw [hleast] at hfound
        cases hfound
        exact hle
      have hle := EventKey.le_trans hfront (hreads.front_le (hstreams other) hpending' later hmem')
      exact Or.inl (EventKey.lt_of_le_of_chain_ne hle fun heq => hne (heq.trans hlaterChain))
    | nil =>
      rw [blocking, List.map_eq_nil_iff, List.filter_eq_nil_iff] at hblocking
      have hopen : lane'.cannotPrecede event.key = true := by
        have hentryOpen := hblocking (other, lane') hentry'
        simpa [Lane.hasPending, hpending', Ne.symm hother] using hentryOpen
      rcases hreads.lt_of_cannotPrecede (hstreams other) hpending' hne hopen with hpassed | hlt
      · refine Or.inr ⟨fun heq => hother ?_, lane', hlaterChain ▸ hget, hpassed⟩
        rw [← hlaterChain, heq, hevent]
      · exact Or.inl (hlt later hmem')

/-- The events that are taken together precede what is ahead behind each of them. -/
theorem Reads.releases (h : orderer.Reads streams coming taken)
    (hstreams : ∀ chain, InStrictOrder chain (streams chain)) (room : Nat) :
    Sequenced streams taken (releases room orderer) := by
  induction room generalizing orderer taken with
  | zero => exact True.intro
  | succ room ih =>
    rw [Orderer.releases]
    cases hleast : leastFront orderer.lanes.entries with
    | none => exact True.intro
    | some front =>
      obtain ⟨chain, event⟩ := front
      dsimp only
      cases hblocking : orderer.blocking chain event.key with
      | cons first others => exact True.intro
      | nil =>
        have hpop := h.gives (gives_popFront (h.own fun chain => (hstreams chain).own) hleast)
        refine ⟨fun other ahead hahead later hlater => ?_, ih hpop⟩
        refine h.precedes hstreams hleast hblocking other later ?_
        rwa [List.append_cancel_left (hahead.trans (hpop.future other).symm)] at hlater

end Orderer

end ChainIndexer
