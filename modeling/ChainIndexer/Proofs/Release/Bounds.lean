import ChainIndexer.Proofs.Orderer
import ChainIndexer.Proofs.Progress
import ChainIndexer.Proofs.Release.Stream
import Mathlib.Data.List.Induction
import Mathlib.Logic.Function.Basic

/-!
# What a released event stands before

An event that is released in order stands before everything still ahead, except on lanes that were
live with nothing pending: for these the orderer does not wait.
-/

namespace ChainIndexer

/-- An event with the chains whose lanes were live with nothing pending when it was released. -/
structure Release where
  event : Event
  idle : List ChainId
deriving DecidableEq, Inhabited

/-- Whether an event may follow a released one: it does not stand before it, or its lane was not
waited for. -/
def Release.Bounds (release : Release) (event : Event) : Prop :=
  event.chain ∈ release.idle ∨ release.event.key ≤ event.key

namespace Orderer

/-- The chains whose lanes are live with nothing pending. -/
def idle (orderer : Orderer) : List ChainId :=
  (orderer.lanes.entries.filter fun entry => entry.2.isLive && entry.2.pending.isEmpty).map (·.1)

/-- What `takeOrdered` releases, with the lanes it does not wait for. -/
def takeReleases : (room : Nat) → Orderer → List Release
  | 0, _ => []
  | room + 1, orderer =>
    match leastFront orderer.lanes.entries with
    | none => []
    | some (chain, event) =>
      match orderer.blocking chain event.key with
      | [] =>
        ⟨event, orderer.idle⟩
          :: takeReleases room (orderer.changeLane chain fun lane => lane.popFront.2)
      | _ :: _ => []

/-- Whether all that is ahead on each lane is in key order, given what comes behind the queues. -/
def Ahead (orderer : Orderer) (coming : ChainId → List QueueItem) : Prop :=
  ∀ chain lane, orderer.lanes.get? chain = some lane →
    lane.Ahead chain (lane.queue.items ++ coming chain)

/-- All events that the lane of a chain will still give. -/
def future (orderer : Orderer) (coming : ChainId → List QueueItem) (chain : ChainId) :
    List Event :=
  (orderer.lanes.get? chain).elim [] fun lane => lane.future (coming chain)

/-- Whether each lane was there before and has nothing ahead that was not ahead before. -/
def Follows (after before : Orderer) (coming' coming : ChainId → List QueueItem) : Prop :=
  ∀ chain lane', after.lanes.get? chain = some lane' →
    ∃ lane, before.lanes.get? chain = some lane ∧
      lane'.Keeps lane chain (coming' chain) (coming chain)

variable {orderer before after : Orderer} {coming coming' : ChainId → List QueueItem}
  {chain : ChainId} {event : Event} {events : List Event}

theorem Ahead.own (h : orderer.Ahead coming) : orderer.Own := fun chain lane hget event hevent =>
  (h chain lane hget).own event (List.mem_append_left _ hevent)

theorem mem_future {later : Event} :
    later ∈ orderer.future coming chain ↔
      ∃ lane, orderer.lanes.get? chain = some lane ∧ later ∈ lane.future (coming chain) := by
  rw [future]
  cases orderer.lanes.get? chain with
  | none => simp
  | some lane => simp

/-! ### Steps that keep what is ahead -/

theorem Follows.ahead (h : after.Follows before coming' coming) (hahead : before.Ahead coming) :
    after.Ahead coming' := by
  intro chain lane' hget
  obtain ⟨lane, hbefore, hkeeps⟩ := h chain lane' hget
  exact (hkeeps (hahead chain lane hbefore)).1

theorem Follows.future_subset (h : after.Follows before coming' coming)
    (hahead : before.Ahead coming) (chain : ChainId) :
    after.future coming' chain ⊆ before.future coming chain := by
  intro later hlater
  obtain ⟨lane', hget, hmem⟩ := mem_future.1 hlater
  obtain ⟨lane, hbefore, hkeeps⟩ := h chain lane' hget
  exact mem_future.2 ⟨lane, hbefore, (hkeeps (hahead chain lane hbefore)).2 hmem⟩

theorem Follows.trans {last : Orderer} {coming'' : ChainId → List QueueItem}
    (h : last.Follows after coming'' coming') (h' : after.Follows before coming' coming) :
    last.Follows before coming'' coming := by
  intro chain lane'' hget
  obtain ⟨lane', hafter, hkeeps⟩ := h chain lane'' hget
  obtain ⟨lane, hbefore, hkeeps'⟩ := h' chain lane' hafter
  refine ⟨lane, hbefore, fun hahead => ?_⟩
  obtain ⟨hahead', hsubset'⟩ := hkeeps' hahead
  obtain ⟨hahead'', hsubset⟩ := hkeeps hahead'
  exact ⟨hahead'', fun later hlater => hsubset' (hsubset hlater)⟩

theorem follows_of_lanes (h : after.lanes = before.lanes) :
    after.Follows before coming coming := by
  intro chain lane hget
  rw [h] at hget
  exact ⟨lane, hget, .refl lane chain _⟩

theorem follows_drain (orderer : Orderer) (coming : ChainId → List QueueItem) :
    orderer.drain.Follows orderer coming coming := by
  intro chain lane' hget
  rw [get?_drain] at hget
  obtain ⟨lane, hbefore, rfl⟩ := Option.map_eq_some_iff.1 hget
  exact ⟨lane, hbefore, lane.keeps_drainReady⟩

theorem follows_progress (orderer : Orderer) (committed : List Event)
    (coming : ChainId → List QueueItem) :
    (orderer.progress committed).2.2.Follows orderer coming coming := by
  intro chain lane' hget
  rw [get?_progress] at hget
  obtain ⟨lane, hbefore, rfl⟩ := Option.map_eq_some_iff.1 hget
  exact ⟨lane, hbefore, lane.keeps_progress _⟩

/-- What one lane keeps ahead the orderer keeps ahead. -/
theorem follows_changeLane (chain : ChainId) {f : Lane → Lane} (items : List QueueItem)
    (hf : ∀ lane, orderer.lanes.get? chain = some lane →
      (f lane).Keeps lane chain items (coming chain)) :
    (orderer.changeLane chain f).Follows orderer (Function.update coming chain items) coming := by
  intro other lane' hget
  rw [changeLane, Table.get?_modify] at hget
  by_cases hother : other = chain
  · subst hother
    rw [if_pos rfl] at hget
    obtain ⟨lane, hbefore, rfl⟩ := Option.map_eq_some_iff.1 hget
    rw [Function.update_self]
    exact ⟨lane, hbefore, hf lane hbefore⟩
  · rw [if_neg hother] at hget
    rw [Function.update_of_ne hother]
    exact ⟨lane', hget, .refl lane' other _⟩

theorem Gives.follows (h : before.Gives after events) (coming : ChainId → List QueueItem) :
    after.Follows before coming coming := by
  intro chain lane' hget
  have hchain := h chain
  rw [hget] at hchain
  generalize before.lanes.get? chain = found at hchain
  cases hchain with
  | lane hpending =>
    refine ⟨_, rfl, Lane.keeps_pending ?_⟩
    rw [hpending]
    exact List.sublist_append_right _ _

/-- Taking events keeps what is ahead, also if the last ones are given back. -/
theorem Gives.follows_restore (h : before.Gives after events) (count : Nat)
    (coming : ChainId → List QueueItem) :
    (after.restore (events.drop count)).Follows before coming coming := by
  intro chain lane' hget
  have hchain := h chain
  rw [get?_restore] at hget
  obtain ⟨lane, hafter, rfl⟩ := Option.map_eq_some_iff.1 hget
  rw [hafter] at hchain
  generalize before.lanes.get? chain = found at hchain
  cases hchain with
  | lane hpending =>
    refine ⟨_, rfl, Lane.keeps_pending ?_⟩
    rw [hpending]
    exact ((List.drop_sublist count events).filter _).append_right _

/-- With a new lane of a chain, what comes to it takes the place of what was ahead on it before. -/
theorem Ahead.addLane (h : orderer.Ahead coming) {items : List QueueItem}
    (hitems : InKeyOrder chain items) (depth : Nat) :
    (orderer.addLane (.start chain depth)).Ahead (Function.update coming chain items) ∧
      ∀ other, ∀ later ∈
        (orderer.addLane (.start chain depth)).future (Function.update coming chain items) other,
        later ∈ eventsOf items ∨ later ∈ orderer.future coming other := by
  have hlane : ∀ other lane,
      (orderer.addLane (.start chain depth)).lanes.get? other = some lane →
        other = chain ∧ lane = .start chain depth ∨
          other ≠ chain ∧ orderer.lanes.get? other = some lane := by
    intro other lane hget
    rw [Orderer.addLane, Table.get?_insert] at hget
    split at hget
    next hother => exact Or.inl ⟨hother, (Option.some.inj hget).symm⟩
    next hother => exact Or.inr ⟨hother, hget⟩
  refine ⟨fun other lane hget => ?_, fun other later hlater => ?_⟩
  · obtain ⟨rfl, rfl⟩ | ⟨hother, hbefore⟩ := hlane other lane hget
    · rw [Function.update_self]
      exact .start hitems depth
    · rw [Function.update_of_ne hother]
      exact h other lane hbefore
  · obtain ⟨lane, hget, hmem⟩ := mem_future.1 hlater
    obtain ⟨rfl, rfl⟩ | ⟨hother, hbefore⟩ := hlane other lane hget
    · rw [Function.update_self] at hmem
      exact Or.inl hmem
    · rw [Function.update_of_ne hother] at hmem
      exact Or.inr (mem_future.2 ⟨lane, hbefore, hmem⟩)

/-! ### Releases -/

theorem leastFront_concat (lanes : List (ChainId × Lane)) (entry : ChainId × Lane) :
    leastFront (lanes ++ [entry]) =
      match entry.2.pending, leastFront lanes with
      | [], least => least
      | event :: _, none => some (entry.1, event)
      | event :: _, some (chain, first) =>
        if event.key < first.key then some (entry.1, event) else some (chain, first) := by
  rw [leastFront, List.foldl_append, List.foldl_cons, List.foldl_nil, ← leastFront]
  cases entry.2.pending with
  | nil => rfl
  | cons event others =>
    cases leastFront lanes with
    | none => rfl
    | some least => rfl

/-- No front of a lane stands before the least one. -/
theorem leastFront_le (lanes : List (ChainId × Lane)) :
    ∀ entry ∈ lanes, ∀ front ∈ entry.2.pending.head?,
      ∃ least ∈ leastFront lanes, least.2.key ≤ front.key := by
  induction lanes using List.reverseRecOn with
  | nil => exact fun entry hentry => absurd hentry List.not_mem_nil
  | append_singleton rest last ih =>
    intro entry hentry front hfront
    rw [leastFront_concat]
    rcases List.mem_append.1 hentry with hrest | hlast
    · obtain ⟨least, hleast, hle⟩ := ih entry hrest front hfront
      rw [Option.mem_def] at hleast
      rw [hleast]
      cases last.2.pending with
      | nil => exact ⟨least, rfl, hle⟩
      | cons event others =>
        dsimp only
        by_cases hlt : event.key < least.2.key
        · rw [if_pos hlt]
          exact ⟨_, rfl, EventKey.le_trans (EventKey.le_of_lt hlt) hle⟩
        · rw [if_neg hlt]
          exact ⟨_, rfl, hle⟩
    · obtain rfl := List.mem_singleton.1 hlast
      cases hpending : entry.2.pending with
      | nil =>
        rw [hpending] at hfront
        cases hfront
      | cons event others =>
        rw [hpending] at hfront
        obtain rfl := Option.mem_some.1 hfront
        cases leastFront rest with
        | none => exact ⟨_, rfl, EventKey.le_refl _⟩
        | some least =>
          dsimp only
          by_cases hlt : event.key < least.2.key
          · rw [if_pos hlt]
            exact ⟨_, rfl, EventKey.le_refl _⟩
          · rw [if_neg hlt]
            exact ⟨_, rfl, EventKey.not_lt.1 hlt⟩

theorem pending_of_leastFront_eq_none {lanes : List (ChainId × Lane)}
    (h : leastFront lanes = none) : ∀ entry ∈ lanes, entry.2.pending = [] := by
  intro entry hentry
  cases hfront : entry.2.pending with
  | nil => rfl
  | cons front rest =>
    obtain ⟨least, hfound, -⟩ := leastFront_le lanes entry hentry front (by rw [hfront]; rfl)
    rw [h] at hfound
    cases hfound

/-- An event that no lane blocks stands before everything ahead on the lanes that are waited for. -/
theorem bounds_of_not_blocked (h : orderer.Ahead coming)
    (hleast : leastFront orderer.lanes.entries = some (chain, event))
    (hblocking : orderer.blocking chain event.key = []) (other : ChainId) :
    ∀ later ∈ orderer.future coming other, Release.Bounds ⟨event, orderer.idle⟩ later := by
  intro later hlater
  obtain ⟨lane, hget, hmem⟩ := mem_future.1 hlater
  have hahead := h other lane hget
  have hchain : later.chain = other := hahead.own later hmem
  have hentry := Table.mem_entries_iff.2 hget
  cases hpending : lane.pending with
  | cons front rest =>
    have hfront : event.key ≤ front.key := by
      obtain ⟨least, hfound, hle⟩ :=
        leastFront_le orderer.lanes.entries (other, lane) hentry front (by rw [hpending]; rfl)
      rw [hleast] at hfound
      cases hfound
      exact hle
    have hsorted := hahead.sorted
    rw [Lane.future, hpending, List.cons_append] at hmem
    rw [hpending, List.cons_append] at hsorted
    refine Or.inr (EventKey.le_trans hfront ?_)
    rcases List.mem_cons.1 hmem with rfl | hrest
    · exact EventKey.le_refl _
    · exact (List.pairwise_cons.1 hsorted).1 later hrest
  | nil =>
    rw [Lane.future, hpending, List.nil_append] at hmem
    have hother : other ≠ chain := by
      rintro rfl
      obtain ⟨same, rest, hsame, hfirst⟩ := leastFront_eq_some hleast
      have heq := (Table.mem_entries_iff.1 hsame).symm.trans hget
      obtain rfl := Option.some.inj heq
      rw [hpending] at hfirst
      cases hfirst
    rw [blocking, List.map_eq_nil_iff, List.filter_eq_nil_iff] at hblocking
    have hopen := hblocking (other, lane) hentry
    simp only [Lane.hasPending, hpending, List.isEmpty_nil, Bool.not_true, Bool.not_false,
      Bool.and_true, hother, ne_eq, not_false_eq_true, decide_true, Bool.true_and,
      Bool.not_eq_true', Bool.not_eq_false] at hopen
    rw [Lane.cannotPrecede, Bool.or_eq_true, Bool.or_eq_true, Option.any_eq_true] at hopen
    rcases hopen with (hfinished | hlive) | ⟨block, hblock, hbefore⟩
    · rw [hahead.finished hfinished] at hmem
      exact absurd hmem List.not_mem_nil
    · refine Or.inl (List.mem_map.2 ⟨(other, lane), List.mem_filter.2 ⟨hentry, ?_⟩, hchain.symm⟩)
      simp [hlive, hpending]
    · have hfetched := hahead.fetched block hblock later hmem
      rw [← hahead.laneChain] at hfetched
      exact Or.inr (EventKey.le_trans (EventKey.le_of_lt (of_decide_eq_true hbefore)) hfetched)

theorem Gives.future_eq (h : before.Gives after events) (coming : ChainId → List QueueItem)
    (chain : ChainId) :
    before.future coming chain = events.filter (·.chain = chain) ++ after.future coming chain := by
  have hchain := h chain
  rw [future, future]
  generalize before.lanes.get? chain = lane, after.lanes.get? chain = lane' at hchain
  cases hchain with
  | absent hevents =>
    rw [hevents]
    rfl
  | lane hpending =>
    rw [Option.elim_some, Option.elim_some, Lane.future, Lane.future, hpending, List.append_assoc]

theorem gives_popFront (hown : orderer.Own)
    (hleast : leastFront orderer.lanes.entries = some (chain, event)) :
    orderer.Gives (orderer.changeLane chain fun lane => lane.popFront.2) [event] := by
  obtain ⟨lane, rest, hentry, hpending⟩ := leastFront_eq_some hleast
  refine gives_changeLane hown (Table.mem_entries_iff.1 hentry) hpending ?_
  rw [Lane.popFront, hpending]
  rfl

theorem takeReleases_events (orderer : Orderer) (room : Nat) :
    (takeReleases room orderer).map (·.event) = (takeOrdered room orderer).1 := by
  induction room generalizing orderer with
  | zero => rfl
  | succ room ih =>
    rw [takeReleases, takeOrdered]
    cases leastFront orderer.lanes.entries with
    | none => rfl
    | some front =>
      dsimp only
      cases orderer.blocking front.1 front.2.key with
      | nil => exact congrArg (front.2 :: ·) (ih _)
      | cons first others => rfl

/-- What a unit takes was ahead. -/
theorem takeReleases_future (h : orderer.Ahead coming) (room : Nat) :
    ∀ release ∈ takeReleases room orderer,
      release.event ∈ orderer.future coming release.event.chain := by
  intro release hrelease
  have hevent := List.mem_map_of_mem (f := (·.event)) hrelease
  rw [takeReleases_events] at hevent
  rw [(takeOrdered_gives h.own room).future_eq coming]
  exact List.mem_append_left _ (List.mem_filter.2 ⟨hevent, decide_eq_true rfl⟩)

/-- Of the events that are taken together each bounds the later ones. -/
theorem takeReleases_pairwise (h : orderer.Ahead coming) (room : Nat) :
    (takeReleases room orderer).Pairwise fun a b => a.Bounds b.event := by
  induction room generalizing orderer with
  | zero => exact List.Pairwise.nil
  | succ room ih =>
    rw [takeReleases]
    cases hleast : leastFront orderer.lanes.entries with
    | none => exact List.Pairwise.nil
    | some front =>
      obtain ⟨chain, event⟩ := front
      dsimp only
      cases hblocking : orderer.blocking chain event.key with
      | cons first others => exact List.Pairwise.nil
      | nil =>
        have hpop := (gives_popFront h.own hleast).follows coming
        have hlater := hpop.ahead h
        refine List.pairwise_cons.2 ⟨fun release hrelease => ?_, ih hlater⟩
        refine bounds_of_not_blocked h hleast hblocking release.event.chain _ ?_
        exact hpop.future_subset h _ (takeReleases_future hlater room release hrelease)

/-- The first of the events that are taken together bound all that is ahead once the others were
given back. -/
theorem takeReleases_bound (h : orderer.Ahead coming) (room count : Nat) (chain : ChainId) :
    ∀ release ∈ (takeReleases room orderer).take count,
      ∀ later ∈ ((takeOrdered room orderer).2.2.restore
        ((takeOrdered room orderer).1.drop count)).future coming chain, release.Bounds later := by
  induction room generalizing orderer count with
  | zero =>
    rw [takeReleases, List.take_nil]
    exact fun release hrelease => absurd hrelease List.not_mem_nil
  | succ room ih =>
    rw [takeReleases, takeOrdered]
    cases hleast : leastFront orderer.lanes.entries with
    | none =>
      rw [List.take_nil]
      exact fun release hrelease => absurd hrelease List.not_mem_nil
    | some front =>
      obtain ⟨served, event⟩ := front
      dsimp only
      cases hblocking : orderer.blocking served event.key with
      | cons first others =>
        rw [List.take_nil]
        exact fun release hrelease => absurd hrelease List.not_mem_nil
      | nil =>
        have hpop := (gives_popFront h.own hleast).follows coming
        have hlater := hpop.ahead h
        cases count with
        | zero => exact fun release hrelease => absurd hrelease List.not_mem_nil
        | succ count =>
          have hrest := (takeOrdered_gives hlater.own room).follows_restore count coming
          dsimp only
          rw [List.take_succ_cons, List.drop_succ_cons, List.forall_mem_cons]
          refine ⟨fun later hmem => ?_, ih hlater count⟩
          refine bounds_of_not_blocked h hleast hblocking chain later ?_
          exact hpop.future_subset h chain (hrest.future_subset hlater chain hmem)

/-- In ordered mode a unit is what is released then. -/
theorem nextStep_unit (hmode : orderer.mode = .ordered)
    (h : orderer.nextStep.1 = .unit events) :
    events = (takeReleases orderer.maxEventsPerUnit orderer.drain).map (·.event) ∧
      orderer.nextStep.2 = (takeOrdered orderer.maxEventsPerUnit orderer.drain).2.2 := by
  have htake : orderer.drain.takeEvents = takeOrdered orderer.maxEventsPerUnit orderer.drain :=
    takeEvents_ordered hmode
  have hturn := nextStep_turn orderer
  rw [h] at hturn
  rw [takeReleases_events, ← htake]
  generalize orderer.nextStep.2 = after at hturn ⊢
  cases hturn with
  | unit => exact ⟨rfl, rfl⟩

end Orderer

end ChainIndexer
