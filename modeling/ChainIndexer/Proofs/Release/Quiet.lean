import ChainIndexer.Proofs.Release.Bounds
import Mathlib.Logic.Function.Iterate

/-!
# Releasing without anything to come

Once nothing is on its way to the lanes, an ordered release is only blocked by a lane that was never
live and is not finished. With such a lane nothing is released at all, and without one every pending
event is released, step by step.
-/

namespace ChainIndexer

/-- Whether a lane has an empty queue, has only events of its chain pending, and none before its
first batch, and was live or finished after its last batch. -/
structure Lane.Idle (lane : Lane) (chain : ChainId) : Prop where
  items : lane.queue.items = []
  own : ∀ event ∈ lane.pending, event.chain = chain
  unfetched : lane.fetchedThrough = none → lane.pending = [] ∧ lane.isLive = false
  fetched : lane.fetchedThrough.isSome = true → lane.isFinished = true ∨ lane.isLive = true

theorem Lane.drainReady_of_items {lane : Lane} (h : lane.queue.items = []) :
    ∃ isClosed, lane.drainReady = { lane with isClosed := isClosed } := by
  have hqueue : { lane.queue with items := [] } = lane.queue := by rw [← h]
  rw [drainReady, h, drainItems, hqueue]
  split
  next => exact ⟨true, rfl⟩
  next => exact ⟨lane.isClosed, rfl⟩

namespace Orderer

/-- How much a lane may still give: its events and its reorg. -/
def weight (orderer : Orderer) (chain : ChainId) : Nat :=
  (orderer.lanes.get? chain).elim 0 fun lane => lane.pending.length + lane.reorg.toList.length

/-- Whether an ordered orderer has only idle lanes. -/
structure Quiescent (orderer : Orderer) : Prop where
  mode : orderer.mode = .ordered
  room : 1 ≤ orderer.maxEventsPerUnit
  idle : ∀ chain lane, orderer.lanes.get? chain = some lane → lane.Idle chain

/-- Whether no event is pending on any lane. -/
def Empty (orderer : Orderer) : Prop :=
  ∀ chain lane, orderer.lanes.get? chain = some lane → lane.pending = []

/-- Whether each lane has taken a batch, or is finished. -/
def AllFetched (orderer : Orderer) : Prop :=
  ∀ chain lane, orderer.lanes.get? chain = some lane →
    lane.isFinished = true ∨ lane.fetchedThrough.isSome = true

/-- The orderer after some steps. -/
def stepped (orderer : Orderer) (steps : Nat) : Orderer := (·.nextStep.2)^[steps] orderer

/-- Whether the lanes are the ones before, but for what was pending last, and for reorgs. -/
structure Thins (before after : Orderer) : Prop where
  mode : after.mode = before.mode
  room : after.maxEventsPerUnit = before.maxEventsPerUnit
  lanes : ∀ chain lane', after.lanes.get? chain = some lane' →
    ∃ lane rest, before.lanes.get? chain = some lane ∧ rest <:+ lane.pending ∧
      ∃ isClosed reorg, lane' = { lane with pending := rest, isClosed := isClosed, reorg := reorg }
  absent : ∀ chain, after.lanes.get? chain = none → before.lanes.get? chain = none

variable {orderer after : Orderer} {events : List Event}

/-- In ordered mode a step takes a reorg, or a failure, or what may be released. -/
theorem nextStep_eq (hmode : orderer.mode = .ordered) :
    (∃ chain lane reorg, orderer.drain.lanes.get? chain = some lane ∧ lane.reorg = some reorg ∧
      orderer.nextStep.2 = orderer.drain.changeLane chain fun lane => lane.takeReorg.2) ∨
    (∃ failure rest, orderer.failures = failure :: rest ∧
      orderer.nextStep.2 = { orderer.drain with failures := rest }) ∨
    orderer.nextStep.2 = (takeOrdered orderer.maxEventsPerUnit orderer.drain).2.2 := by
  have htake : orderer.drain.takeEvents = takeOrdered orderer.maxEventsPerUnit orderer.drain :=
    takeEvents_ordered hmode
  have hturn := nextStep_turn orderer
  rw [← htake]
  generalize orderer.nextStep.1 = step, orderer.nextStep.2 = after at hturn ⊢
  cases hturn with
  | reorg hlane hreorg => exact Or.inl ⟨_, _, _, hlane, hreorg, rfl⟩
  | failure hfailures => exact Or.inr (Or.inl ⟨_, _, hfailures, rfl⟩)
  | unit => exact Or.inr (Or.inr rfl)
  | finished => exact Or.inr (Or.inr rfl)
  | stopped => exact Or.inr (Or.inr rfl)
  | blocked => exact Or.inr (Or.inr rfl)

/-! ### Steps between idle lanes -/

theorem Quiescent.own (h : orderer.Quiescent) : orderer.Own := fun chain lane hget =>
  (h.idle chain lane hget).own

theorem Thins.trans {last : Orderer} (h : orderer.Thins after) (h' : after.Thins last) :
    orderer.Thins last := by
  refine ⟨h'.mode.trans h.mode, h'.room.trans h.room, fun chain lane'' hget => ?_,
    fun chain hnone => h.absent chain (h'.absent chain hnone)⟩
  obtain ⟨lane', rest', hafter, hrest', isClosed', reorg', rfl⟩ := h'.lanes chain lane'' hget
  obtain ⟨lane, rest, hbefore, hrest, isClosed, reorg, rfl⟩ := h.lanes chain lane' hafter
  exact ⟨lane, rest', hbefore, hrest'.trans hrest, isClosed', reorg', rfl⟩

theorem Thins.quiescent (h : orderer.Thins after) (hbefore : orderer.Quiescent) :
    after.Quiescent := by
  refine ⟨h.mode.trans hbefore.mode, h.room ▸ hbefore.room, fun chain lane' hget => ?_⟩
  obtain ⟨lane, rest, hlane, hrest, isClosed, reorg, rfl⟩ := h.lanes chain lane' hget
  have hidle := hbefore.idle chain lane hlane
  refine ⟨hidle.items, fun event hevent => hidle.own event (hrest.subset hevent), fun hnone => ?_,
    hidle.fetched⟩
  obtain ⟨hpending, hlive⟩ := hidle.unfetched hnone
  exact ⟨List.suffix_nil.1 (hpending ▸ hrest), hlive⟩

theorem Thins.allFetched (h : orderer.Thins after) (hbefore : orderer.AllFetched) :
    after.AllFetched := by
  intro chain lane' hget
  obtain ⟨lane, rest, hlane, -, isClosed, reorg, rfl⟩ := h.lanes chain lane' hget
  exact hbefore chain lane hlane

theorem Quiescent.thins_drain (h : orderer.Quiescent) : orderer.Thins orderer.drain := by
  refine ⟨rfl, rfl, fun chain lane' hget => ?_, fun chain hnone => ?_⟩
  · rw [get?_drain] at hget
    obtain ⟨lane, hbefore, rfl⟩ := Option.map_eq_some_iff.1 hget
    obtain ⟨isClosed, heq⟩ := Lane.drainReady_of_items (h.idle chain lane hbefore).items
    exact ⟨lane, lane.pending, hbefore, List.suffix_refl _, isClosed, lane.reorg, heq⟩
  · rw [get?_drain] at hnone
    exact Option.map_eq_none_iff.1 hnone

theorem thins_takeOrdered (hown : orderer.Own) (room : Nat) :
    orderer.Thins (takeOrdered room orderer).2.2 := by
  have hlanes := takeOrdered_lanes orderer room
  refine ⟨by rw [hlanes], by rw [hlanes], fun chain lane' hget => ?_, fun chain hnone => ?_⟩
  · have hchain := takeOrdered_gives hown room chain
    rw [hget] at hchain
    generalize hbefore : orderer.lanes.get? chain = found at hchain
    cases hchain with
    | lane hpending => exact ⟨_, _, rfl, hpending ▸ List.suffix_append _ _, _, _, rfl⟩
  · have hchain := takeOrdered_gives hown room chain
    rw [hnone] at hchain
    generalize orderer.lanes.get? chain = found at hchain
    cases hchain with
    | absent _ => rfl

theorem thins_takeReorg (chain : ChainId) :
    orderer.Thins (orderer.changeLane chain fun lane => lane.takeReorg.2) := by
  refine ⟨rfl, rfl, fun other lane' hget => ?_, fun other hnone => ?_⟩
  · rw [changeLane, Table.get?_modify] at hget
    split at hget
    next hother =>
      obtain ⟨lane, hbefore, rfl⟩ := Option.map_eq_some_iff.1 hget
      exact ⟨lane, lane.pending, hother ▸ hbefore, List.suffix_refl _, lane.isClosed, none, rfl⟩
    next => exact ⟨lane', lane'.pending, hget, List.suffix_refl _, lane'.isClosed, lane'.reorg, rfl⟩
  · rw [changeLane, Table.get?_modify] at hnone
    split at hnone
    next hother => exact hother ▸ Option.map_eq_none_iff.1 hnone
    next => exact hnone

theorem Quiescent.thins_nextStep (h : orderer.Quiescent) : orderer.Thins orderer.nextStep.2 := by
  have hdrain := h.thins_drain
  rcases nextStep_eq h.mode with
    ⟨chain, lane, reorg, -, -, hnext⟩ | ⟨failure, rest, -, hnext⟩ | hnext
  · rw [hnext]
    exact hdrain.trans (thins_takeReorg chain)
  · rw [hnext]
    exact hdrain.trans ⟨rfl, rfl, fun chain lane hget =>
      ⟨lane, lane.pending, hget, List.suffix_refl _, lane.isClosed, lane.reorg, rfl⟩,
      fun chain hnone => hnone⟩
  · rw [hnext]
    exact hdrain.trans (thins_takeOrdered (hdrain.quiescent h).own _)

/-! ### Nothing is left if every lane has taken a batch -/

/-- Then the first pending event is blocked by no lane. -/
theorem Quiescent.takes (h : orderer.Quiescent) (hfetched : orderer.AllFetched)
    (hpending : ¬ orderer.Empty) {room : Nat} (hroom : 1 ≤ room) :
    (takeOrdered room orderer).1 ≠ [] := by
  obtain ⟨room, rfl⟩ : ∃ less, room = less + 1 := ⟨room - 1, by omega⟩
  have hblocking : ∀ chain key, orderer.blocking chain key = [] := by
    intro chain key
    rw [blocking, List.map_eq_nil_iff, List.filter_eq_nil_iff]
    intro entry hentry hwaited
    have hget := Table.mem_entries_iff.1 hentry
    have hopen : entry.2.isFinished = true ∨ entry.2.isLive = true :=
      (hfetched entry.1 entry.2 hget).elim Or.inl (h.idle entry.1 entry.2 hget).fetched
    rw [Bool.and_eq_true, Lane.cannotPrecede, Bool.or_eq_true_iff.2 hopen, Bool.true_or] at hwaited
    cases hwaited.2
  rw [takeOrdered]
  cases hleast : leastFront orderer.lanes.entries with
  | none =>
    refine absurd (fun chain lane hget => ?_) hpending
    exact pending_of_leastFront_eq_none hleast (chain, lane) (Table.mem_entries_iff.2 hget)
  | some front =>
    dsimp only
    rw [hblocking]
    exact List.cons_ne_nil _ _

/-- The weights of some chains together. -/
def total (weight : ChainId → Nat) : List ChainId → Nat
  | [] => 0
  | chain :: rest => weight chain + total weight rest

/-- What all lanes and failures together may still give. -/
def load (orderer : Orderer) (chains : List ChainId) : Nat :=
  orderer.failures.length + total orderer.weight chains

theorem total_le {weight weight' : ChainId → Nat} (hle : ∀ other, weight' other ≤ weight other) :
    ∀ chains, total weight' chains ≤ total weight chains
  | [] => Nat.le_refl 0
  | chain :: rest => Nat.add_le_add (hle chain) (total_le hle rest)

theorem total_lt {weight weight' : ChainId → Nat} {chains : List ChainId} {chain : ChainId}
    (hmem : chain ∈ chains) (hle : ∀ other, weight' other ≤ weight other)
    (hlt : weight' chain < weight chain) : total weight' chains < total weight chains := by
  induction chains with
  | nil => exact absurd hmem List.not_mem_nil
  | cons first rest ih =>
    rcases List.mem_cons.1 hmem with rfl | hrest
    · exact Nat.add_lt_add_of_lt_of_le hlt (total_le hle rest)
    · exact Nat.add_lt_add_of_le_of_lt (hle first) (ih hrest)

theorem Quiescent.weight_drain (h : orderer.Quiescent) (chain : ChainId) :
    orderer.drain.weight chain = orderer.weight chain := by
  rw [weight, weight, get?_drain]
  cases hget : orderer.lanes.get? chain with
  | none => rfl
  | some lane =>
    obtain ⟨isClosed, heq⟩ := Lane.drainReady_of_items (h.idle chain lane hget).items
    rw [Option.map_some, Option.elim_some, Option.elim_some, heq]

theorem weight_takeReorg {chain : ChainId} {lane : Lane} {reorg : Reorg}
    (hget : orderer.lanes.get? chain = some lane) (hreorg : lane.reorg = some reorg) :
    (∀ other, (orderer.changeLane chain fun lane => lane.takeReorg.2).weight other ≤
        orderer.weight other) ∧
      (orderer.changeLane chain fun lane => lane.takeReorg.2).weight chain <
        orderer.weight chain := by
  have hlt : (orderer.changeLane chain fun lane => lane.takeReorg.2).weight chain <
      orderer.weight chain := by
    rw [weight, weight, changeLane, Table.get?_modify, if_pos rfl, hget, Option.map_some,
      Option.elim_some, Option.elim_some, hreorg]
    exact Nat.lt_succ_self _
  refine ⟨fun other => ?_, hlt⟩
  by_cases hother : other = chain
  · subst hother
    exact Nat.le_of_lt hlt
  · rw [weight, weight, changeLane, Table.get?_modify, if_neg hother]

theorem Gives.weight (h : orderer.Gives after events) (chain : ChainId) :
    orderer.weight chain = (events.filter (·.chain = chain)).length + after.weight chain := by
  have hchain := h chain
  rw [Orderer.weight, Orderer.weight]
  generalize orderer.lanes.get? chain = lane, after.lanes.get? chain = lane' at hchain
  cases hchain with
  | absent hevents =>
    rw [hevents]
    rfl
  | lane hpending =>
    rw [Option.elim_some, Option.elim_some, hpending, List.length_append, Nat.add_assoc]

/-- Taking events makes the lanes lighter. -/
theorem Gives.total_lt (h : orderer.Gives after events) (hevents : events ≠ [])
    {chains : List ChainId}
    (hchains : ∀ chain lane, orderer.lanes.get? chain = some lane → chain ∈ chains) :
    total after.weight chains < total orderer.weight chains := by
  obtain ⟨event, hevent⟩ := List.exists_mem_of_ne_nil events hevents
  have hmem : event ∈ events.filter (·.chain = event.chain) :=
    List.mem_filter.2 ⟨hevent, decide_eq_true rfl⟩
  have hlane := h event.chain
  generalize hget : orderer.lanes.get? event.chain = found,
    after.lanes.get? event.chain = found' at hlane
  cases hlane with
  | absent hnone => exact absurd (hnone ▸ hmem) List.not_mem_nil
  | lane _ =>
    refine Orderer.total_lt (hchains event.chain _ hget) (fun other => ?_) ?_
    · rw [h.weight other]
      exact Nat.le_add_left _ _
    · have hpositive := List.length_pos_of_mem hmem
      rw [h.weight event.chain]
      omega

/-- So a step gives something away as long as any event is pending. -/
theorem Quiescent.load_nextStep_lt (h : orderer.Quiescent) (hfetched : orderer.AllFetched)
    (hpending : ¬ orderer.Empty) {chains : List ChainId}
    (hchains : ∀ chain lane, orderer.lanes.get? chain = some lane → chain ∈ chains) :
    orderer.nextStep.2.load chains < orderer.load chains := by
  have hthins := h.thins_drain
  have hdrained : ∀ chain lane, orderer.drain.lanes.get? chain = some lane → chain ∈ chains := by
    intro chain lane hget
    obtain ⟨before, _, hbefore, -⟩ := hthins.lanes chain lane hget
    exact hchains chain before hbefore
  have hsame : orderer.drain.weight = orderer.weight := funext h.weight_drain
  rw [load, load, ← hsame]
  rcases nextStep_eq h.mode with ⟨chain, lane, reorg, hget, hreorg, hnext⟩ |
    ⟨failure, rest, hfailures, hnext⟩ | hnext
  · obtain ⟨hle, hlt⟩ := weight_takeReorg hget hreorg
    rw [hnext]
    exact Nat.add_lt_add_left (total_lt (hdrained chain lane hget) hle hlt) _
  · rw [hnext, hfailures]
    exact Nat.add_lt_add_right (Nat.lt_succ_self _) _
  · have hquiescent := hthins.quiescent h
    have hleft : ¬ orderer.drain.Empty := by
      refine fun hempty => hpending fun chain lane hget => ?_
      obtain ⟨isClosed, heq⟩ := Lane.drainReady_of_items (h.idle chain lane hget).items
      have hdrain := hempty chain lane.drainReady (by rw [get?_drain, hget, Option.map_some])
      rwa [heq] at hdrain
    have hgives := takeOrdered_gives hquiescent.own orderer.maxEventsPerUnit
    have htakes := hquiescent.takes (hthins.allFetched hfetched) hleft h.room
    rw [hnext, takeOrdered_lanes]
    exact Nat.add_lt_add_left (hgives.total_lt htakes hdrained) _

/-- After enough steps no event is left. -/
theorem Quiescent.exists_empty (h : orderer.Quiescent) (hfetched : orderer.AllFetched) :
    ∃ steps, (orderer.stepped steps).Empty := by
  have hchains : ∀ chain lane, orderer.lanes.get? chain = some lane → chain ∈ orderer.lanes.keys :=
    fun chain lane hget => List.mem_map.2 ⟨(chain, lane), Table.mem_entries_iff.2 hget, rfl⟩
  generalize orderer.lanes.keys = chains at hchains
  induction hload : orderer.load chains using Nat.strong_induction_on generalizing orderer with
  | _ load ih =>
    by_cases hempty : orderer.Empty
    · exact ⟨0, hempty⟩
    · have hthins := h.thins_nextStep
      obtain ⟨steps, hsteps⟩ := ih _ (hload ▸ h.load_nextStep_lt hfetched hempty hchains)
        (hthins.quiescent h) (hthins.allFetched hfetched) (fun chain lane hget => by
          obtain ⟨before, _, hbefore, -⟩ := hthins.lanes chain lane hget
          exact hchains chain before hbefore) rfl
      exact ⟨steps + 1, hsteps⟩

/-! ### Nothing is released as long as a lane has not taken a batch -/

/-- Whether there is a lane that has taken no batch, and is not finished. -/
def Strands (orderer : Orderer) : Prop :=
  ∃ chain lane, orderer.lanes.get? chain = some lane ∧ lane.isFinished = false ∧
    lane.fetchedThrough = none

theorem not_allFetched_iff : ¬ orderer.AllFetched ↔ orderer.Strands := by
  rw [AllFetched, Strands]
  push Not
  simp only [Bool.not_eq_true, Option.isSome_eq_false_iff, Option.isNone_iff_eq_none]

theorem Thins.strands (h : orderer.Thins after) (hstrands : orderer.Strands) : after.Strands := by
  obtain ⟨chain, lane, hget, hfinished, hfetched⟩ := hstrands
  cases hafter : after.lanes.get? chain with
  | none =>
    rw [h.absent chain hafter] at hget
    cases hget
  | some lane' =>
    obtain ⟨before, rest, hbefore, -, isClosed, reorg, rfl⟩ := h.lanes chain lane' hafter
    obtain rfl := Option.some.inj (hget.symm.trans hbefore)
    exact ⟨chain, _, hafter, hfinished, hfetched⟩

/-- Such a lane blocks every event. -/
theorem Quiescent.takes_nothing (h : orderer.Quiescent) (hstrands : orderer.Strands) (room : Nat) :
    (takeOrdered room orderer).1 = [] := by
  obtain ⟨chain, lane, hget, hfinished, hfetched⟩ := hstrands
  obtain ⟨hpending, hlive⟩ := (h.idle chain lane hget).unfetched hfetched
  cases room with
  | zero => rfl
  | succ room =>
    rw [takeOrdered]
    cases hleast : leastFront orderer.lanes.entries with
    | none => rfl
    | some front =>
      have hother : chain ≠ front.1 := by
        rintro rfl
        obtain ⟨first, rest, hentry, hfirst⟩ := leastFront_eq_some hleast
        have hsame := (Table.mem_entries_iff.1 hentry).symm.trans hget
        rw [Option.some.inj hsame, hpending] at hfirst
        cases hfirst
      have hblocks : chain ∈ orderer.blocking front.1 front.2.key := by
        refine List.mem_map.2 ⟨(chain, lane), List.mem_filter.2 ⟨Table.mem_entries_iff.2 hget, ?_⟩,
          rfl⟩
        simp [hother, Lane.hasPending, Lane.cannotPrecede, hpending, hfinished, hlive, hfetched]
      dsimp only
      cases hblocking : orderer.blocking front.1 front.2.key with
      | nil =>
        rw [hblocking] at hblocks
        exact absurd hblocks List.not_mem_nil
      | cons first others => rfl

/-- So a step leaves every lane with the events that it had. -/
theorem Quiescent.pending_nextStep (h : orderer.Quiescent) (hstrands : orderer.Strands)
    {chain : ChainId} {lane : Lane} (hget : orderer.lanes.get? chain = some lane) :
    ∃ lane', orderer.nextStep.2.lanes.get? chain = some lane' ∧ lane'.pending = lane.pending := by
  obtain ⟨isClosed, heq⟩ := Lane.drainReady_of_items (h.idle chain lane hget).items
  have hdrain : orderer.drain.lanes.get? chain = some { lane with isClosed := isClosed } := by
    rw [get?_drain, hget, Option.map_some, heq]
  rcases nextStep_eq h.mode with ⟨other, noticed, reorg, -, -, hnext⟩ | ⟨failure, rest, -, hnext⟩ |
    hnext
  · rw [hnext, changeLane, Table.get?_modify]
    split
    next hother =>
      rw [← hother, hdrain]
      exact ⟨_, rfl, rfl⟩
    next => exact ⟨_, hdrain, rfl⟩
  · rw [hnext]
    exact ⟨_, hdrain, rfl⟩
  · have hquiescent := h.thins_drain.quiescent h
    have hgives := takeOrdered_gives hquiescent.own orderer.maxEventsPerUnit chain
    rw [hquiescent.takes_nothing (h.thins_drain.strands hstrands), hdrain] at hgives
    rw [hnext]
    generalize (takeOrdered orderer.maxEventsPerUnit orderer.drain).2.2.lanes.get? chain = found
      at hgives
    cases hgives with
    | lane hpending => exact ⟨_, rfl, hpending.symm⟩

/-- And no number of steps takes the last event. -/
theorem Quiescent.not_empty_stepped (h : orderer.Quiescent) (hstrands : orderer.Strands)
    (hpending : ¬ orderer.Empty) (steps : Nat) : ¬ (orderer.stepped steps).Empty := by
  induction steps generalizing orderer with
  | zero => exact hpending
  | succ steps ih =>
    have hthins := h.thins_nextStep
    refine ih (hthins.quiescent h) (hthins.strands hstrands) fun hempty => hpending ?_
    intro chain lane hget
    obtain ⟨lane', hget', hsame⟩ := h.pending_nextStep hstrands hget
    rw [← hsame]
    exact hempty chain lane' hget'

/-- Steps between idle lanes release every event exactly if each lane has taken a batch or is
finished, or there is no event at all. -/
theorem Quiescent.exists_empty_iff (h : orderer.Quiescent) :
    (∃ steps, (orderer.stepped steps).Empty) ↔ orderer.Empty ∨ orderer.AllFetched := by
  refine ⟨fun ⟨steps, hempty⟩ => ?_, ?_⟩
  · by_contra hneither
    rw [not_or] at hneither
    exact h.not_empty_stepped (not_allFetched_iff.1 hneither.2) hneither.1 steps hempty
  · rintro (hempty | hfetched)
    · exact ⟨0, hempty⟩
    · exact h.exists_empty hfetched

end Orderer

end ChainIndexer
