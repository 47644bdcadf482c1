import ChainIndexer.Proofs.Release.Quiet

/-!
# What an orderer waits for

An orderer waits once nothing is there to be done. Every lane that it waits for has an empty queue
with a fetcher behind it, so the next item or the end of the fetcher wakes it. It waits for no lane
at all only if some fetcher went without saying that it was finished.
-/

namespace ChainIndexer

/-- Whether a wait for a lane ends as soon as its fetcher sends an item, or goes. -/
structure Lane.Listens (lane : Lane) : Prop where
  waitable : lane.isWaitable = true
  items : lane.queue.items = []
  sender : lane.queue.hasSender = true

/-- Whether a step gives something to do. -/
def OrdererStep.gives : OrdererStep → Bool
  | .unit _ | .reorg _ | .failure _ => true
  | .stopped | .finished | .blocked _ => false

/-- Whether a lane was closed without being told that its chain is finished. -/
def Lane.Abandoned (lane : Lane) : Prop := lane.isClosed = true ∧ lane.isFinished = false

namespace Lane

variable {lane : Lane}

/-- A lane that may take more than it has taken finds nothing more in its queue. -/
theorem drainItems_exhausts {items : List QueueItem}
    (hpending : (lane.drainItems items).pending = [])
    (hreorg : (lane.drainItems items).reorg = none)
    (hopen : (lane.drainItems items).isClosed = false) :
    (lane.drainItems items).queue.items = [] ∧ (lane.drainItems items).queue.hasSender = true := by
  induction items generalizing lane with
  | nil =>
    rw [drainItems] at hpending hreorg hopen ⊢
    by_cases hends : (lane.pending.isEmpty && lane.reorg.isNone && !lane.queue.hasSender) = true
    · rw [if_pos hends] at hopen
      cases hopen
    · rw [if_neg hends] at hpending hreorg ⊢
      refine ⟨rfl, ?_⟩
      simpa [show lane.pending = [] from hpending, show lane.reorg = none from hreorg] using hends
  | cons item rest ih =>
    rw [drainItems] at hpending hreorg hopen ⊢
    by_cases htakes : (lane.pending.isEmpty && lane.reorg.isNone && !lane.isClosed) = true
    · rw [if_pos htakes] at hpending hreorg hopen ⊢
      exact ih hpending hreorg hopen
    · rw [if_neg htakes] at hpending hreorg hopen
      refine absurd ?_ htakes
      simp [show lane.pending = [] from hpending, show lane.reorg = none from hreorg,
        show lane.isClosed = false from hopen]

theorem drainReady_listens (h : lane.drainReady.isWaitable = true) : lane.drainReady.Listens := by
  obtain ⟨hpending, -, hopen, hreorg⟩ := isWaitable_iff.1 h
  obtain ⟨hitems, hsender⟩ := drainItems_exhausts hpending hreorg hopen
  exact ⟨h, hitems, hsender⟩

/-- A lane that has nothing to give is waited for, or finished, or abandoned. -/
theorem waitable_or_abandoned (hpending : lane.pending = []) (hreorg : lane.reorg = none)
    (hfinished : lane.isFinished = false) : lane.isWaitable = true ∨ lane.Abandoned := by
  cases hclosed : lane.isClosed with
  | true => exact Or.inr ⟨hclosed, hfinished⟩
  | false => exact Or.inl (isWaitable_iff.2 ⟨hpending, hfinished, hclosed, hreorg⟩)

end Lane

namespace Orderer

/-- An orderer at any time: since its start all but its mode and its room may have changed. -/
def anyTime (mode : Mode) (maxEventsPerUnit : Nat) (lanes : Table ChainId Lane)
    (lastServed : Option ChainId) (stopRequested : Bool) (failures : List ChainFailure) : Orderer :=
  { start mode maxEventsPerUnit with
    lanes := lanes, lastServed := lastServed, stopRequested := stopRequested, failures := failures }

variable {orderer after : Orderer}

/-- Whether a step finds nothing to take and nothing to report. -/
structure Rests (orderer : Orderer) : Prop where
  failures : orderer.failures = []
  reorg : ∀ chain lane, orderer.drain.lanes.get? chain = some lane → lane.reorg = none
  progress : ∀ chain lane, orderer.drain.lanes.get? chain = some lane → lane.hasNewProgress = false
  events : orderer.drain.takeEvents.1 = []

/-- Whether every lane is done once it has taken what it may. -/
def Done (orderer : Orderer) : Prop :=
  ∀ chain lane, orderer.drain.lanes.get? chain = some lane →
    lane.isFinished = true ∧ lane.pending = []

/-- The lanes that a resting orderer waits for, unless all are done. -/
def awaited (orderer : Orderer) : List ChainId :=
  orderer.drain.takeEvents.2.1.filter (orderer.drain.waitable.contains ·)

theorem mem_waitable {chain : ChainId} :
    chain ∈ orderer.waitable ↔
      ∃ lane, orderer.lanes.get? chain = some lane ∧ lane.isWaitable = true := by
  simp only [waitable, List.mem_map, List.mem_filter, Prod.exists, Table.mem_entries_iff]
  constructor
  · rintro ⟨_, lane, hlane, rfl⟩
    exact ⟨lane, hlane⟩
  · rintro ⟨lane, hlane⟩
    exact ⟨chain, lane, hlane, rfl⟩

theorem takeReorg_eq_none_iff :
    orderer.takeReorg = none ↔
      ∀ chain lane, orderer.lanes.get? chain = some lane → lane.reorg = none := by
  simp only [takeReorg, Option.map_eq_none_iff, List.findSome?_eq_none_iff, Prod.forall,
    Table.mem_entries_iff]

/-! ### Taking no events -/

theorem pending_of_nextServed {chain : ChainId} (h : orderer.nextServed = some chain) :
    ∃ lane, orderer.lanes.get? chain = some lane ∧ lane.pending ≠ [] := by
  have hready : chain ∈ (orderer.lanes.entries.filter (·.2.hasPending)).map (·.1) := by
    rw [nextServed, Option.or_eq_some_iff] at h
    rcases h with hafter | ⟨-, hfirst⟩
    · exact List.mem_of_find?_eq_some hafter
    · exact List.mem_of_head? hfirst
  obtain ⟨⟨_, lane⟩, hentry, rfl⟩ := List.mem_map.1 hready
  obtain ⟨hmem, hpending⟩ := List.mem_filter.1 hentry
  exact ⟨lane, Table.mem_entries_iff.1 hmem, by simpa [Lane.hasPending] using hpending⟩

theorem empty_of_nextServed (h : orderer.nextServed = none) : orderer.Empty := by
  intro chain lane hget
  rw [nextServed, Option.or_eq_none_iff, List.head?_eq_none_iff, List.map_eq_nil_iff,
    List.filter_eq_nil_iff] at h
  simpa [Lane.hasPending] using h.2 (chain, lane) (Table.mem_entries_iff.2 hget)

theorem takeUnordered_of_nil (hroom : 1 ≤ orderer.maxEventsPerUnit)
    (h : orderer.takeUnordered.1 = []) :
    orderer.Empty ∧ orderer.takeUnordered = ([], orderer.waitable, orderer) := by
  rw [takeUnordered] at h ⊢
  cases hserved : orderer.nextServed with
  | none => exact ⟨empty_of_nextServed hserved, rfl⟩
  | some chain =>
    obtain ⟨lane, hget, hpending⟩ := pending_of_nextServed hserved
    rw [hserved] at h
    have hnone : lane.pending.take orderer.maxEventsPerUnit = [] := by
      simpa [hget, Lane.takeFront] using h
    rcases List.take_eq_nil_iff.1 hnone with hzero | hempty
    · omega
    · exact absurd hempty hpending

theorem takeOrdered_of_nil {room : Nat} (hroom : 1 ≤ room) (h : (takeOrdered room orderer).1 = []) :
    orderer.Empty ∧ takeOrdered room orderer = ([], orderer.waitable, orderer) ∨
      ∃ chain key, orderer.blocking chain key ≠ [] ∧
        takeOrdered room orderer = ([], orderer.blocking chain key, orderer) := by
  obtain ⟨room, rfl⟩ := Nat.exists_eq_add_of_le' hroom
  rw [takeOrdered] at h ⊢
  cases hleast : leastFront orderer.lanes.entries with
  | none =>
    refine Or.inl ⟨fun chain lane hget => ?_, rfl⟩
    exact pending_of_leastFront_eq_none hleast (chain, lane) (Table.mem_entries_iff.2 hget)
  | some front =>
    rw [hleast] at h
    dsimp only at h ⊢
    cases hblocking : orderer.blocking front.1 front.2.key with
    | nil =>
      rw [hblocking] at h
      cases h
    | cons first others =>
      refine Or.inr ⟨front.1, front.2.key, ?_, ?_⟩
      · rw [hblocking]
        exact List.cons_ne_nil _ _
      · rw [hblocking]

/-- If nothing is pending, all lanes that may bring an event are waited for, and otherwise those
that may bring one before the first pending event. -/
theorem takeEvents_of_nil (hroom : 1 ≤ orderer.maxEventsPerUnit) (h : orderer.takeEvents.1 = []) :
    orderer.Empty ∧ orderer.takeEvents = ([], orderer.waitable, orderer) ∨
      ∃ chain key, orderer.blocking chain key ≠ [] ∧
        orderer.takeEvents = ([], orderer.blocking chain key, orderer) := by
  rw [takeEvents] at h ⊢
  cases hmode : orderer.mode with
  | unordered =>
    rw [hmode] at h
    exact Or.inl (takeUnordered_of_nil hroom h)
  | ordered =>
    rw [hmode] at h
    exact takeOrdered_of_nil hroom h

theorem takeEvents_rest_of_nil (hroom : 1 ≤ orderer.maxEventsPerUnit)
    (h : orderer.takeEvents.1 = []) : orderer.takeEvents.2.2 = orderer := by
  rcases takeEvents_of_nil hroom h with ⟨-, htakes⟩ | ⟨chain, key, -, htakes⟩
  · rw [htakes]
  · rw [htakes]

theorem Empty.takeEvents_nil (h : orderer.Empty) : orderer.takeEvents.1 = [] := by
  rw [takeEvents]
  cases orderer.mode with
  | unordered =>
    dsimp only
    rw [takeUnordered]
    cases hserved : orderer.nextServed with
    | none => rfl
    | some chain =>
      obtain ⟨lane, hget, hpending⟩ := pending_of_nextServed hserved
      exact absurd (h chain lane hget) hpending
  | ordered =>
    dsimp only
    cases orderer.maxEventsPerUnit with
    | zero => rfl
    | succ room =>
      rw [takeOrdered]
      cases hleast : leastFront orderer.lanes.entries with
      | none => rfl
      | some front =>
        obtain ⟨lane, rest, hentry, hpending⟩ := leastFront_eq_some hleast
        rw [h front.1 lane (Table.mem_entries_iff.1 hentry)] at hpending
        cases hpending

theorem takeOrdered_events_stopRequested (orderer : Orderer) (requested : Bool) (room : Nat) :
    (takeOrdered room { orderer with stopRequested := requested }).1 =
      (takeOrdered room orderer).1 := by
  induction room generalizing orderer with
  | zero => rfl
  | succ room ih =>
    rw [takeOrdered, takeOrdered]
    cases leastFront orderer.lanes.entries with
    | none => rfl
    | some front =>
      dsimp only
      have hblocking : ({ orderer with stopRequested := requested } : Orderer).blocking front.1
          front.2.key = orderer.blocking front.1 front.2.key := rfl
      rw [hblocking]
      cases orderer.blocking front.1 front.2.key with
      | nil => exact congrArg (front.2 :: ·) (ih (orderer.changeLane front.1 (·.popFront.2)))
      | cons first others => rfl

theorem takeUnordered_events_stopRequested (orderer : Orderer) (requested : Bool) :
    { orderer with stopRequested := requested }.takeUnordered.1 = orderer.takeUnordered.1 := by
  rw [takeUnordered, takeUnordered]
  have hserved : ({ orderer with stopRequested := requested } : Orderer).nextServed =
      orderer.nextServed := rfl
  rw [hserved]
  cases orderer.nextServed with
  | none => rfl
  | some chain => rfl

theorem takeEvents_events_stopRequested (orderer : Orderer) (requested : Bool) :
    { orderer with stopRequested := requested }.takeEvents.1 = orderer.takeEvents.1 := by
  obtain ⟨mode, room, lanes, lastServed, stopRequested, failures⟩ := orderer
  cases mode with
  | unordered => exact takeUnordered_events_stopRequested ..
  | ordered => exact takeOrdered_events_stopRequested ..

/-! ### Steps of a resting orderer -/

theorem Rests.withStop (h : orderer.Rests) (requested : Bool) :
    { orderer with stopRequested := requested }.Rests := by
  refine ⟨h.failures, h.reorg, h.progress, ?_⟩
  exact (takeEvents_events_stopRequested orderer.drain requested).trans h.events

theorem all_isDone_iff : orderer.drain.lanes.values.all (·.isDone) = true ↔ orderer.Done := by
  simp only [List.all_eq_true, Table.mem_values_iff, Lane.isDone, Bool.and_eq_true,
    List.isEmpty_iff]
  exact ⟨fun hdone chain lane hget => hdone lane ⟨chain, hget⟩,
    fun hdone lane ⟨chain, hget⟩ => hdone chain lane hget⟩

/-- What a resting orderer does is decided by its lanes and by a request to stop. -/
theorem Rests.nextStep_eq (hroom : 1 ≤ orderer.maxEventsPerUnit) (h : orderer.Rests) :
    orderer.nextStep =
      (if orderer.drain.lanes.values.all (·.isDone) then .finished
        else if orderer.stopRequested then .stopped else .blocked orderer.awaited,
      orderer.drain) := by
  have hdrained : 1 ≤ orderer.drain.maxEventsPerUnit := hroom
  have hreorg : orderer.drain.takeReorg = none := takeReorg_eq_none_iff.2 h.reorg
  have hfailures : orderer.drain.failures = [] := h.failures
  have hprogress : orderer.drain.lanes.values.any (·.hasNewProgress) = false := by
    rw [List.any_eq_false]
    intro lane hlane
    obtain ⟨chain, hget⟩ := Table.mem_values_iff.1 hlane
    rw [h.progress chain lane hget]
    exact Bool.false_ne_true
  rw [nextStep]
  dsimp only
  rw [hreorg, hfailures]
  dsimp only
  rw [takeEvents_rest_of_nil hdrained h.events, h.events, hprogress]
  cases orderer.drain.lanes.values.all (·.isDone) with
  | true => rfl
  | false =>
    have hstop : orderer.drain.stopRequested = orderer.stopRequested := rfl
    rw [hstop]
    cases orderer.stopRequested <;> rfl

theorem rests_of_nextStep (hroom : 1 ≤ orderer.maxEventsPerUnit)
    (h : orderer.nextStep.1.gives = false) : orderer.Rests := by
  rw [nextStep] at h
  dsimp only at h
  cases hreorg : orderer.drain.takeReorg with
  | some taken =>
    rw [hreorg] at h
    cases h
  | none =>
    rw [hreorg] at h
    cases hfailures : orderer.drain.failures with
    | cons failure rest =>
      rw [hfailures] at h
      cases h
    | nil =>
      rw [hfailures] at h
      dsimp only at h
      split at h
      next => cases h
      next hnothing =>
        simp only [Bool.or_eq_true, not_or, Bool.not_eq_true', Bool.not_eq_false,
          List.isEmpty_iff, List.any_eq_true, not_exists, not_and, Bool.not_eq_true] at hnothing
        obtain ⟨hevents, hprogress⟩ := hnothing
        have hdrained : 1 ≤ orderer.drain.maxEventsPerUnit := hroom
        rw [takeEvents_rest_of_nil hdrained hevents] at hprogress
        refine ⟨hfailures, takeReorg_eq_none_iff.1 hreorg, fun chain lane hget => ?_, hevents⟩
        exact hprogress lane (Table.mem_values_iff.2 ⟨chain, hget⟩)

theorem nextStep_finished_iff (hroom : 1 ≤ orderer.maxEventsPerUnit) :
    orderer.nextStep = (.finished, after) ↔
      after = orderer.drain ∧ orderer.Rests ∧ orderer.Done := by
  constructor
  · intro h
    have hrests := rests_of_nextStep hroom (by rw [h]; rfl)
    rw [hrests.nextStep_eq hroom] at h
    obtain ⟨hstep, rfl⟩ := Prod.mk.inj h
    refine ⟨rfl, hrests, ?_⟩
    by_contra hbusy
    rw [if_neg (mt all_isDone_iff.1 hbusy)] at hstep
    split at hstep <;> cases hstep
  · rintro ⟨rfl, hrests, hdone⟩
    rw [hrests.nextStep_eq hroom, if_pos (all_isDone_iff.2 hdone)]

theorem nextStep_stopped_iff (hroom : 1 ≤ orderer.maxEventsPerUnit) :
    orderer.nextStep.1 = .stopped ↔
      orderer.stopRequested = true ∧ orderer.Rests ∧ ¬ orderer.Done := by
  constructor
  · intro hstep
    have hrests := rests_of_nextStep hroom (by rw [hstep]; rfl)
    rw [hrests.nextStep_eq hroom] at hstep
    dsimp only at hstep
    split at hstep
    next => cases hstep
    next hbusy =>
      refine ⟨?_, hrests, mt all_isDone_iff.2 hbusy⟩
      by_contra hrunning
      rw [if_neg hrunning] at hstep
      cases hstep
  · rintro ⟨hstop, hrests, hbusy⟩
    rw [hrests.nextStep_eq hroom, if_neg (mt all_isDone_iff.1 hbusy), if_pos hstop]

theorem nextStep_blocked_iff (hroom : 1 ≤ orderer.maxEventsPerUnit) {awaited : List ChainId} :
    orderer.nextStep = (.blocked awaited, after) ↔
      after = orderer.drain ∧ awaited = orderer.awaited ∧ orderer.stopRequested = false ∧
        orderer.Rests ∧ ¬ orderer.Done := by
  constructor
  · intro h
    have hrests := rests_of_nextStep hroom (by rw [h]; rfl)
    rw [hrests.nextStep_eq hroom] at h
    obtain ⟨hstep, rfl⟩ := Prod.mk.inj h
    split at hstep
    next => cases hstep
    next hbusy =>
      split at hstep
      next => cases hstep
      next hrunning =>
        cases hstep
        exact ⟨rfl, rfl, Bool.not_eq_true _ ▸ hrunning, hrests, mt all_isDone_iff.2 hbusy⟩
  · rintro ⟨rfl, rfl, hrunning, hrests, hbusy⟩
    rw [hrests.nextStep_eq hroom, if_neg (mt all_isDone_iff.1 hbusy), hrunning]
    rfl

/-! ### The lanes waited for -/

theorem awaited_listens {chain : ChainId} (h : chain ∈ orderer.awaited) :
    ∃ lane, orderer.drain.lanes.get? chain = some lane ∧ lane.Listens := by
  obtain ⟨-, hwaitable⟩ := List.mem_filter.1 h
  obtain ⟨lane, hget, hlane⟩ := mem_waitable.1 (List.contains_iff_mem.1 hwaitable)
  refine ⟨lane, hget, ?_⟩
  rw [get?_drain] at hget
  obtain ⟨before, -, rfl⟩ := Option.map_eq_some_iff.1 hget
  exact Lane.drainReady_listens hlane

/-- Of the lanes that hold back the first event, or of all lanes if nothing is pending, one is not
finished, and it is waited for if it can be. -/
theorem Rests.exists_silent (hroom : 1 ≤ orderer.maxEventsPerUnit) (h : orderer.Rests)
    (hbusy : ¬ orderer.Done) :
    ∃ chain lane, orderer.drain.lanes.get? chain = some lane ∧ lane.pending = [] ∧
      lane.isFinished = false ∧ (lane.isWaitable = true → chain ∈ orderer.awaited) := by
  have hawaited : ∀ chain lane, orderer.drain.lanes.get? chain = some lane →
      lane.isWaitable = true → chain ∈ orderer.drain.takeEvents.2.1 → chain ∈ orderer.awaited := by
    intro chain lane hget hwaitable hmem
    refine List.mem_filter.2 ⟨hmem, List.contains_iff_mem.2 ?_⟩
    exact mem_waitable.2 ⟨lane, hget, hwaitable⟩
  have hdrained : 1 ≤ orderer.drain.maxEventsPerUnit := hroom
  rcases takeEvents_of_nil hdrained h.events with ⟨hempty, htakes⟩ | ⟨first, key, hsome, htakes⟩
  · simp only [Done, not_forall] at hbusy
    obtain ⟨chain, lane, hget, hopen⟩ := hbusy
    have hpending := hempty chain lane hget
    refine ⟨chain, lane, hget, hpending, ?_, fun hwaitable => ?_⟩
    · simpa [hpending] using hopen
    · refine hawaited chain lane hget hwaitable ?_
      rw [htakes]
      exact mem_waitable.2 ⟨lane, hget, hwaitable⟩
  · obtain ⟨chain, hchain⟩ := List.exists_mem_of_ne_nil _ hsome
    obtain ⟨⟨_, lane⟩, hentry, rfl⟩ := List.mem_map.1 hchain
    obtain ⟨hmem, hblocks⟩ := List.mem_filter.1 hentry
    have hget := Table.mem_entries_iff.1 hmem
    simp only [Bool.and_eq_true, Bool.not_eq_true', Lane.hasPending, Bool.not_eq_false',
      List.isEmpty_iff, Lane.cannotPrecede, Bool.or_eq_false_iff] at hblocks
    obtain ⟨⟨-, hpending⟩, ⟨hopen, -⟩, -⟩ := hblocks
    refine ⟨_, lane, hget, hpending, hopen, fun hwaitable => ?_⟩
    refine hawaited _ lane hget hwaitable ?_
    rw [htakes]
    exact hchain

theorem Rests.exists_abandoned (hroom : 1 ≤ orderer.maxEventsPerUnit) (h : orderer.Rests)
    (hbusy : ¬ orderer.Done) (hnone : orderer.awaited = []) :
    ∃ chain lane, orderer.drain.lanes.get? chain = some lane ∧ lane.Abandoned := by
  obtain ⟨chain, lane, hget, hpending, hopen, hawaited⟩ := h.exists_silent hroom hbusy
  rcases Lane.waitable_or_abandoned hpending (h.reorg chain lane hget) hopen with
    hwaitable | habandoned
  · have hmem := hawaited hwaitable
    rw [hnone] at hmem
    cases hmem
  · exact ⟨chain, lane, hget, habandoned⟩

/-- An orderer waits only for lanes that their fetchers can wake, and for none only if a fetcher
went away early. A stop ends nothing but such waits. It is finished exactly if every lane is, with
nothing pending and nothing left to report. -/
theorem waits_on_listening_lanes (mode : Mode) (maxEventsPerUnit : Nat)
    (lanes : Table ChainId Lane) (lastServed : Option ChainId) (stopRequested : Bool)
    (failures : List ChainFailure) :
    (∀ awaited after,
      (anyTime mode maxEventsPerUnit lanes lastServed stopRequested failures).nextStep =
          (.blocked awaited, after) →
        (∀ chain ∈ awaited, ∃ lane, after.lanes.get? chain = some lane ∧ lane.Listens) ∧
        (awaited = [] → ∃ chain lane, after.lanes.get? chain = some lane ∧ lane.Abandoned)) ∧
    ((anyTime mode maxEventsPerUnit lanes lastServed stopRequested failures).nextStep.1 = .stopped ↔
      stopRequested = true ∧ ∃ awaited,
        (anyTime mode maxEventsPerUnit lanes lastServed false failures).nextStep.1 =
          .blocked awaited) ∧
    ∀ after,
      (anyTime mode maxEventsPerUnit lanes lastServed stopRequested failures).nextStep =
          (.finished, after) ↔
        after = (anyTime mode maxEventsPerUnit lanes lastServed stopRequested failures).drain ∧
          failures = [] ∧
          ∀ chain lane, after.lanes.get? chain = some lane →
            lane.isFinished = true ∧ lane.pending = [] ∧ lane.hasNewProgress = false ∧
              lane.reorg = none := by
  have hroom : ∀ requested, 1 ≤ (anyTime mode maxEventsPerUnit lanes lastServed requested
      failures).maxEventsPerUnit := fun _ => Nat.le_max_right _ _
  refine ⟨fun awaited after hblocked => ?_, ?_, fun after => ?_⟩
  · obtain ⟨rfl, rfl, -, hrests, hbusy⟩ := (nextStep_blocked_iff (hroom _)).1 hblocked
    exact ⟨fun chain hchain => awaited_listens hchain, hrests.exists_abandoned (hroom _) hbusy⟩
  · rw [nextStep_stopped_iff (hroom _)]
    constructor
    · rintro ⟨hstop, hrests, hbusy⟩
      have hblocked := (nextStep_blocked_iff (hroom false)).2
        ⟨rfl, rfl, rfl, hrests.withStop false, hbusy⟩
      exact ⟨hstop, _, congrArg Prod.fst hblocked⟩
    · rintro ⟨hstop, awaited, hblocked⟩
      obtain ⟨-, -, -, hrests, hbusy⟩ := (nextStep_blocked_iff (hroom false)).1
        (Prod.ext hblocked rfl)
      exact ⟨hstop, hrests.withStop stopRequested, hbusy⟩
  · rw [nextStep_finished_iff (hroom _)]
    constructor
    · rintro ⟨rfl, hrests, hdone⟩
      refine ⟨rfl, hrests.failures, fun chain lane hget => ?_⟩
      obtain ⟨hfinished, hpending⟩ := hdone chain lane hget
      exact ⟨hfinished, hpending, hrests.progress chain lane hget, hrests.reorg chain lane hget⟩
    · rintro ⟨rfl, hfailures, hlanes⟩
      have hdone : (anyTime mode maxEventsPerUnit lanes lastServed stopRequested failures).Done :=
        fun chain lane hget => ⟨(hlanes chain lane hget).1, (hlanes chain lane hget).2.1⟩
      refine ⟨rfl, ⟨hfailures, fun chain lane hget => (hlanes chain lane hget).2.2.2,
        fun chain lane hget => (hlanes chain lane hget).2.2.1, ?_⟩, hdone⟩
      exact Empty.takeEvents_nil fun chain lane hget => (hdone chain lane hget).2

example : (anyTime .unordered 1 (.ofList [(1, .start 1 4)]) none false []).nextStep.1 =
    .blocked [1] := by decide

/-- A lane whose fetcher is gone is not waited for. -/
example :
    let lane := { Lane.start 1 4 with queue := ⟨4, [], false⟩ }
    (anyTime .unordered 1 (.ofList [(1, lane)]) none false []).nextStep.1 = .blocked [] := by decide

end Orderer

end ChainIndexer
