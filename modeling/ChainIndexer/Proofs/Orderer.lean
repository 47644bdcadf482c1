import ChainIndexer.Orderer
import ChainIndexer.Proofs.Table

/-!
# What the orderer takes from lanes

Whatever the order of chains, the events of a unit are taken from the fronts of the lanes, so that
each lane keeps what stood behind its own events.
-/

namespace ChainIndexer

/-- What becomes of a lane, if there is one, when some events are taken from it. -/
inductive Lane.Gives (events : List Event) : Option Lane → Option Lane → Prop
  | absent (hevents : events = []) : Gives events none none
  | lane {lane : Lane} {rest : List Event} (hpending : lane.pending = events ++ rest) :
    Gives events (some lane) (some { lane with pending := rest })

theorem Lane.Gives.refl (lane : Option Lane) : Lane.Gives [] lane lane := by
  cases lane with
  | none => exact .absent rfl
  | some lane => exact .lane (List.nil_append _).symm

theorem Lane.Gives.trans {first second : List Event} {a b c : Option Lane}
    (h : Lane.Gives first a b) (h' : Lane.Gives second b c) : Lane.Gives (first ++ second) a c := by
  cases h with
  | absent hfirst =>
    cases h' with
    | absent hsecond => exact .absent (by rw [hfirst, hsecond, List.append_nil])
  | lane hpending =>
    cases h' with
    | lane hpending' =>
      refine .lane ?_
      rw [hpending, List.append_assoc]
      exact congrArg _ hpending'

theorem filter_chain_eq_nil {events : List Event} {chain other : ChainId}
    (hevents : ∀ event ∈ events, event.chain = chain) (hother : other ≠ chain) :
    events.filter (·.chain = other) = [] := by
  refine List.filter_eq_nil_iff.2 fun event hevent => ?_
  rw [hevents event hevent, decide_eq_true_eq]
  exact Ne.symm hother

/-- If the lane of one chain changes and keeps its chain, each lane comes from one of its chain. -/
theorem Lane.exists_of_changed {lanes changed : Table ChainId Lane} {id : ChainId} {f : Lane → Lane}
    (hlanes : ∀ other, changed.get? other =
      if other = id then (lanes.get? id).map f else lanes.get? other)
    (hchain : ∀ lane, (f lane).chain = lane.chain) {other : ChainId} {lane : Lane}
    (hget : changed.get? other = some lane) :
    ∃ before, lanes.get? other = some before ∧ lane.chain = before.chain := by
  rw [hlanes] at hget
  split at hget
  next hsame =>
    obtain ⟨before, hbefore, rfl⟩ := Option.map_eq_some_iff.1 hget
    exact ⟨before, hsame ▸ hbefore, hchain before⟩
  next => exact ⟨lane, hget, rfl⟩

namespace Orderer

/-- Whether some events were taken from the fronts of their lanes. -/
def Gives (before after : Orderer) (events : List Event) : Prop :=
  ∀ chain, Lane.Gives (events.filter (·.chain = chain)) (before.lanes.get? chain)
    (after.lanes.get? chain)

/-- Whether the pending events of each lane are events of its chain. -/
def Own (orderer : Orderer) : Prop :=
  ∀ chain lane, orderer.lanes.get? chain = some lane → ∀ event ∈ lane.pending, event.chain = chain

theorem Gives.refl (orderer : Orderer) : orderer.Gives orderer [] := fun _ => .refl _

theorem Gives.trans {first second : List Event} {a b c : Orderer} (h : a.Gives b first)
    (h' : b.Gives c second) : a.Gives c (first ++ second) := by
  intro chain
  rw [List.filter_append]
  exact (h chain).trans (h' chain)

theorem Own.gives {before after : Orderer} {events : List Event} (hown : before.Own)
    (h : before.Gives after events) : after.Own := by
  intro chain lane hget event hevent
  have hchain := h chain
  rw [hget] at hchain
  generalize hbefore : before.lanes.get? chain = found at hchain
  cases hchain with
  | lane hpending =>
    exact hown chain _ hbefore event (hpending ▸ List.mem_append_right _ hevent)

theorem gives_changeLane {orderer : Orderer} {chain : ChainId} {lane : Lane}
    {events rest : List Event} {f : Lane → Lane} (hown : orderer.Own)
    (hget : orderer.lanes.get? chain = some lane) (hpending : lane.pending = events ++ rest)
    (hf : f lane = { lane with pending := rest }) :
    orderer.Gives (orderer.changeLane chain f) events := by
  have hchain : ∀ event ∈ events, event.chain = chain := fun event hevent =>
    hown chain lane hget event (hpending ▸ List.mem_append_left _ hevent)
  intro other
  rw [changeLane, Table.get?_modify]
  by_cases hother : other = chain
  · subst hother
    rw [if_pos rfl, hget, Option.map_some, hf,
      List.filter_eq_self.2 fun event hevent => decide_eq_true (hchain event hevent)]
    exact .lane hpending
  · rw [if_neg hother, filter_chain_eq_nil hchain hother]
    exact .refl _

theorem takeUnordered_gives {orderer : Orderer} (hown : orderer.Own) :
    orderer.Gives orderer.takeUnordered.2.2 orderer.takeUnordered.1 ∧
      ∃ chain, ∀ event ∈ orderer.takeUnordered.1, event.chain = chain := by
  rw [takeUnordered]
  cases orderer.nextServed with
  | none => exact ⟨.refl _, 0, fun event hevent => absurd hevent List.not_mem_nil⟩
  | some chain =>
    dsimp only
    cases hget : orderer.lanes.get? chain with
    | none =>
      refine ⟨fun other => ?_, chain, fun event hevent => absurd hevent List.not_mem_nil⟩
      rw [Option.elim_none, changeLane, Table.get?_modify]
      by_cases hother : other = chain
      · rw [if_pos hother, hother, hget]
        exact .absent rfl
      · rw [if_neg hother]
        exact .refl _
    | some lane =>
      have htaken : lane.pending = lane.pending.take orderer.maxEventsPerUnit ++
          lane.pending.drop orderer.maxEventsPerUnit := (List.take_append_drop _ _).symm
      refine ⟨gives_changeLane hown hget htaken rfl, chain, fun event hevent => ?_⟩
      exact hown chain lane hget event (List.mem_of_mem_take hevent)

theorem leastFront_eq_some {lanes : List (ChainId × Lane)} {chain : ChainId} {event : Event}
    (h : leastFront lanes = some (chain, event)) :
    ∃ lane rest, (chain, lane) ∈ lanes ∧ lane.pending = event :: rest := by
  rw [leastFront] at h
  refine List.foldlRecOn (motive := fun least => ∀ chain event, least = some (chain, event) →
    ∃ lane rest, (chain, lane) ∈ lanes ∧ lane.pending = event :: rest) lanes _
    (by rintro _ _ ⟨⟩) (fun least hleast entry hentry => ?_) chain event h
  intro chain event hnext
  split at hnext
  next => exact hleast chain event hnext
  next hpending =>
    cases hnext
    exact ⟨entry.2, _, hentry, hpending⟩
  next hpending =>
    split at hnext
    · cases hnext
      exact ⟨entry.2, _, hentry, hpending⟩
    · exact hleast chain event hnext

theorem takeOrdered_gives {orderer : Orderer} (hown : orderer.Own) (room : Nat) :
    orderer.Gives (takeOrdered room orderer).2.2 (takeOrdered room orderer).1 := by
  induction room generalizing orderer with
  | zero => exact .refl _
  | succ room ih =>
    rw [takeOrdered]
    cases hleast : leastFront orderer.lanes.entries with
    | none => exact .refl _
    | some front =>
      obtain ⟨chain, event⟩ := front
      obtain ⟨lane, rest, hentry, hpending⟩ := leastFront_eq_some hleast
      dsimp only
      cases orderer.blocking chain event.key with
      | cons first others => exact .refl _
      | nil =>
        have hpop : lane.popFront.2 = { lane with pending := rest } := by
          rw [Lane.popFront, hpending]
          rfl
        have hfirst : orderer.Gives
            (orderer.changeLane chain fun lane => lane.popFront.2) [event] :=
          gives_changeLane hown (Table.mem_entries_iff.1 hentry) hpending hpop
        exact hfirst.trans (ih (hown.gives hfirst))

/-- Of an orderer only the lanes change when events are taken in order. -/
theorem takeOrdered_lanes (orderer : Orderer) (room : Nat) :
    (takeOrdered room orderer).2.2 =
      { orderer with lanes := (takeOrdered room orderer).2.2.lanes } := by
  induction room generalizing orderer with
  | zero => rfl
  | succ room ih =>
    rw [takeOrdered]
    cases leastFront orderer.lanes.entries with
    | none => rfl
    | some front =>
      dsimp only
      cases orderer.blocking front.1 front.2.key with
      | cons first others => rfl
      | nil => exact ih _

theorem takeOrdered_mode (orderer : Orderer) (room : Nat) :
    (takeOrdered room orderer).2.2.mode = orderer.mode :=
  congrArg (·.mode) (takeOrdered_lanes orderer room)

theorem takeEvents_ordered {orderer : Orderer} (hmode : orderer.mode = .ordered) :
    orderer.takeEvents = takeOrdered orderer.maxEventsPerUnit orderer := by
  rw [takeEvents, hmode]

theorem takeEvents_gives {orderer : Orderer} (hown : orderer.Own) :
    orderer.takeEvents.2.2.mode = orderer.mode ∧
      orderer.Gives orderer.takeEvents.2.2 orderer.takeEvents.1 ∧
      (orderer.mode = .unordered →
        ∃ chain, ∀ event ∈ orderer.takeEvents.1, event.chain = chain) := by
  rw [takeEvents]
  cases hmode : orderer.mode with
  | unordered =>
    obtain ⟨hgives, hchain⟩ := takeUnordered_gives hown
    refine ⟨?_, hgives, fun _ => hchain⟩
    dsimp only
    rw [takeUnordered]
    cases orderer.nextServed with
    | none => exact hmode
    | some chain => exact hmode
  | ordered =>
    exact ⟨(takeOrdered_mode ..).trans hmode, takeOrdered_gives hown _, fun h => nomatch h⟩

@[simp]
theorem get?_drain (orderer : Orderer) (chain : ChainId) :
    orderer.drain.lanes.get? chain = (orderer.lanes.get? chain).map Lane.drainReady :=
  Table.get?_map ..

/-- A reorg that comes next is the one that a lane told of. -/
theorem takeReorg_eq_some {orderer after : Orderer} {reorg : Reorg}
    (h : orderer.takeReorg = some (reorg, after)) :
    ∃ chain lane, orderer.lanes.get? chain = some lane ∧ lane.reorg = some reorg ∧
      after = orderer.changeLane chain fun lane => lane.takeReorg.2 := by
  rw [takeReorg] at h
  obtain ⟨⟨chain, found⟩, hfound, hafter⟩ := Option.map_eq_some_iff.1 h
  cases hafter
  obtain ⟨⟨id, lane⟩, hentry, hlane⟩ := List.exists_of_findSome?_eq_some hfound
  obtain ⟨noticed, hnoticed, heq⟩ := Option.map_eq_some_iff.1 hlane
  cases heq
  exact ⟨id, lane, Table.mem_entries_iff.1 hentry, hnoticed, rfl⟩

/-- A step of an orderer, with the reason for it. -/
inductive Turn (orderer : Orderer) : OrdererStep → Orderer → Prop
  | reorg {chain : ChainId} {lane : Lane} {reorg : Reorg}
      (hlane : orderer.drain.lanes.get? chain = some lane) (hreorg : lane.reorg = some reorg) :
      Turn orderer (.reorg reorg) (orderer.drain.changeLane chain fun lane => lane.takeReorg.2)
  | failure {failure : ChainFailure} {rest : List ChainFailure}
      (hfailures : orderer.failures = failure :: rest) :
      Turn orderer (.failure failure) { orderer.drain with failures := rest }
  | unit : Turn orderer (.unit orderer.drain.takeEvents.1) orderer.drain.takeEvents.2.2
  | finished (hnone : orderer.drain.takeEvents.1 = [])
      (hdone : ∀ lane ∈ orderer.drain.takeEvents.2.2.lanes.values, lane.isDone = true) :
      Turn orderer .finished orderer.drain.takeEvents.2.2
  | stopped (hnone : orderer.drain.takeEvents.1 = []) :
      Turn orderer .stopped orderer.drain.takeEvents.2.2
  | blocked {awaited : List ChainId} (hnone : orderer.drain.takeEvents.1 = []) :
      Turn orderer (.blocked awaited) orderer.drain.takeEvents.2.2

theorem turn_of_nextStep {orderer after : Orderer} {step : OrdererStep}
    (h : orderer.nextStep = (step, after)) : orderer.Turn step after := by
  rw [nextStep] at h
  dsimp only at h
  cases hreorg : orderer.drain.takeReorg with
  | some taken =>
    obtain ⟨reorg, rest⟩ := taken
    rw [hreorg] at h
    cases h
    obtain ⟨chain, lane, hlane, hnoticed, rfl⟩ := takeReorg_eq_some hreorg
    exact .reorg hlane hnoticed
  | none =>
    rw [hreorg] at h
    cases hfailures : orderer.drain.failures with
    | cons failure rest =>
      rw [hfailures] at h
      cases h
      exact .failure hfailures
    | nil =>
      rw [hfailures] at h
      dsimp only at h
      split at h
      next =>
        cases h
        exact .unit
      next hempty =>
        have hnone : orderer.drain.takeEvents.1 = [] := by
          rw [Bool.or_eq_true, not_or] at hempty
          simpa using hempty.1
        split at h
        next hdone =>
          cases h
          exact .finished hnone (List.all_eq_true.1 hdone)
        next =>
          split at h
          next =>
            cases h
            exact .stopped hnone
          next =>
            cases h
            exact .blocked hnone

theorem nextStep_turn (orderer : Orderer) : orderer.Turn orderer.nextStep.1 orderer.nextStep.2 :=
  turn_of_nextStep (Prod.eta orderer.nextStep).symm

/-- What comes next: a unit of events taken from the fronts of the lanes, the reorg of a lane, or
nothing is taken. -/
theorem nextStep_cases {orderer after : Orderer} {step : OrdererStep} (hown : orderer.drain.Own)
    (h : orderer.nextStep = (step, after)) :
    after.mode = orderer.mode ∧
      match step with
      | .unit events => orderer.drain.Gives after events ∧
        (orderer.mode = .unordered → ∃ chain, ∀ event ∈ events, event.chain = chain)
      | .reorg reorg => ∃ chain lane, orderer.drain.lanes.get? chain = some lane ∧
        lane.reorg = some reorg ∧
          after = orderer.drain.changeLane chain fun lane => lane.takeReorg.2
      | _ => orderer.drain.Gives after [] := by
  obtain ⟨hmode, hgives, hchain⟩ := takeEvents_gives hown
  cases turn_of_nextStep h with
  | reorg hlane hreorg => exact ⟨rfl, _, _, hlane, hreorg, rfl⟩
  | failure => exact ⟨rfl, fun _ => .refl _⟩
  | unit => exact ⟨hmode, hgives, hchain⟩
  | finished hnone => exact ⟨hmode, hnone ▸ hgives⟩
  | stopped hnone => exact ⟨hmode, hnone ▸ hgives⟩
  | blocked hnone => exact ⟨hmode, hnone ▸ hgives⟩

/-- What comes next, if no lane has a reorg: a unit of events taken from the fronts of the lanes, or
nothing is taken. -/
theorem nextStep_gives {orderer after : Orderer} {step : OrdererStep} (hown : orderer.drain.Own)
    (hreorg : ∀ chain lane, orderer.drain.lanes.get? chain = some lane → lane.reorg = none)
    (h : orderer.nextStep = (step, after)) :
    after.mode = orderer.mode ∧
      match step with
      | .unit events => orderer.drain.Gives after events ∧
        (orderer.mode = .unordered → ∃ chain, ∀ event ∈ events, event.chain = chain)
      | .reorg _ => False
      | _ => orderer.drain.Gives after [] := by
  have hcases := nextStep_cases hown h
  cases step with
  | reorg reorg =>
    obtain ⟨-, chain, lane, hlane, hnoticed, -⟩ := hcases
    rw [hreorg chain lane hlane] at hnoticed
    cases hnoticed
  | _ => exact hcases

end Orderer

end ChainIndexer
