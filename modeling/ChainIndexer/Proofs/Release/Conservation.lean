import ChainIndexer.Proofs.Release.Merge

/-!
# Nothing is lost between queues and units

Whatever the order of chains, and in whatever order items come, units are taken and given back and
progress is reported, a lane and the units between them hold exactly what the lane's fetcher pushed:
first what the units hold, then what is pending, then what is in the queue. A reorg takes no events
away by itself. They go with the lane, when another one comes in its place.
-/

namespace ChainIndexer

namespace Lane

variable {lane : Lane} {chain : ChainId} {stream coming : List QueueItem} {taken : List Event}

/-- A stream can go on behind what was to come. -/
theorem Reads.extend (h : lane.Reads chain stream coming taken) (more : List QueueItem) :
    lane.Reads chain (stream ++ more) (coming ++ more) taken := by
  obtain ⟨read, hstream, hread⟩ := h
  refine ⟨read, ?_, hread⟩
  rw [hstream, List.append_assoc, List.append_assoc]

end Lane

namespace Orderer

variable {orderer : Orderer} {streams coming : ChainId → List QueueItem} {taken : List Event}
  {events : List Event} {step : OrdererStep} {after : Orderer}

/-! ### The size of a unit -/

theorem takeOrdered_length_le (room : Nat) (orderer : Orderer) :
    (takeOrdered room orderer).1.length ≤ room := by
  induction room generalizing orderer with
  | zero => exact Nat.le_refl 0
  | succ room ih =>
    rw [takeOrdered]
    cases leastFront orderer.lanes.entries with
    | none => exact Nat.zero_le _
    | some front =>
      dsimp only
      cases orderer.blocking front.1 front.2.key with
      | cons first others => exact Nat.zero_le _
      | nil => exact Nat.succ_le_succ (ih _)

theorem takeUnordered_length_le (orderer : Orderer) :
    orderer.takeUnordered.1.length ≤ orderer.maxEventsPerUnit := by
  rw [takeUnordered]
  cases orderer.nextServed with
  | none => exact Nat.zero_le _
  | some chain =>
    dsimp only
    cases orderer.lanes.get? chain with
    | none => exact Nat.zero_le _
    | some lane => exact List.length_take_le _ _

theorem takeEvents_length_le (orderer : Orderer) :
    orderer.takeEvents.1.length ≤ orderer.maxEventsPerUnit := by
  rw [takeEvents]
  cases orderer.mode with
  | unordered => exact orderer.takeUnordered_length_le
  | ordered => exact takeOrdered_length_le _ _

theorem takeEvents_maxEventsPerUnit (orderer : Orderer) :
    orderer.takeEvents.2.2.maxEventsPerUnit = orderer.maxEventsPerUnit := by
  rw [takeEvents]
  cases orderer.mode with
  | unordered =>
    dsimp only
    rw [takeUnordered]
    cases orderer.nextServed with
    | none => rfl
    | some chain => rfl
  | ordered => exact congrArg (·.maxEventsPerUnit) (takeOrdered_lanes orderer _)

theorem nextStep_maxEventsPerUnit (orderer : Orderer) :
    orderer.nextStep.2.maxEventsPerUnit = orderer.maxEventsPerUnit := by
  have htake := orderer.drain.takeEvents_maxEventsPerUnit
  have hturn := orderer.nextStep_turn
  generalize orderer.nextStep.1 = step, orderer.nextStep.2 = after at hturn ⊢
  cases hturn with
  | reorg => rfl
  | failure => rfl
  | unit => exact htake
  | finished => exact htake
  | stopped => exact htake
  | blocked => exact htake

/-- A unit is no larger than asked for. -/
theorem length_le_of_nextStep (h : orderer.nextStep.1 = .unit events) :
    events.length ≤ orderer.maxEventsPerUnit := by
  have hturn := orderer.nextStep_turn
  rw [h] at hturn
  generalize orderer.nextStep.2 = after at hturn
  cases hturn with
  | unit => exact orderer.drain.takeEvents_length_le

/-! ### Streams that grow -/

theorem Reads.unit (h : orderer.Reads streams coming taken)
    (hstreams : ∀ chain, ∀ event ∈ eventsOf (streams chain), event.chain = chain)
    (hunit : orderer.nextStep.1 = .unit events) :
    orderer.nextStep.2.Reads streams coming (taken ++ events) := by
  generalize hnext : orderer.nextStep = next at hunit ⊢
  obtain ⟨step, after⟩ := next
  cases hunit
  obtain ⟨-, hgives, -⟩ := nextStep_cases (h.drain.own hstreams) hnext
  exact h.drain.gives hgives

/-- An item is pushed behind all that a chain has brought. -/
theorem Reads.push (h : orderer.Reads streams (fun _ => []) taken) {chain : ChainId}
    (hlane : orderer.hasLane chain = true) (item : QueueItem) :
    (orderer.changeLane chain fun lane => { lane with queue := lane.queue.push item }).Reads
      (Function.update streams chain (streams chain ++ [item])) (fun _ => []) taken := by
  have hgrown : orderer.Reads (Function.update streams chain (streams chain ++ [item]))
      (Function.update (fun _ => []) chain [item]) taken := by
    refine ⟨fun other lane hget => ?_, fun other hnone => ?_⟩
    · by_cases hother : other = chain
      · subst hother
        rw [Function.update_self, Function.update_self]
        exact (h.lane other lane hget).extend [item]
      · rw [Function.update_of_ne hother, Function.update_of_ne hother]
        exact h.lane other lane hget
    · have hother : other ≠ chain := by
        rintro rfl
        obtain ⟨lane, hget⟩ := Table.contains_iff.1 hlane
        rw [hnone] at hget
        cases hget
      rw [Function.update_of_ne hother]
      exact h.absent other hnone
  have hpushed := hgrown.changeLane chain [] (f := fun lane =>
      { lane with queue := lane.queue.push item }) fun lane _ hreads => by
    rw [Function.update_self chain [item] fun _ => []] at hreads
    exact hreads.push
  rwa [Function.update_idem, Function.update_eq_self] at hpushed

theorem filter_removed (chain : ChainId) (events : List Event) :
    (events.filter (·.chain ≠ chain)).filter (·.chain = chain) = [] := by
  rw [List.filter_filter, List.filter_eq_nil_iff]
  intro event _ hboth
  simp at hboth

theorem filter_removed_of_ne {chain other : ChainId} (hother : other ≠ chain)
    (events : List Event) :
    (events.filter (·.chain ≠ chain)).filter (·.chain = other) =
      events.filter (·.chain = other) := by
  rw [List.filter_filter]
  refine List.filter_congr fun event _ => ?_
  by_cases hevent : event.chain = other
  · simp [hevent, hother]
  · simp [hevent]

/-- A new lane has read nothing of what its fetcher brings. -/
theorem Reads.addLane (h : orderer.Reads streams coming taken) (chain : ChainId) (depth : Nat)
    (items : List QueueItem) :
    (orderer.addLane (.start chain depth)).Reads (Function.update streams chain items)
      (Function.update coming chain items) (taken.filter (·.chain ≠ chain)) := by
  have hlanes (other : ChainId) : (orderer.addLane (.start chain depth)).lanes.get? other =
      if other = chain then some (.start chain depth) else orderer.lanes.get? other :=
    Table.get?_insert ..
  refine ⟨fun other lane hget => ?_, fun other hnone => ?_⟩
  · rw [hlanes] at hget
    split at hget
    next hother =>
      cases hget
      subst hother
      rw [Function.update_self, Function.update_self, filter_removed]
      exact .start items depth
    next hother =>
      rw [Function.update_of_ne hother, Function.update_of_ne hother, filter_removed_of_ne hother]
      exact h.lane other lane hget
  · rw [hlanes] at hnone
    split at hnone
    next => cases hnone
    next hother =>
      rw [Function.update_of_ne hother, filter_removed_of_ne hother]
      exact h.absent other hnone

theorem Reads.removeLane (h : orderer.Reads streams coming taken) (chain : ChainId) :
    (orderer.removeLane chain).Reads (Function.update streams chain []) coming
      (taken.filter (·.chain ≠ chain)) := by
  refine ⟨fun other lane hget => ?_, fun other hnone => ?_⟩
  · rw [Orderer.removeLane, Table.get?_erase] at hget
    split at hget
    next => cases hget
    next hother =>
      rw [Function.update_of_ne hother, filter_removed_of_ne hother]
      exact h.lane other lane hget
  · rw [Orderer.removeLane, Table.get?_erase] at hnone
    by_cases hother : other = chain
    · subst hother
      exact ⟨Function.update_self .., filter_removed other taken⟩
    · rw [if_neg hother] at hnone
      rw [Function.update_of_ne hother, filter_removed_of_ne hother]
      exact h.absent other hnone

end Orderer

/-- An orderer with what the fetchers of its lanes have pushed and what its units hold. -/
structure UnitRun where
  orderer : Orderer
  /-- What the fetcher of each lane has pushed. -/
  pushed : ChainId → List QueueItem
  /-- The events of all units before the last one, without those that were given back, and of lanes
  that are still there. -/
  earlier : List Event
  /-- The events of the last unit, likewise. -/
  last : List Event

/-- What may happen to an orderer. -/
inductive OrdererMove where
  /-- A chain is fetched, or fetched anew in place of an earlier fetcher. -/
  | addLane (chain : ChainId) (depth : Nat)
  | removeLane (chain : ChainId)
  /-- The fetcher of a chain pushes an item with events of this chain. -/
  | push (chain : ChainId) (item : QueueItem) (own : ∀ event ∈ item.events, event.chain = chain)
  /-- The fetcher of a chain is gone. -/
  | close (chain : ChainId)
  /-- A lane takes an item, if there is one. -/
  | wait (chain : ChainId)
  | signal (failures : List ChainFailure) (stopRequested : Bool)
  | nextStep
  /-- The first events of the last unit are kept, and the others go back. -/
  | restore (kept : Nat)
  /-- The lanes report what they did. -/
  | progress (committed : List Event)

namespace UnitRun

def start (mode : Mode) (maxEventsPerUnit : Nat) : UnitRun where
  orderer := .start mode maxEventsPerUnit
  pushed _ := []
  earlier := []
  last := []

/-- What units hold. -/
def taken (run : UnitRun) : List Event := run.earlier ++ run.last

/-- Once the lane of a chain is another one, or none, what the lane before brought and gave does not
count any more. -/
def forget (run : UnitRun) (chain : ChainId) (orderer : Orderer) : UnitRun where
  orderer := orderer
  pushed := Function.update run.pushed chain []
  earlier := run.earlier.filter (·.chain ≠ chain)
  last := run.last.filter (·.chain ≠ chain)

/-- An item goes into the queue of a lane, if there is one. -/
def push (run : UnitRun) (chain : ChainId) (item : QueueItem) : UnitRun :=
  if run.orderer.hasLane chain then
    { run with
      orderer := run.orderer.changeLane chain fun lane =>
        { lane with queue := lane.queue.push item }
      pushed := Function.update run.pushed chain (run.pushed chain ++ [item]) }
  else run

def nextStep (run : UnitRun) : UnitRun :=
  match run.orderer.nextStep.1 with
  | .unit events =>
    { run with orderer := run.orderer.nextStep.2, earlier := run.taken, last := events }
  | _ => { run with orderer := run.orderer.nextStep.2 }

def move (run : UnitRun) : OrdererMove → UnitRun
  | .addLane chain depth => run.forget chain (run.orderer.addLane (.start chain depth))
  | .removeLane chain => run.forget chain (run.orderer.removeLane chain)
  | .push chain item _ => run.push chain item
  | .close chain =>
    { run with
      orderer := run.orderer.changeLane chain fun lane =>
        { lane with queue := lane.queue.close } }
  | .wait chain =>
    { run with orderer := run.orderer.changeLane chain fun lane => lane.waitItem.getD lane }
  | .signal failures stopRequested =>
    { run with
      orderer := { run.orderer with failures := failures, stopRequested := stopRequested } }
  | .nextStep => run.nextStep
  | .restore kept =>
    { run with
      orderer := run.orderer.restore (run.last.drop kept)
      last := run.last.take kept }
  | .progress committed => { run with orderer := (run.orderer.progress committed).2.2 }

def play (run : UnitRun) (moves : List OrdererMove) : UnitRun := moves.foldl move run

/-- What holds all along a run. -/
structure Upholds (run : UnitRun) (mode : Mode) (maxEventsPerUnit : Nat) : Prop where
  mode : run.orderer.mode = mode
  room : run.orderer.maxEventsPerUnit = max maxEventsPerUnit 1
  own : ∀ chain, ∀ event ∈ eventsOf (run.pushed chain), event.chain = chain
  reads : run.orderer.Reads run.pushed (fun _ => []) run.taken

variable {run : UnitRun} {mode : Mode} {maxEventsPerUnit : Nat}

theorem own_update {streams : ChainId → List QueueItem} {chain : ChainId} {items : List QueueItem}
    (h : ∀ chain, ∀ event ∈ eventsOf (streams chain), event.chain = chain)
    (hitems : ∀ event ∈ eventsOf items, event.chain = chain) (other : ChainId) :
    ∀ event ∈ eventsOf (Function.update streams chain items other), event.chain = other := by
  by_cases hother : other = chain
  · subst hother
    rwa [Function.update_self]
  · rw [Function.update_of_ne hother]
    exact h other

theorem upholds_start (mode : Mode) (maxEventsPerUnit : Nat) :
    (start mode maxEventsPerUnit).Upholds mode maxEventsPerUnit where
  mode := rfl
  room := rfl
  own := fun _ _ hevent => absurd hevent List.not_mem_nil
  reads := ⟨fun _ _ hget => (nomatch hget), fun _ _ => ⟨rfl, rfl⟩⟩

theorem Upholds.forget (h : run.Upholds mode maxEventsPerUnit) (chain : ChainId) {orderer : Orderer}
    (hmode : orderer.mode = run.orderer.mode)
    (hroom : orderer.maxEventsPerUnit = run.orderer.maxEventsPerUnit)
    (hreads : orderer.Reads (Function.update run.pushed chain []) (fun _ => [])
      (run.taken.filter (·.chain ≠ chain))) :
    (run.forget chain orderer).Upholds mode maxEventsPerUnit := by
  refine ⟨hmode.trans h.mode, hroom.trans h.room, own_update h.own fun _ hevent => ?_, ?_⟩
  · exact absurd hevent List.not_mem_nil
  · rwa [taken, List.filter_append] at hreads

theorem Upholds.push (h : run.Upholds mode maxEventsPerUnit) (chain : ChainId) {item : QueueItem}
    (hitem : ∀ event ∈ item.events, event.chain = chain) :
    (run.push chain item).Upholds mode maxEventsPerUnit := by
  rw [UnitRun.push]
  split
  next hlane =>
    refine ⟨h.mode, h.room, own_update h.own fun event hevent => ?_, h.reads.push hlane item⟩
    rw [eventsOf_append, eventsOf_cons, eventsOf_nil, List.append_nil, List.mem_append] at hevent
    exact hevent.elim (h.own chain event) (hitem event)
  next => exact h

/-- A change of one lane keeps what held if the lane still reads what was pushed. -/
theorem Upholds.changeLane (h : run.Upholds mode maxEventsPerUnit) (chain : ChainId)
    {f : Lane → Lane}
    (hf : ∀ lane : Lane, ∀ taken : List Event,
      lane.Reads chain (run.pushed chain) [] taken →
        (f lane).Reads chain (run.pushed chain) [] taken) :
    { run with orderer := run.orderer.changeLane chain f }.Upholds mode maxEventsPerUnit := by
  have hreads := h.reads.changeLane chain [] fun lane _ => hf lane _
  rw [Function.update_eq_self chain fun _ => []] at hreads
  exact ⟨h.mode, h.room, h.own, hreads⟩

theorem Upholds.nextStep (h : run.Upholds mode maxEventsPerUnit) :
    run.nextStep.Upholds mode maxEventsPerUnit := by
  have hmode := (Orderer.nextStep_cases (h.reads.drain.own h.own)
    (Prod.eta run.orderer.nextStep).symm).1.trans h.mode
  have hroom := run.orderer.nextStep_maxEventsPerUnit.trans h.room
  rw [UnitRun.nextStep]
  split
  next events hunit => exact ⟨hmode, hroom, h.own, h.reads.unit h.own hunit⟩
  next hother => exact ⟨hmode, hroom, h.own, h.reads.nextStep h.own hother⟩

theorem Upholds.restore (h : run.Upholds mode maxEventsPerUnit) (kept : Nat) :
    (run.move (.restore kept)).Upholds mode maxEventsPerUnit := by
  refine ⟨h.mode, h.room, h.own, Orderer.Reads.restore ?_⟩
  have hreads := h.reads
  rw [taken, ← List.take_append_drop kept run.last, ← List.append_assoc] at hreads
  exact hreads

theorem Upholds.move (h : run.Upholds mode maxEventsPerUnit) (move : OrdererMove) :
    (run.move move).Upholds mode maxEventsPerUnit := by
  cases move with
  | addLane chain depth =>
    have hreads := h.reads.addLane chain depth []
    rw [Function.update_eq_self chain fun _ => []] at hreads
    exact h.forget chain rfl rfl hreads
  | removeLane chain => exact h.forget chain rfl rfl (h.reads.removeLane chain)
  | push chain item hitem => exact h.push chain hitem
  | close chain => exact h.changeLane chain fun _ _ hlane => hlane.of_lane rfl rfl rfl rfl rfl
  | wait chain =>
    refine h.changeLane chain fun lane taken hlane => ?_
    cases hwait : lane.waitItem with
    | none => exact hlane
    | some lane' => exact hlane.waitItem hwait
  | signal failures stopRequested =>
    exact ⟨h.mode, h.room, h.own, h.reads.lane, h.reads.absent⟩
  | nextStep => exact h.nextStep
  | restore kept => exact h.restore kept
  | progress committed => exact ⟨h.mode, h.room, h.own, h.reads.progress committed⟩

theorem Upholds.play (h : run.Upholds mode maxEventsPerUnit) (moves : List OrdererMove) :
    (run.play moves).Upholds mode maxEventsPerUnit := by
  induction moves generalizing run with
  | nil => exact h
  | cons move rest ih => exact ih (h.move move)

/-- At any time, what the units hold of a lane's events, what is pending on the lane and what the
batches in its queue bring is, in this order, what its fetcher pushed. The next unit holds no more
events than it may and, if unordered, those of one chain only. -/
theorem play_conserves (mode : Mode) (maxEventsPerUnit : Nat) (moves : List OrdererMove) :
    let run := (start mode maxEventsPerUnit).play moves
    (∀ chain lane, run.orderer.lanes.get? chain = some lane →
      run.taken.filter (·.chain = chain) ++ lane.pending ++ eventsOf lane.queue.items =
        eventsOf (run.pushed chain)) ∧
      ∀ events, run.orderer.nextStep.1 = .unit events →
        events.length ≤ max maxEventsPerUnit 1 ∧
          (mode = .unordered → ∃ chain, ∀ event ∈ events, event.chain = chain) := by
  intro run
  have hupholds : run.Upholds mode maxEventsPerUnit := (upholds_start ..).play moves
  refine ⟨fun chain lane hlane => ?_, fun events hunit => ⟨?_, fun hunordered => ?_⟩⟩
  · have hfuture := (hupholds.reads.lane chain lane hlane).future
    rwa [Lane.future, List.append_nil, ← List.append_assoc] at hfuture
  · exact hupholds.room ▸ Orderer.length_le_of_nextStep hunit
  · generalize hnext : run.orderer.nextStep = next at hunit
    obtain ⟨step, after⟩ := next
    cases hunit
    obtain ⟨-, -, hchain⟩ := Orderer.nextStep_cases (hupholds.reads.drain.own hupholds.own) hnext
    exact hchain (hupholds.mode.trans hunordered)

/-- Of a unit over two lanes the first event is kept, and the others go back to their lanes. -/
example :
    let run := (start .ordered 3).play
      [.addLane 1 2, .addLane 2 2,
        .push 1 (MergeRun.batchBelowHead 1 12 [.placed 1 10 0, .placed 1 12 0]) (by decide),
        .push 2 (MergeRun.batchBelowHead 2 11 [.placed 2 11 0]) (by decide), .nextStep, .restore 1]
    run.last = [.placed 1 10 0] ∧
      run.orderer.lanes.values.map (·.pending) = [[.placed 1 12 0], [.placed 2 11 0]] := by
  decide +kernel

end UnitRun

end ChainIndexer
