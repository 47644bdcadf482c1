import ChainIndexer.Proofs.Rollback.NeverIndexed

/-!
# Cutting events into units

A unit loads entities before any of its events is handled, and its later events see what the earlier
ones did through an overlay. This comes to the same as handling and committing its events one at a
time, so how events are cut into units leaves no trace.
-/

namespace ChainIndexer

/-! ### Writes in turn -/

namespace Store

theorem number_append (lastSerial : Nat) (first second : List HistoryEntry) :
    number lastSerial (first ++ second) =
      number lastSerial first ++ number (lastSerial + first.length) second := by
  induction first generalizing lastSerial with
  | nil => rfl
  | cons entry rest ih =>
    rw [List.cons_append, number, ih, number, List.length_cons, List.cons_append]
    congr 3
    omega

/-- Writing two units in turn is writing one that has the parts of both. -/
theorem write_write (store : Store) (first second : WriteUnit) :
    (store.write first).write second = store.write
      { rawEvents := first.rawEvents ++ second.rawEvents
        changes := first.changes ++ second.changes
        history := first.history ++ second.history
        registrations := first.registrations ++ second.registrations
        checkpoints := first.checkpoints ++ second.checkpoints
        blocks := first.blocks ++ second.blocks } := by
  simp only [write, putCheckpoints, applyChanges_append, number_append, List.append_assoc,
    List.length_append, Nat.add_assoc, List.foldl_append, List.map_append, Table.insertAll_append]

/-- Where the last record of each entity came from. -/
def origins (store : Store) : Table EntityKey Origin :=
  latestAfter .empty (store.history.map fun record => (record.toChange, record.origin))

theorem get?_origins (store : Store) (key : EntityKey) :
    store.origins.get? key = (store.latestRecord? key).map (·.origin) := by
  rw [origins, get?_latestAfter, Table.get?_empty, Option.or_none, lastWrite?, latestRecord?,
    ← List.map_reverse, List.find?_map, Option.map_map]
  simp only [Function.comp_def, HistoryEntry.toChange_key]

theorem linkHistory_latestFor (store : Store) (writes : List (EntityChange × Origin)) :
    linkHistory (store.latestFor writes) writes = linkHistory store.origins writes :=
  linkHistory_congr fun _ hwrite => by rw [get?_latestFor store hwrite, get?_origins]

/-- A store once the writes of some events were written, with what the events registered. -/
def writeAll (store : Store) (events : List Event) (writes : List (EntityChange × Origin))
    (registrations : List Registration) : Store :=
  store.write
    { rawEvents := events
      changes := writes.map (·.1)
      history := linkHistory store.origins writes
      registrations := registrations
      checkpoints := []
      blocks := [] }

variable {store : Store} {first second : List Event}
  {earlier later : List (EntityChange × Origin)}

theorem origins_writeAll (registrations : List Registration) :
    (store.writeAll first earlier registrations).origins =
      latestAfter store.origins earlier := by
  have hwritten : (number store.lastSerial (linkHistory store.origins earlier)).map
      (fun record => (record.toChange, record.origin)) = earlier := by
    have hlinked := linkHistory_writes store.origins earlier
    rw [← number_entries store.lastSerial (linkHistory store.origins earlier), List.map_map]
      at hlinked
    exact hlinked
  rw [origins, writeAll, write, List.map_append, hwritten, latestAfter, List.map_append,
    Table.insertAll_append]
  rfl

theorem writeAll_writeAll (registrations registrations' : List Registration) :
    (store.writeAll first earlier registrations).writeAll second later registrations' =
      store.writeAll (first ++ second) (earlier ++ later) (registrations ++ registrations') := by
  rw [writeAll, origins_writeAll, writeAll, write_write, writeAll, linkHistory_append,
    List.map_append]
  rfl

/-- Whether no two of some writes, old ones included, are of one entity and one event. -/
def Takes (store : Store) (writes : List (EntityChange × Origin)) : Prop :=
  (∀ write ∈ writes, (write.1.key, write.2) ∉
      store.history.map fun record => (record.key, record.origin)) ∧
    (writes.map fun write => (write.1.key, write.2)).Nodup

theorem firstConflict_eq_none_iff_takes {latest : Table EntityKey Origin}
    {writes : List (EntityChange × Origin)} :
    firstConflict (store.history.map fun record => (record.key, record.origin))
      (linkHistory latest writes) = none ↔ store.Takes writes := by
  have hkeys := linkHistory_key latest writes
  rw [firstConflict_eq_none_iff, hkeys, Takes]
  refine and_congr_left fun _ => ⟨fun h write hwrite hold => ?_, fun h entry hentry hold => ?_⟩
  · have hpair : (write.1.key, write.2) ∈
        writes.map fun write => (write.1.key, write.2) := List.mem_map.2 ⟨write, hwrite, rfl⟩
    rw [← hkeys] at hpair
    obtain ⟨entry, hentry, heq⟩ := List.mem_map.1 hpair
    exact h entry hentry (heq ▸ hold)
  · have hpair : (entry.key, entry.origin) ∈ (linkHistory latest writes).map
        fun entry => (entry.key, entry.origin) := List.mem_map.2 ⟨entry, hentry, rfl⟩
    rw [hkeys] at hpair
    obtain ⟨write, hwrite, heq⟩ := List.mem_map.1 hpair
    exact h write hwrite (heq ▸ hold)

theorem history_keys_writeAll (registrations : List Registration) :
    (store.writeAll first earlier registrations).history.map
        (fun record => (record.key, record.origin)) =
      store.history.map (fun record => (record.key, record.origin)) ++
        earlier.map fun write => (write.1.key, write.2) := by
  have hkeys := linkHistory_key store.origins earlier
  rw [← number_entries store.lastSerial (linkHistory store.origins earlier), List.map_map] at hkeys
  rw [writeAll, write, List.map_append, ← hkeys]
  rfl

theorem takes_append {registrations : List Registration} (hfirst : store.Takes earlier)
    (hsecond : (store.writeAll first earlier registrations).Takes later) :
    store.Takes (earlier ++ later) := by
  obtain ⟨hnew, hnodup⟩ := hsecond
  rw [history_keys_writeAll] at hnew
  refine ⟨fun write hwrite hold => ?_, ?_⟩
  · rcases List.mem_append.1 hwrite with hearlier | hlater
    · exact hfirst.1 write hearlier hold
    · exact hnew write hlater (List.mem_append_left _ hold)
  · rw [List.map_append, List.nodup_append]
    refine ⟨hfirst.2, hnodup, ?_⟩
    rintro pair hpair _ hagain rfl
    obtain ⟨write, hwrite, rfl⟩ := List.mem_map.1 hagain
    exact hnew write hwrite (List.mem_append_right _ hpair)

/-- Writing what was handled is writing all writes, not just the last one of each entity. -/
theorem write_toUnit {handled : HandledEvents} {events : List Event}
    {registrations : List Registration}
    (hoverlay : handled.overlay =
      Table.insertAll .empty (handled.writes.map fun write => (write.1.key, write.1))) :
    store.write
        { rawEvents := events
          changes := (handled.toUnit store).changes
          history := (handled.toUnit store).history
          registrations := registrations
          checkpoints := []
          blocks := [] } =
      store.writeAll events handled.writes registrations := by
  unfold writeAll write HandledEvents.toUnit
  dsimp only
  rw [hoverlay, applyChanges_overlay, linkHistory_latestFor]

end Store

/-! ### Execution -/

/-- What is known once some events were committed. -/
structure IndexState where
  store : Store
  registry : Registry

/-- The state once some events were handled and their writes written. -/
def IndexState.writeAll (state : IndexState) (events : List Event) (handled : HandledEvents) :
    IndexState :=
  ⟨state.store.writeAll events handled.writes handled.registrations, handled.registry⟩

/-- Processes a unit and commits what came of it; tells how many of its events were handled. -/
def commitUnit (handlers : HandlerTable) (events : List Event) (state : IndexState) :
    Except ProcessingError (Nat × IndexState) :=
  let processing := processEvents Repo.inMemory handlers state.registry events state.store
  match processing.result with
  | .error error => .error error
  | .ok processed =>
    match state.store.commit
        { rawEvents := events.take processed.applied
          changes := processed.changes
          history := processed.history
          registrations := processed.registrations
          checkpoints := []
          blocks := [] } with
    | .error error => .error (.repo error)
    | .ok store => .ok (processed.applied, ⟨store, processing.registry⟩)

theorem overlay_of_runHandlers {handlers : HandlerTable} {loaded : LoadedEntities}
    {events : List Event} {registry : Registry} {handled : HandledEvents}
    (h : runHandlers handlers loaded events (.start registry) = (handled, none)) :
    handled.overlay =
      Table.insertAll .empty (handled.writes.map fun write => (write.1.key, write.1)) := by
  obtain ⟨_, _, _, hrun, hall⟩ := handlesAll_of_runHandlers h
  obtain ⟨_, hwrites, hoverlay, _⟩ := handlesAll_adds .empty hrun hall rfl
  rw [hoverlay, hwrites]
  rfl

theorem commitUnit_eq_ok_iff {handlers : HandlerTable} {events : List Event}
    {state next : IndexState} {applied : Nat} :
    commitUnit handlers events state = .ok (applied, next) ↔
      ∃ loaded handled,
        runLoaders Repo.inMemory handlers events .empty state.store = (.ok loaded, state.store) ∧
        runHandlers handlers loaded events (.start state.registry) = (handled, none) ∧
        state.store.Takes handled.writes ∧ applied = handled.applied ∧
        next = state.writeAll (events.take handled.applied) handled := by
  constructor
  · intro h
    rw [commitUnit] at h
    split at h
    next => cases h
    next processed hprocess =>
      obtain ⟨loaded, hload⟩ := runLoaders_of_processEvents hprocess
      obtain ⟨handled, hrun, rfl⟩ := runHandlers_of_processEvents hload hprocess
      split at h
      next => cases h
      next store hcommit =>
        obtain ⟨hnone, hstore⟩ := Store.commit_eq_ok hcommit
        cases h
        refine ⟨loaded, handled, hload, hrun, ?_, rfl, ?_⟩
        · exact Store.firstConflict_eq_none_iff_takes.1 hnone
        · rw [processEvents_inMemory hload hrun, hstore, IndexState.writeAll]
          exact congrArg (IndexState.mk · _) (Store.write_toUnit (overlay_of_runHandlers hrun))
  · rintro ⟨loaded, handled, hload, hrun, htakes, rfl, rfl⟩
    rw [commitUnit, processEvents_inMemory hload hrun]
    dsimp only
    rw [Store.commit]
    dsimp only [HandledEvents.toUnit]
    rw [Store.firstConflict_eq_none_iff_takes.2 htakes]
    refine congrArg (fun store => Except.ok (handled.applied, IndexState.mk store _)) ?_
    exact Store.write_toUnit (overlay_of_runHandlers hrun)

theorem runHandlers_applied {handlers : HandlerTable} {loaded : LoadedEntities} {event : Event}
    {rest : List Event} {handled after : HandledEvents}
    (h : runHandlers handlers loaded (event :: rest) handled = (after, none)) :
    handled.applied < after.applied := by
  obtain ⟨_, _, hresult, hrest⟩ := runHandlers_cons_eq_none h
  have hadds := (handledThrough_adds hresult).applied
  obtain ⟨-, hrun⟩ | ⟨-, rfl⟩ := hrest
  · obtain ⟨count, _, happlied, _⟩ := handlesAll_of_runHandlers hrun
    omega
  · omega

theorem commitUnit_applied_pos {handlers : HandlerTable} {event : Event} {rest : List Event}
    {state next : IndexState} {applied : Nat}
    (h : commitUnit handlers (event :: rest) state = .ok (applied, next)) : 0 < applied := by
  obtain ⟨_, _, _, hrun, _, rfl, _⟩ := commitUnit_eq_ok_iff.1 h
  exact runHandlers_applied hrun

/-- Executes a unit; where it ends early, what is left of it makes up the next unit. -/
def executeUnit (handlers : HandlerTable) :
    List Event → IndexState → Except ProcessingError IndexState
  | [], state => .ok state
  | event :: rest, state =>
    match _h : commitUnit handlers (event :: rest) state with
    | .error error => .error error
    | .ok (applied, next) => executeUnit handlers ((event :: rest).drop applied) next
termination_by events => events.length
decreasing_by
  have hpos := commitUnit_applied_pos _h
  rw [List.length_drop, List.length_cons]
  omega

/-- Executes units in turn. -/
def executeUnits (handlers : HandlerTable) :
    List (List Event) → IndexState → Except ProcessingError IndexState
  | [], state => .ok state
  | unit :: rest, state => (executeUnit handlers unit state).bind (executeUnits handlers rest)

/-- Executes events one at a time. -/
def executeSingly (handlers : HandlerTable) (events : List Event) (state : IndexState) :
    Except ProcessingError IndexState :=
  executeUnits handlers (events.map fun event => [event]) state

variable {handlers : HandlerTable} {event : Event} {events rest : List Event}
  {state now next after : IndexState}

theorem executeUnit_cons (handlers : HandlerTable) (event : Event) (rest : List Event)
    (state : IndexState) :
    executeUnit handlers (event :: rest) state =
      match commitUnit handlers (event :: rest) state with
      | .error error => .error error
      | .ok (applied, next) => executeUnit handlers ((event :: rest).drop applied) next := by
  rw [executeUnit]
  split <;> rename_i heq <;> rw [heq]

theorem executeSingly_cons (handlers : HandlerTable) (event : Event) (rest : List Event)
    (state : IndexState) :
    executeSingly handlers (event :: rest) state =
      (executeUnit handlers [event] state).bind (executeSingly handlers rest) := rfl

theorem executeSingly_append (handlers : HandlerTable) (first second : List Event)
    (state : IndexState) :
    executeSingly handlers (first ++ second) state =
      (executeSingly handlers first state).bind (executeSingly handlers second) := by
  induction first generalizing state with
  | nil => rfl
  | cons event rest ih =>
    rw [List.cons_append, executeSingly_cons, executeSingly_cons]
    cases executeUnit handlers [event] state with
    | error error => rfl
    | ok next => exact ih next

/-! ### One event -/

/-- Executing one event writes what its handler does on its own. -/
theorem executeUnit_single (h : executeUnit handlers [event] now = .ok next) :
    ∃ loaded changes registrations,
      runLoaders Repo.inMemory handlers [event] .empty now.store = (.ok loaded, now.store) ∧
      handleEvent handlers loaded (.start now.registry) event = .ok (changes, registrations) ∧
      now.store.Takes (changes.map fun change => (change, event.origin)) ∧
      next = ⟨now.store.writeAll [event] (changes.map fun change => (change, event.origin))
        registrations, now.registry.extend registrations⟩ := by
  rw [executeUnit_cons] at h
  split at h
  next => cases h
  next applied committed hcommit =>
    obtain ⟨loaded, handled, hload, hrun, htakes, rfl, rfl⟩ := commitUnit_eq_ok_iff.1 hcommit
    obtain ⟨changes, registrations, hresult, hrest⟩ := runHandlers_cons_eq_none hrun
    have hadds := handledThrough_adds hresult
    rw [show handledThrough handlers loaded (.start now.registry) event = handled from
      hrest.elim (fun hnone => congrArg Prod.fst hnone.2) (fun hsome => hsome.2.symm)] at hadds
    have happlied : handled.applied = 1 := hadds.applied
    have hwrites : handled.writes = changes.map fun change => (change, event.origin) :=
      hadds.writes
    have hregistrations : handled.registrations = registrations := by
      rw [hadds.registrations]
      cases registrations <;> rfl
    refine ⟨loaded, changes, registrations, hload, hresult, hwrites ▸ htakes, ?_⟩
    rw [happlied, List.drop_one, List.tail_cons, executeUnit] at h
    rw [← Except.ok.inj h, IndexState.writeAll, hwrites, hregistrations, hadds.registry]
    rfl

/-! ### One unit -/

/-- Whether the handler of an event finds all it reads loaded in a unit that starts earlier: its
loader, run on the earlier state, finds no value that does not decode to its type, and asks for what
the handler then reads. -/
structure HandlerTable.LoadsAhead (handlers : HandlerTable) (event : Event)
    (earlier now : IndexState) : Prop where
  runsThrough : handlers.loadOutcome earlier.store.entities event = .ok ()
  asksAll : ∀ loaded,
    runLoaders Repo.inMemory handlers [event] .empty now.store = (.ok loaded, now.store) →
    ∀ key ∈ readsOf handlers loaded (.start now.registry) event,
      key ∈ handlers.asks earlier.store.entities event

/-- Whether this holds of all of some events, wherever before them a unit starts. -/
def HandlerTable.LoadsAllAhead (handlers : HandlerTable) (events : List Event)
    (state : IndexState) : Prop :=
  ∀ done between event left earlier now, events = done ++ (between ++ event :: left) →
    executeSingly handlers done state = .ok earlier →
    executeSingly handlers between earlier = .ok now → handlers.LoadsAhead event earlier now

/-- What holds between the start of a unit and its handled events. -/
structure IndexState.Midway (state : IndexState) (done : List Event) (handled : HandledEvents) :
    Prop where
  overlay : handled.overlay =
    Table.insertAll .empty (handled.writes.map fun write => (write.1.key, write.1))
  applied : handled.applied = done.length
  takes : state.store.Takes handled.writes

namespace IndexState.Midway

variable {done : List Event} {handled : HandledEvents} {loaded : LoadedEntities}
  {asked : List EntityKey}

/-- Within the unit an event finds what it would find on its own. -/
theorem answer_eq (h : state.Midway done handled)
    (hloaded : loaded.Holds state.store.entities asked)
    {alone : LoadedEntities} {askedAlone : List EntityKey}
    (halone : alone.Holds (state.writeAll done handled).store.entities askedAlone)
    {key : EntityKey} (hkey : key ∈ asked) (hkeyAlone : key ∈ askedAlone) :
    (HandlerContext.start event alone .empty).answer key =
      (HandlerContext.start event loaded handled.overlay).answer key := by
  have hvalue : (state.writeAll done handled).store.entities.get? key =
      (lastWrite? handled.writes key).elim (state.store.entities.get? key) (·.1.fields?) :=
    Store.get?_applyChanges state.store.entities handled.writes key
  have hoverlay : handled.overlay.get? key = (lastWrite? handled.writes key).map (·.1) := by
    rw [h.overlay, get?_insertAll_writes, Table.get?_empty, Option.or_none]
  have hstored := hloaded key
  have hstoredAlone := halone key
  rw [if_pos hkey] at hstored
  rw [if_pos hkeyAlone, hvalue] at hstoredAlone
  unfold HandlerContext.answer HandlerContext.start
  dsimp only
  rw [Table.get?_empty, hstoredAlone, hoverlay, hstored]
  cases lastWrite? handled.writes key <;> rfl

/-- Handling one more event within the unit does what executing it on its own does. -/
theorem handle (h : state.Midway done handled) (hnone : handled.registrations = [])
    (hloaded : loaded.Holds state.store.entities asked)
    (hasked : ∀ key ∈ handlers.asks state.store.entities event, key ∈ asked)
    (hahead : handlers.LoadsAhead event state (state.writeAll done handled))
    (hown : handlers.LoadsAhead event (state.writeAll done handled) (state.writeAll done handled))
    (hsingle : executeUnit handlers [event] (state.writeAll done handled) = .ok next) :
    ∃ changes registrations,
      handleEvent handlers loaded handled event = .ok (changes, registrations) ∧
      state.Midway (done ++ [event]) (handledThrough handlers loaded handled event) ∧
      next = state.writeAll (done ++ [event]) (handledThrough handlers loaded handled event) := by
  obtain ⟨alone, changes, registrations, hload, hresult, htakes, rfl⟩ := executeUnit_single hsingle
  have halone := holds_of_runLoaders hload
  rw [List.flatMap_singleton] at halone
  have hanswer : ∀ key ∈ readsOf handlers alone (.start handled.registry) event,
      (HandlerContext.start event alone .empty).answer key =
        (HandlerContext.start event loaded handled.overlay).answer key := fun key hkey =>
    h.answer_eq hloaded halone (hasked key (hahead.asksAll alone hload key hkey))
      (hown.asksAll alone hload key hkey)
  have hregistry : (HandledEvents.start handled.registry).registry.AgreeOn event.chain
      handled.registry := ⟨rfl, fun _ => rfl⟩
  obtain ⟨hwithin, _⟩ := handleEvent_congr hanswer hregistry hresult
  have hadds := handledThrough_adds hwithin
  refine ⟨changes, registrations, hwithin, ⟨?_, ?_, ?_⟩, ?_⟩
  · rw [hadds.overlay, hadds.writes, h.overlay, List.map_append, Table.insertAll_append,
      List.map_map]
    rfl
  · rw [hadds.applied, h.applied, List.length_append, List.length_singleton]
  · rw [hadds.writes]
    exact Store.takes_append h.takes htakes
  · have hregistered : handled.registrations ++ registrations =
        (handledThrough handlers loaded handled event).registrations := by
      rw [hadds.registrations, hnone]
      cases registrations <;> rfl
    rw [IndexState.writeAll, IndexState.writeAll, hadds.writes, hadds.registry, ← hregistered,
      Store.writeAll_writeAll]

/-- Handling events within the unit, up to the first that registers addresses, does what executing
them one at a time does. -/
theorem run (h : state.Midway done handled) (hnone : handled.registrations = [])
    (hloaded : loaded.Holds state.store.entities asked)
    (hasked : ∀ event ∈ rest, ∀ key ∈ handlers.asks state.store.entities event, key ∈ asked)
    (hahead : ∀ between event left now, rest = between ++ event :: left →
      executeSingly handlers between (state.writeAll done handled) = .ok now →
      handlers.LoadsAhead event state now ∧ handlers.LoadsAhead event now now)
    (hsingly : executeSingly handlers rest (state.writeAll done handled) = .ok after) :
    ∃ ran left handled', rest = ran ++ left ∧
      runHandlers handlers loaded rest handled = (handled', none) ∧
      state.Midway (done ++ ran) handled' ∧
      executeSingly handlers ran (state.writeAll done handled) =
        .ok (state.writeAll (done ++ ran) handled') := by
  induction rest generalizing done handled with
  | nil =>
    refine ⟨[], [], handled, rfl, rfl, ?_, ?_⟩
    · rwa [List.append_nil]
    · rw [List.append_nil]
      rfl
  | cons event rest ih =>
    rw [executeSingly_cons] at hsingly
    obtain ⟨next, hsingle, hrest⟩ := except_bind_eq_ok hsingly
    obtain ⟨hfirst, hown⟩ := hahead [] event rest _ rfl rfl
    obtain ⟨changes, registrations, hresult, hmidway, rfl⟩ :=
      h.handle hnone hloaded (hasked event List.mem_cons_self) hfirst hown hsingle
    rw [runHandlers_cons, hresult]
    cases registrations with
    | nil =>
      have hstill : (handledThrough handlers loaded handled event).registrations = [] := by
        rw [(handledThrough_adds hresult).registrations, if_pos rfl, hnone]
      have hlater : ∀ between other left now, rest = between ++ other :: left →
          executeSingly handlers between (state.writeAll (done ++ [event])
            (handledThrough handlers loaded handled event)) = .ok now →
          handlers.LoadsAhead other state now ∧ handlers.LoadsAhead other now now := by
        intro between other left now hsplit hbetween
        refine hahead (event :: between) other left now (congrArg (event :: ·) hsplit) ?_
        rw [executeSingly_cons, hsingle]
        exact hbetween
      obtain ⟨ran, left, handled', hsplit, hrun, hran, hexecuted⟩ := ih hmidway hstill
        (fun other hother => hasked other (List.mem_cons_of_mem _ hother)) hlater hrest
      rw [List.append_assoc, List.singleton_append] at hran hexecuted
      refine ⟨event :: ran, left, handled', congrArg (event :: ·) hsplit, hrun, hran, ?_⟩
      rw [executeSingly_cons, hsingle]
      exact hexecuted
    | cons first others =>
      refine ⟨[event], rest, _, rfl, rfl, hmidway, ?_⟩
      rw [executeSingly_cons, hsingle]
      rfl

end IndexState.Midway

/-! ### All units -/

theorem IndexState.midway_start (state : IndexState) : state.Midway [] (.start state.registry) :=
  ⟨rfl, rfl, fun _ hmem => absurd hmem List.not_mem_nil, List.nodup_nil⟩

theorem IndexState.writeAll_start (state : IndexState) :
    state.writeAll [] (.start state.registry) = state := by
  simp [writeAll, Store.writeAll, Store.write, HandledEvents.start, linkHistory, Store.number,
    Store.applyChanges, Store.putCheckpoints, Table.insertAll]

theorem HandlerTable.LoadsAllAhead.drop {ran left : List Event}
    (h : handlers.LoadsAllAhead (ran ++ left) state)
    (hran : executeSingly handlers ran state = .ok next) : handlers.LoadsAllAhead left next := by
  intro done between event others earlier now hsplit hdone hbetween
  refine h (ran ++ done) between event others earlier now ?_ ?_ hbetween
  · rw [hsplit, List.append_assoc]
  · rw [executeSingly_append, hran]
    exact hdone

theorem exists_between (h : executeSingly handlers events state = .ok after)
    {done left : List Event} (hsplit : events = done ++ left) :
    ∃ now, executeSingly handlers done state = .ok now ∧
      executeSingly handlers left now = .ok after := by
  rw [hsplit, executeSingly_append] at h
  exact except_bind_eq_ok h

/-- A unit comes to what its events come to one at a time. -/
theorem executeUnit_of_singly (hahead : handlers.LoadsAllAhead events state)
    (h : executeSingly handlers events state = .ok after) :
    executeUnit handlers events state = .ok after := by
  induction hlength : events.length using Nat.strong_induction_on generalizing events state with
  | _ length ih =>
    cases events with
    | nil =>
      rw [executeUnit]
      exact h
    | cons event rest =>
      have houtcome : ∀ other ∈ event :: rest,
          handlers.loadOutcome state.store.entities other = .ok () := by
        intro other hother
        obtain ⟨between, left, hsplit⟩ := List.append_of_mem hother
        obtain ⟨now, hnow, _⟩ := exists_between h hsplit
        exact (hahead [] between other left state now hsplit rfl hnow).runsThrough
      obtain ⟨loaded, hload, hloaded⟩ :=
        runLoaders_inMemory (LoadedEntities.empty_holds state.store.entities) houtcome
      have hwithin : ∀ between other left now, event :: rest = between ++ other :: left →
          executeSingly handlers between (state.writeAll [] (.start state.registry)) = .ok now →
          handlers.LoadsAhead other state now ∧ handlers.LoadsAhead other now now := by
        intro between other left now hsplit hbetween
        rw [state.writeAll_start] at hbetween
        exact ⟨hahead [] between other left state now hsplit rfl hbetween,
          hahead between [] other left now now hsplit hbetween rfl⟩
      have hstart : executeSingly handlers (event :: rest)
          (state.writeAll [] (.start state.registry)) = .ok after := by
        rwa [state.writeAll_start]
      obtain ⟨ran, left, handled, hsplit, hrun, hmidway, hran⟩ :=
        state.midway_start.run rfl hloaded
          (fun other hother key hkey => List.mem_flatMap.2 ⟨other, hother, hkey⟩) hwithin hstart
      rw [state.writeAll_start] at hran
      have happlied : handled.applied = ran.length := hmidway.applied
      have hcommit : commitUnit handlers (event :: rest) state =
          .ok (handled.applied, state.writeAll ran handled) := by
        refine commitUnit_eq_ok_iff.2 ⟨loaded, handled, hload, hrun, hmidway.takes, rfl, ?_⟩
        rw [happlied, hsplit, List.take_left]
      have hshorter : left.length < length := by
        have hpos := commitUnit_applied_pos hcommit
        rw [hsplit, List.length_append] at hlength
        omega
      rw [hsplit, executeSingly_append, hran] at h
      rw [executeUnit_cons, hcommit]
      dsimp only
      rw [happlied, hsplit, List.drop_left]
      rw [hsplit] at hahead
      exact ih left.length hshorter (hahead.drop hran) h rfl

/-- How events are cut into units leaves no trace: if executing them one at a time succeeds, then so
does executing them unit by unit, and it leaves the same store and registry. It suffices that the
loader of each event, wherever its unit starts, runs through what is stored by then and asks for
every entity that the handler reads. -/
theorem executeUnits_of_singly {units : List (List Event)}
    (hahead : handlers.LoadsAllAhead units.flatten state)
    (h : executeSingly handlers units.flatten state = .ok after) :
    executeUnits handlers units state = .ok after := by
  induction units generalizing state with
  | nil => exact h
  | cons unit rest ih =>
    rw [List.flatten_cons] at hahead h
    obtain ⟨next, hunit, hrest⟩ := exists_between h rfl
    have hfirst : handlers.LoadsAllAhead unit state := by
      intro done between event left earlier now hsplit
      refine hahead done between event (left ++ rest.flatten) earlier now ?_
      rw [hsplit, List.append_assoc, List.append_assoc, List.cons_append]
    rw [executeUnits, executeUnit_of_singly hfirst hunit]
    exact ih (hahead.drop hunit) hrest

/-- The handler that reads and sets one entity always loads it. -/
theorem Handler.marking_loadsAhead (event : Event) (earlier now : IndexState) :
    HandlerTable.LoadsAhead ⟨[("", .marking)]⟩ event earlier now := by
  have hfound : ∀ handler, HandlerTable.forEvent? ⟨[("", .marking)]⟩ event = some handler →
      handler = .marking := by
    intro handler hsome
    obtain ⟨entry, hentry, rfl⟩ := Option.map_eq_some_iff.1 hsome
    have hmem := List.mem_of_find?_eq_some hentry
    rw [List.reverse_singleton, List.mem_singleton] at hmem
    rw [hmem]
  refine ⟨?_, fun loaded _ key hkey => ?_⟩
  · unfold HandlerTable.loadOutcome
    cases hhandler : HandlerTable.forEvent? ⟨[("", .marking)]⟩ event with
    | none => rfl
    | some handler =>
      rw [hfound handler hhandler]
      rfl
  · unfold readsOf at hkey
    unfold HandlerTable.asks
    cases hhandler : HandlerTable.forEvent? ⟨[("", .marking)]⟩ event with
    | none =>
      rw [hhandler] at hkey
      exact hkey
    | some handler =>
      rw [hhandler, hfound handler hhandler] at hkey
      rw [hfound handler hhandler]
      exact hkey

/-- Two events that write one entity leave the same in one unit as one at a time. -/
theorem executeUnits_marks :
    executeSingly ⟨[("", .marking)]⟩ WriteUnit.marks.rawEvents ⟨.empty, default⟩ =
        .ok ⟨Store.empty.write .marks, default⟩ ∧
      executeUnits ⟨[("", .marking)]⟩ [WriteUnit.marks.rawEvents] ⟨.empty, default⟩ =
        .ok ⟨Store.empty.write .marks, default⟩ := by
  have hfirst : commitUnit ⟨[("", .marking)]⟩ [.placed 1 45 0] ⟨.empty, default⟩ =
      .ok (1, ⟨Store.empty.writeAll [.placed 1 45 0] [(.set ⟨"", ""⟩ default, ⟨1, 45, 450, 0⟩)] [],
        default⟩) := rfl
  have hsecond : commitUnit ⟨[("", .marking)]⟩ [.placed 1 50 0]
      ⟨Store.empty.writeAll [.placed 1 45 0] [(.set ⟨"", ""⟩ default, ⟨1, 45, 450, 0⟩)] [],
        default⟩ = .ok (1, ⟨Store.empty.write .marks, default⟩) := rfl
  have hsingly : executeSingly ⟨[("", .marking)]⟩ WriteUnit.marks.rawEvents ⟨.empty, default⟩ =
      .ok ⟨Store.empty.write .marks, default⟩ := by
    rw [WriteUnit.marks, executeSingly_cons, executeUnit_cons, hfirst]
    dsimp only
    rw [List.drop_one, List.tail_cons, executeUnit, Except.bind, executeSingly_cons,
      executeUnit_cons, hsecond]
    dsimp only
    rw [List.drop_one, List.tail_cons, executeUnit]
    rfl
  have hahead : HandlerTable.LoadsAllAhead ⟨[("", .marking)]⟩ WriteUnit.marks.rawEvents
      ⟨.empty, default⟩ :=
    fun _ _ event _ earlier now _ _ _ => Handler.marking_loadsAhead event earlier now
  exact ⟨hsingly, executeUnits_of_singly hahead hsingly⟩

end ChainIndexer
