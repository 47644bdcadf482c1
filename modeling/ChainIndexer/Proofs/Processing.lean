import ChainIndexer.Proofs.Handler.Loading
import ChainIndexer.Proofs.Handler.Reads
import ChainIndexer.Proofs.History
import ChainIndexer.Proofs.Registry

/-!
# What processing a unit does

A unit is taken apart into what each of its events did: what it loaded and read, what it changed,
and what it registered. What there is to store for the unit follows from these deeds.
-/

namespace ChainIndexer

variable {handlers : HandlerTable} {loaded : LoadedEntities} {event : Event}
  {events rest : List Event} {handled after : HandledEvents} {changes : List EntityChange}
  {registrations : List Registration}

/-! ### One event -/

/-- What an event changes and registers, given what events did before it. -/
def handleEvent (handlers : HandlerTable) (loaded : LoadedEntities) (handled : HandledEvents)
    (event : Event) : Except HandlerError (List EntityChange × List Registration) :=
  match handlers.forEvent? event with
  | none => .ok ([], [])
  | some handler =>
    match (handler.handle event).run (.start event loaded handled.overlay) with
    | (.error error, _) => .error error
    | (.ok (), context) =>
      (HandledEvents.registerFor handled.registry event context.requests).map fun registered =>
        (context.changes, registered.1)

/-- The entities that the handler of an event reads, given what events did before it. -/
def readsOf (handlers : HandlerTable) (loaded : LoadedEntities) (handled : HandledEvents)
    (event : Event) : List EntityKey :=
  (handlers.forEvent? event).elim [] fun handler =>
    (handler.handle event).reads (.start event loaded handled.overlay)

/-- What the handlers did, up to and including one more event. -/
def handledThrough (handlers : HandlerTable) (loaded : LoadedEntities) (handled : HandledEvents)
    (event : Event) : HandledEvents :=
  (runHandlers handlers loaded [event] handled).1

/-- Whether one more event was handled, with some changes and registrations. -/
structure HandledEvents.Adds (handled after : HandledEvents) (event : Event)
    (changes : List EntityChange) (registrations : List Registration) : Prop where
  applied : after.applied = handled.applied + 1
  writes : after.writes = handled.writes ++ changes.map fun change => (change, event.origin)
  overlay : after.overlay =
    handled.overlay.insertAll (changes.map fun change => (change.key, change))
  registry : after.registry = handled.registry.extend registrations
  registrations :
    after.registrations = if registrations = [] then handled.registrations else registrations

/-- An event that is handled has no handler, or one that runs through and may register what it asks
for. -/
theorem handleEvent_eq_ok
    (h : handleEvent handlers loaded handled event = .ok (changes, registrations)) :
    (handlers.forEvent? event = none ∧ changes = [] ∧ registrations = []) ∨
      ∃ handler context left, handlers.forEvent? event = some handler ∧
        (handler.handle event).run (.start event loaded handled.overlay) = (.ok (), context) ∧
        context.changes = changes ∧
        HandledEvents.registerFor handled.registry event context.requests =
          .ok (registrations, left) := by
  rw [handleEvent] at h
  cases hhandler : handlers.forEvent? event with
  | none =>
    rw [hhandler] at h
    cases h
    exact Or.inl ⟨rfl, rfl, rfl⟩
  | some handler =>
    rw [hhandler] at h
    dsimp only at h
    cases hrun : (handler.handle event).run (.start event loaded handled.overlay) with
    | mk result context =>
      rw [hrun] at h
      cases result with
      | error error => cases h
      | ok value =>
        dsimp only at h
        cases hregister : HandledEvents.registerFor handled.registry event context.requests with
        | error error =>
          rw [hregister] at h
          cases h
        | ok registered =>
          rw [hregister] at h
          cases h
          exact Or.inr ⟨handler, context, registered.2, rfl, hrun, rfl, hregister⟩

theorem handledThrough_adds
    (h : handleEvent handlers loaded handled event = .ok (changes, registrations)) :
    handled.Adds (handledThrough handlers loaded handled event) event changes registrations := by
  unfold handledThrough
  rw [runHandlers]
  obtain ⟨hhandler, rfl, rfl⟩ | ⟨handler, context, left, hhandler, hrun, rfl, hregister⟩ :=
    handleEvent_eq_ok h
  · rw [hhandler]
    exact ⟨rfl, (List.append_nil _).symm, rfl, rfl, rfl⟩
  · have hleft := (HandledEvents.registerFor_eq_ok hregister).1
    rw [hhandler]
    dsimp only
    rw [hrun]
    unfold HandledEvents.absorb
    dsimp only
    rw [hregister]
    cases registrations with
    | nil => exact ⟨rfl, rfl, rfl, hleft, rfl⟩
    | cons first others => exact ⟨rfl, rfl, rfl, hleft, rfl⟩

theorem handleEvent_registrations
    (h : handleEvent handlers loaded handled event = .ok (changes, registrations)) :
    ∀ registration ∈ registrations, registration.IsFor event ∧
      handled.registry.watched.get? registration.key = none := by
  obtain ⟨_, _, rfl⟩ | ⟨_, _, _, _, _, _, hregister⟩ := handleEvent_eq_ok h
  · exact fun _ hmem => absurd hmem List.not_mem_nil
  · exact (HandledEvents.registerFor_eq_ok hregister).2

theorem handledThrough_registry_of_error {error : HandlerError}
    (h : handleEvent handlers loaded handled event = .error error) :
    (handledThrough handlers loaded handled event).registry = handled.registry := by
  unfold handledThrough
  rw [handleEvent] at h
  rw [runHandlers]
  cases hhandler : handlers.forEvent? event with
  | none => rfl
  | some handler =>
    rw [hhandler] at h
    dsimp only at h ⊢
    cases hrun : (handler.handle event).run (.start event loaded handled.overlay) with
    | mk result context =>
      rw [hrun] at h
      cases result with
      | error cause => rfl
      | ok value =>
        dsimp only at h ⊢
        unfold HandledEvents.absorb
        dsimp only
        cases hregister : HandledEvents.registerFor handled.registry event context.requests with
        | error cause => rfl
        | ok registered =>
          rw [hregister] at h
          cases h

theorem runHandlers_cons (handlers : HandlerTable) (loaded : LoadedEntities) (event : Event)
    (rest : List Event) (handled : HandledEvents) :
    runHandlers handlers loaded (event :: rest) handled =
      match handleEvent handlers loaded handled event with
      | .error error =>
        (handledThrough handlers loaded handled event, some (.handler event error))
      | .ok (_, []) =>
        runHandlers handlers loaded rest (handledThrough handlers loaded handled event)
      | .ok (_, _ :: _) => (handledThrough handlers loaded handled event, none) := by
  unfold handledThrough
  rw [handleEvent, runHandlers, runHandlers]
  cases hhandler : handlers.forEvent? event with
  | none => rfl
  | some handler =>
    dsimp only
    generalize (handler.handle event).run (.start event loaded handled.overlay) = outcome
    obtain ⟨result, context⟩ := outcome
    cases result with
    | error error => rfl
    | ok value =>
      unfold HandledEvents.absorb
      dsimp only
      cases HandledEvents.registerFor handled.registry event context.requests with
      | error error => rfl
      | ok registered =>
        obtain ⟨found, left⟩ := registered
        cases found <;> rfl

/-- Once the handlers have run through, the first event is handled. Those behind it are handled as
well, unless it registers addresses. -/
theorem runHandlers_cons_eq_none
    (h : runHandlers handlers loaded (event :: rest) handled = (after, none)) :
    ∃ changes registrations,
      handleEvent handlers loaded handled event = .ok (changes, registrations) ∧
        ((registrations = [] ∧
            runHandlers handlers loaded rest (handledThrough handlers loaded handled event) =
              (after, none)) ∨
          (registrations ≠ [] ∧ after = handledThrough handlers loaded handled event)) := by
  rw [runHandlers_cons] at h
  cases hresult : handleEvent handlers loaded handled event with
  | error error =>
    rw [hresult] at h
    cases h
  | ok result =>
    obtain ⟨changes, registrations⟩ := result
    rw [hresult] at h
    refine ⟨changes, registrations, rfl, ?_⟩
    cases registrations with
    | nil => exact Or.inl ⟨rfl, h⟩
    | cons first others => exact Or.inr ⟨List.cons_ne_nil _ _, (congrArg Prod.fst h).symm⟩

/-! ### All events of a unit -/

/-- What processing one event came to. -/
structure Deed where
  event : Event
  /-- The entities that its loader asked for. -/
  loads : List EntityKey
  /-- The entities that its handler read and had not changed itself. -/
  reads : List EntityKey
  changes : List EntityChange
  registrations : List Registration

namespace Deed

/-- Every entity that an event has to do with. -/
def keys (deed : Deed) : List EntityKey := deed.loads ++ deed.reads ++ deed.changes.map (·.key)

def writes (deed : Deed) : List (EntityChange × Origin) :=
  deed.changes.map fun change => (change, deed.event.origin)

end Deed

def writesOf (deeds : List Deed) : List (EntityChange × Origin) := deeds.flatMap (·.writes)

def registrationsOf (deeds : List Deed) : List Registration := deeds.flatMap (·.registrations)

def deedOf (handlers : HandlerTable) (entities : Table EntityKey Json) (loaded : LoadedEntities)
    (handled : HandledEvents) (event : Event) : Deed :=
  let result := (handleEvent handlers loaded handled event).toOption.getD ([], [])
  { event := event
    loads := handlers.asks entities event
    reads := readsOf handlers loaded handled event
    changes := result.1
    registrations := result.2 }

/-- What handling some events in turn came to. -/
def deedsOf (handlers : HandlerTable) (entities : Table EntityKey Json) (loaded : LoadedEntities) :
    List Event → HandledEvents → List Deed
  | [], _ => []
  | event :: rest, handled =>
    deedOf handlers entities loaded handled event
      :: deedsOf handlers entities loaded rest (handledThrough handlers loaded handled event)

theorem deedsOf_events (handlers : HandlerTable) (entities : Table EntityKey Json)
    (loaded : LoadedEntities) (events : List Event) (handled : HandledEvents) :
    (deedsOf handlers entities loaded events handled).map (·.event) = events := by
  induction events generalizing handled with
  | nil => rfl
  | cons event rest ih => exact congrArg (event :: ·) (ih _)

/-- Whether all of some events were handled, one after the other. -/
def HandlesAll (handlers : HandlerTable) (loaded : LoadedEntities) :
    List Event → HandledEvents → Prop
  | [], _ => True
  | event :: rest, handled =>
    ∃ changes registrations,
      handleEvent handlers loaded handled event = .ok (changes, registrations) ∧
        (registrations = [] ∨ rest = []) ∧
        HandlesAll handlers loaded rest (handledThrough handlers loaded handled event)

theorem handlesAll_of_runHandlers
    (h : runHandlers handlers loaded events handled = (after, none)) :
    ∃ count ≤ events.length, after.applied = handled.applied + count ∧
      runHandlers handlers loaded (events.take count) handled = (after, none) ∧
      HandlesAll handlers loaded (events.take count) handled := by
  induction events generalizing handled with
  | nil =>
    cases h
    exact ⟨0, Nat.le_refl 0, rfl, rfl, trivial⟩
  | cons event rest ih =>
    obtain ⟨changes, registrations, hresult, ⟨rfl, hrest⟩ | ⟨hsome, rfl⟩⟩ :=
      runHandlers_cons_eq_none h
    · obtain ⟨count, hcount, happlied, hrun, hall⟩ := ih hrest
      refine ⟨count + 1, Nat.succ_le_succ hcount, ?_, ?_, changes, [], hresult, Or.inl rfl, hall⟩
      · rw [happlied, (handledThrough_adds hresult).applied]
        omega
      · rw [List.take_succ_cons, runHandlers_cons, hresult]
        exact hrun
    · refine ⟨1, Nat.succ_le_succ (Nat.zero_le _), (handledThrough_adds hresult).applied, ?_,
        changes, registrations, hresult, Or.inr rfl, trivial⟩
      obtain ⟨first, others, rfl⟩ := List.exists_cons_of_ne_nil hsome
      rw [List.take_succ_cons, runHandlers_cons, hresult]

theorem runHandlers_of_handlesAll (h : HandlesAll handlers loaded events handled) :
    ∃ after, runHandlers handlers loaded events handled = (after, none) := by
  induction events generalizing handled with
  | nil => exact ⟨handled, rfl⟩
  | cons event rest ih =>
    obtain ⟨changes, registrations, hresult, hlast, hrest⟩ := h
    rw [runHandlers_cons, hresult]
    cases registrations with
    | nil => exact ih hrest
    | cons first others => exact ⟨_, rfl⟩

theorem handlesAll_adds (entities : Table EntityKey Json)
    (hrun : runHandlers handlers loaded events handled = (after, none))
    (h : HandlesAll handlers loaded events handled) (hnone : handled.registrations = []) :
    after.applied = handled.applied + events.length ∧
      after.writes = handled.writes ++ writesOf (deedsOf handlers entities loaded events handled) ∧
      after.overlay = handled.overlay.insertAll
        ((writesOf (deedsOf handlers entities loaded events handled)).map fun write =>
          (write.1.key, write.1)) ∧
      after.registry = handled.registry.extend
        (registrationsOf (deedsOf handlers entities loaded events handled)) ∧
      after.registrations =
        registrationsOf (deedsOf handlers entities loaded events handled) := by
  induction events generalizing handled with
  | nil =>
    cases hrun
    exact ⟨rfl, (List.append_nil _).symm, rfl, rfl, hnone⟩
  | cons event rest ih =>
    obtain ⟨changes, registrations, hresult, hlast, hrest⟩ := h
    have hadds := handledThrough_adds hresult
    have hdeed : deedsOf handlers entities loaded (event :: rest) handled =
        ⟨event, handlers.asks entities event, readsOf handlers loaded handled event, changes,
            registrations⟩
          :: deedsOf handlers entities loaded rest
            (handledThrough handlers loaded handled event) := by
      rw [deedsOf, deedOf, hresult]
      rfl
    have hoverlay : handled.overlay.insertAll (changes.map fun change => (change.key, change)) =
        handled.overlay.insertAll
          ((changes.map fun change => (change, event.origin)).map fun write =>
            (write.1.key, write.1)) := by
      rw [List.map_map]
      rfl
    rw [runHandlers_cons, hresult] at hrun
    rw [hdeed, writesOf, List.flatMap_cons, registrationsOf, List.flatMap_cons,
      Registry.extend_append, List.map_append, Table.insertAll_append, ← List.append_assoc,
      List.length_cons]
    cases registrations with
    | nil =>
      have hstill : (handledThrough handlers loaded handled event).registrations = [] := by
        rw [hadds.registrations, if_pos rfl, hnone]
      obtain ⟨happlied, hwrites, hlater, hregistry, hregistered⟩ := ih hrun hrest hstill
      rw [hadds.applied] at happlied
      rw [hadds.writes] at hwrites
      rw [hadds.overlay, hoverlay] at hlater
      rw [hadds.registry] at hregistry
      exact ⟨by omega, hwrites, hlater, hregistry, hregistered⟩
    | cons first others =>
      obtain rfl : rest = [] := hlast.resolve_left (List.cons_ne_nil _ _)
      cases hrun
      refine ⟨hadds.applied, ?_, ?_, hadds.registry, ?_⟩
      · rw [hadds.writes]
        exact (List.append_nil _).symm
      · rw [hadds.overlay, hoverlay]
        rfl
      · rw [hadds.registrations, if_neg (List.cons_ne_nil _ _)]
        exact (List.append_nil _).symm

/-- Only the last one of some handled events may have registered addresses. -/
theorem handlesAll_registers (entities : Table EntityKey Json)
    (h : HandlesAll handlers loaded events handled) :
    registrationsOf (deedsOf handlers entities loaded events handled) = [] ∨
      ∃ last, events.getLast? = some last ∧
        ∀ registration ∈ registrationsOf (deedsOf handlers entities loaded events handled),
          registration.IsFor last ∧ handled.registry.watched.get? registration.key = none := by
  induction events generalizing handled with
  | nil => exact Or.inl rfl
  | cons event rest ih =>
    obtain ⟨changes, registrations, hresult, hlast, hrest⟩ := h
    have hdeeds : registrationsOf (deedsOf handlers entities loaded (event :: rest) handled) =
        registrations ++ registrationsOf (deedsOf handlers entities loaded rest
          (handledThrough handlers loaded handled event)) := by
      rw [deedsOf, deedOf, hresult]
      rfl
    rw [hdeeds]
    cases registrations with
    | nil =>
      rw [List.nil_append]
      refine (ih hrest).imp_right fun ⟨last, hgetLast, hfor⟩ => ⟨last, ?_, ?_⟩
      · rw [List.getLast?_cons, hgetLast]
        rfl
      · rwa [(handledThrough_adds hresult).registry] at hfor
    | cons first others =>
      obtain rfl : rest = [] := hlast.resolve_left (List.cons_ne_nil _ _)
      have hnil : registrationsOf (deedsOf handlers entities loaded []
          (handledThrough handlers loaded handled event)) = [] := rfl
      rw [hnil, List.append_nil]
      exact Or.inr ⟨event, rfl, handleEvent_registrations hresult⟩

theorem runHandlers_error {error : ProcessingError}
    (h : runHandlers handlers loaded events handled = (after, some error)) :
    after.registry = handled.registry ∧
      ∃ event ∈ events, ∃ cause, error = .handler event cause := by
  induction events generalizing handled with
  | nil => cases h
  | cons event rest ih =>
    rw [runHandlers_cons] at h
    cases hresult : handleEvent handlers loaded handled event with
    | error cause =>
      rw [hresult] at h
      cases h
      exact ⟨handledThrough_registry_of_error hresult, event, List.mem_cons_self, cause, rfl⟩
    | ok result =>
      obtain ⟨changes, registrations⟩ := result
      rw [hresult] at h
      cases registrations with
      | nil =>
        obtain ⟨hregistry, failed, hmem, hcause⟩ := ih h
        rw [(handledThrough_adds hresult).registry] at hregistry
        exact ⟨hregistry, failed, List.mem_cons_of_mem _ hmem, hcause⟩
      | cons first others => cases h

/-! ### Units on a store in memory -/

/-- Where the last records of the entities that some writes change came from. -/
def Store.latestFor (store : Store) (writes : List (EntityChange × Origin)) :
    Table EntityKey Origin :=
  if writes.isEmpty then .empty else store.latestOrigins (writes.map (·.1.key)).eraseDups

/-- What there is to store once some events were handled. -/
def HandledEvents.toUnit (handled : HandledEvents) (store : Store) : ProcessedUnit where
  applied := handled.applied
  changes := handled.overlay.values
  history := linkHistory (store.latestFor handled.writes) handled.writes
  registrations := handled.registrations

theorem processEvents_inMemory {registry : Registry} {store : Store}
    (hload : runLoaders Repo.inMemory handlers events .empty store = (.ok loaded, store))
    (hrun : runHandlers handlers loaded events (.start registry) = (after, none)) :
    processEvents Repo.inMemory handlers registry events store =
      ⟨.ok (after.toUnit store), after.registry, after.notes, store⟩ := by
  rw [processEvents, hload]
  dsimp only
  rw [hrun]
  dsimp only
  rw [HandledEvents.toUnit, Store.latestFor]
  by_cases hempty : after.writes.isEmpty = true
  · rw [if_pos hempty, if_pos hempty]
  · rw [if_neg hempty, if_neg hempty]
    rfl

theorem runLoaders_of_processEvents {registry : Registry} {store : Store}
    {processed : ProcessedUnit}
    (h : (processEvents Repo.inMemory handlers registry events store).result = .ok processed) :
    ∃ loaded, runLoaders Repo.inMemory handlers events .empty store = (.ok loaded, store) := by
  obtain ⟨loading, hload, _⟩ : ∃ result,
      runLoaders Repo.inMemory handlers events .empty store = (result, store) ∧
        ∀ error, result = .error error → ∃ event ∈ events, ∃ cause, error = .handler event cause :=
    runLoaders_store (LoadedEntities.empty_holds store.entities)
  cases loading with
  | ok loaded => exact ⟨loaded, hload⟩
  | error error =>
    rw [processEvents, hload] at h
    cases h

theorem runHandlers_of_processEvents {registry : Registry} {store : Store}
    {processed : ProcessedUnit}
    (hload : runLoaders Repo.inMemory handlers events .empty store = (.ok loaded, store))
    (h : (processEvents Repo.inMemory handlers registry events store).result = .ok processed) :
    ∃ after, runHandlers handlers loaded events (.start registry) = (after, none) ∧
      processed = after.toUnit store := by
  cases hrun : runHandlers handlers loaded events (.start registry) with
  | mk after failure =>
    cases failure with
    | some error =>
      rw [processEvents, hload] at h
      dsimp only at h
      rw [hrun] at h
      cases h
    | none =>
      rw [processEvents_inMemory hload hrun] at h
      cases h
      exact ⟨after, rfl, rfl⟩

theorem get?_latestOrigins (store : Store) {keys : List EntityKey} {key : EntityKey}
    (h : key ∈ keys) :
    (store.latestOrigins keys).get? key = (store.latestRecord? key).map (·.origin) := by
  have hfound := Table.get?_insertAll_filterMap .empty keys
    (fun key => (store.latestRecord? key).map (·.origin)) key
  simp only [Option.map_map] at hfound
  rw [if_pos h, Table.get?_empty, Option.or_none] at hfound
  exact hfound

theorem get?_latestFor (store : Store) {writes : List (EntityChange × Origin)}
    {write : EntityChange × Origin} (h : write ∈ writes) :
    (store.latestFor writes).get? write.1.key =
      (store.latestRecord? write.1.key).map (·.origin) := by
  have hne : ¬ writes.isEmpty = true := by
    rw [List.isEmpty_iff]
    exact List.ne_nil_of_mem h
  rw [Store.latestFor, if_neg hne]
  exact get?_latestOrigins store (List.mem_eraseDups.2 (List.mem_map_of_mem h))

/-- What processing a unit comes to: it fails at one of its events and has registered nothing, or it
ends at an event that registers new addresses. -/
theorem processEvents_spec (handlers : HandlerTable) (registry : Registry) (events : List Event)
    (store : Store) :
    (processEvents Repo.inMemory handlers registry events store).repo = store ∧
      match (processEvents Repo.inMemory handlers registry events store).result with
      | .ok processed =>
        (processEvents Repo.inMemory handlers registry events store).registry =
            registry.extend processed.registrations ∧
          (processed.registrations = [] ∨
            ∃ last, (events.take processed.applied).getLast? = some last ∧
              ∀ registration ∈ processed.registrations,
                registration.IsFor last ∧ registry.watched.get? registration.key = none)
      | .error error =>
        (processEvents Repo.inMemory handlers registry events store).registry = registry ∧
          ∃ event ∈ events, ∃ cause, error = .handler event cause := by
  obtain ⟨loading, hload, hfailed⟩ : ∃ result,
      runLoaders Repo.inMemory handlers events .empty store = (result, store) ∧
        ∀ error, result = .error error → ∃ event ∈ events, ∃ cause, error = .handler event cause :=
    runLoaders_store (LoadedEntities.empty_holds store.entities)
  cases loading with
  | error error =>
    rw [processEvents, hload]
    exact ⟨rfl, rfl, hfailed error rfl⟩
  | ok loaded =>
    cases hrun : runHandlers handlers loaded events (.start registry) with
    | mk after failure =>
      cases failure with
      | some error =>
        obtain ⟨hregistry, hcause⟩ := runHandlers_error hrun
        rw [processEvents, hload]
        dsimp only
        rw [hrun]
        exact ⟨rfl, hregistry, hcause⟩
      | none =>
        obtain ⟨count, _, happlied, hrunTaken, hall⟩ := handlesAll_of_runHandlers hrun
        obtain ⟨_, _, _, hregistry, hregistrations⟩ :=
          handlesAll_adds store.entities hrunTaken hall rfl
        have hcount : after.applied = count := happlied.trans (Nat.zero_add count)
        rw [processEvents_inMemory hload hrun]
        refine ⟨rfl, ?_, ?_⟩
        · exact hregistry.trans (congrArg registry.extend hregistrations.symm)
        · dsimp only [HandledEvents.toUnit]
          rw [hregistrations, hcount]
          exact handlesAll_registers store.entities hall

end ChainIndexer
