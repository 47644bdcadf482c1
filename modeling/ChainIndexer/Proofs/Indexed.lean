import ChainIndexer.Proofs.Replay
import ChainIndexer.Proofs.Written

/-!
# Stores that events were committed to

A store in memory that units of events were processed and committed to holds the sum of what its
events did: their last writes, the history of all their writes, and what they registered. So stores
with the same events hold the same, however the events were cut into units.
-/

namespace ChainIndexer

/-- A store, started empty, that units of events were processed and committed to: what each event
did, the store, and the registry by then. Every handler reads only what its loader asked for. -/
inductive Indexed (handlers : HandlerTable) (start : Registry) :
    List Deed → Store → Registry → Prop
  | empty : Indexed handlers start [] .empty start
  | unit {deeds : List Deed} {store after : Store} {registry : Registry} {events : List Event}
      {loaded : LoadedEntities} {processed : ProcessedUnit} {checkpoints : List Checkpoint}
      {blocks : List RecordedBlock} (before : Indexed handlers start deeds store registry)
      (hload : runLoaders Repo.inMemory handlers events .empty store = (.ok loaded, store))
      (hprocess :
        (processEvents Repo.inMemory handlers registry events store).result = .ok processed)
      (hreads : ∀ deed ∈ deedsOf handlers store.entities loaded (events.take processed.applied)
        (.start registry), ∀ key ∈ deed.reads, key ∈ deed.loads)
      (hcommit : store.commit
        { rawEvents := events.take processed.applied
          changes := processed.changes
          history := processed.history
          registrations := processed.registrations
          checkpoints := checkpoints
          blocks := blocks } = .ok after) :
      Indexed handlers start
        (deeds ++ deedsOf handlers store.entities loaded (events.take processed.applied)
          (.start registry))
        after (processEvents Repo.inMemory handlers registry events store).registry

/-- Whether a store holds exactly what some events did. -/
structure Store.Records (store : Store) (deeds : List Deed) : Prop where
  entities : store.entities = Store.applyChanges .empty ((writesOf deeds).map (·.1))
  history : store.history.map (·.toHistoryEntry) = linkHistory .empty (writesOf deeds)
  rawEvents : store.rawEvents = deeds.map (·.event)
  registrations : store.registrations = (registrationsOf deeds).foldl
    (fun table registration => table.insertNew registration.key registration) .empty

namespace Store

theorem Records.holds {store : Store} {deeds : List Deed} (h : store.Records deeds) :
    store.Holds (writesOf deeds) :=
  ⟨h.entities, h.history⟩

theorem Records.same {store store' : Store} {deeds : List Deed} (h : store.Records deeds)
    (h' : store'.Records deeds) :
    store.entities = store'.entities ∧
      store.history.map (·.toHistoryEntry) = store'.history.map (·.toHistoryEntry) ∧
      store.rawEvents = store'.rawEvents ∧ store.registrations = store'.registrations :=
  ⟨h.entities.trans h'.entities.symm, h.history.trans h'.history.symm,
    h.rawEvents.trans h'.rawEvents.symm, h.registrations.trans h'.registrations.symm⟩

theorem Records.commit {store after : Store} {deeds added : List Deed} {handled : HandledEvents}
    {processed : ProcessedUnit} {events : List Event} {checkpoints : List Checkpoint}
    {blocks : List RecordedBlock} (h : store.Records deeds)
    (hunit : processed = handled.toUnit store)
    (hwrites : handled.writes = writesOf added)
    (hoverlay : handled.overlay =
      Table.insertAll .empty ((writesOf added).map fun write => (write.1.key, write.1)))
    (hregistrations : handled.registrations = registrationsOf added)
    (hevents : added.map (·.event) = events)
    (hcommit : store.commit
      { rawEvents := events
        changes := processed.changes
        history := processed.history
        registrations := processed.registrations
        checkpoints := checkpoints
        blocks := blocks } = .ok after) :
    after.Records (deeds ++ added) := by
  subst hunit hevents
  obtain ⟨_, rfl⟩ := commit_eq_ok hcommit
  rw [← hwrites] at hoverlay
  have hholds : (store.write
      { rawEvents := added.map (·.event)
        changes := (handled.toUnit store).changes
        history := (handled.toUnit store).history
        registrations := (handled.toUnit store).registrations
        checkpoints := checkpoints
        blocks := blocks }).Holds _ := h.holds.write hoverlay rfl rfl
  rw [hwrites, ← writesOf_append] at hholds
  refine ⟨hholds.entities, hholds.history, ?_, ?_⟩
  · rw [Store.write, h.rawEvents, List.map_append]
  · rw [Store.write, HandledEvents.toUnit, hregistrations, h.registrations, registrationsOf_append,
      List.foldl_append]

end Store

/-! ### Units -/

theorem unit_adds {handlers : HandlerTable} {registry : Registry} {store : Store}
    {events : List Event} {loaded : LoadedEntities} {processed : ProcessedUnit}
    (hload : runLoaders Repo.inMemory handlers events .empty store = (.ok loaded, store))
    (hprocess :
      (processEvents Repo.inMemory handlers registry events store).result = .ok processed) :
    ∃ handled : HandledEvents, processed = handled.toUnit store ∧
      HandlesAll handlers loaded (events.take processed.applied) (.start registry) ∧
      handled.writes = writesOf (deedsOf handlers store.entities loaded
        (events.take processed.applied) (.start registry)) ∧
      handled.overlay = Table.insertAll .empty ((writesOf (deedsOf handlers store.entities loaded
        (events.take processed.applied) (.start registry))).map fun write =>
          (write.1.key, write.1)) ∧
      (processEvents Repo.inMemory handlers registry events store).registry =
        registry.extend (registrationsOf (deedsOf handlers store.entities loaded
          (events.take processed.applied) (.start registry))) ∧
      handled.registrations = registrationsOf (deedsOf handlers store.entities loaded
        (events.take processed.applied) (.start registry)) := by
  obtain ⟨handled, hrun, rfl⟩ := runHandlers_of_processEvents hload hprocess
  obtain ⟨count, _, happlied, hrunTaken, hall⟩ := handlesAll_of_runHandlers hrun
  have hcount : (handled.toUnit store).applied = count := happlied.trans (Nat.zero_add count)
  obtain ⟨_, hwrites, hoverlay, hregistry, hregistrations⟩ :=
    handlesAll_adds store.entities hrunTaken hall rfl
  rw [processEvents_inMemory hload hrun, hcount]
  exact ⟨handled, rfl, hall, hwrites, hoverlay, hregistry, hregistrations⟩

namespace Indexed

variable {handlers : HandlerTable} {start registry : Registry} {deeds : List Deed} {store : Store}

theorem records (h : Indexed handlers start deeds store registry) : store.Records deeds := by
  induction h with
  | empty => exact ⟨rfl, rfl, rfl, rfl⟩
  | unit before hload hprocess hreads hcommit ih =>
    obtain ⟨handled, hunit, _, hwrites, hoverlay, _, hregistrations⟩ := unit_adds hload hprocess
    exact ih.commit hunit hwrites hoverlay hregistrations (deedsOf_events ..) hcommit

theorem registry_eq (h : Indexed handlers start deeds store registry) :
    registry = start.extend (registrationsOf deeds) := by
  induction h with
  | empty => rfl
  | unit before hload hprocess hreads hcommit ih =>
    obtain ⟨_, _, _, _, _, hregistry, _⟩ := unit_adds hload hprocess
    rw [hregistry, ih, registrationsOf_append, Registry.extend_append]

theorem replays (h : Indexed handlers start deeds store registry) :
    Replays handlers .empty start deeds := by
  induction h with
  | empty => trivial
  | unit before hload hprocess hreads hcommit ih =>
    obtain ⟨_, _, hall, _⟩ := unit_adds hload hprocess
    have hentities := before.records.entities
    rw [replays_append, ← before.registry_eq, ← hentities]
    refine ⟨ih, replays_of_handlesAll (holds_of_runLoaders hload) ?_ hall hreads fun key => rfl⟩
    intro event hevent key hkey
    exact List.mem_flatMap.2 ⟨event, List.mem_of_mem_take hevent, hkey⟩

theorem unique {deeds' : List Deed} {store' : Store} {registry' : Registry}
    (h : Indexed handlers start deeds store registry)
    (h' : Indexed handlers start deeds' store' registry')
    (hevents : deeds.map (·.event) = deeds'.map (·.event)) :
    store.entities = store'.entities ∧
      store.history.map (·.toHistoryEntry) = store'.history.map (·.toHistoryEntry) ∧
      store.rawEvents = store'.rawEvents ∧ store.registrations = store'.registrations := by
  obtain ⟨hwrites, hregistrations⟩ := h.replays.unique h'.replays hevents
  have hrecords := h.records
  have hrecords' := h'.records
  refine ⟨?_, ?_, ?_, ?_⟩
  · rw [hrecords.entities, hrecords'.entities, hwrites]
  · rw [hrecords.history, hrecords'.history, hwrites]
  · rw [hrecords.rawEvents, hrecords'.rawEvents, hevents]
  · rw [hrecords.registrations, hrecords'.registrations, hregistrations]

end Indexed

end ChainIndexer
