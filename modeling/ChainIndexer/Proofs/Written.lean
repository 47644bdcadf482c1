import ChainIndexer.Proofs.Processing
import Mathlib.Data.List.Nodup

/-!
# What writes leave in a store

The entities and the history of a store follow from its writes in order: each entity has the value
of its last write, and each write has a record that refers back to the one before it.
-/

namespace ChainIndexer

namespace Store

/-- Whether the entities and the history of a store are what some writes left. -/
structure Holds (store : Store) (writes : List (EntityChange × Origin)) : Prop where
  entities : store.entities = applyChanges .empty (writes.map (·.1))
  history : store.history.map (·.toHistoryEntry) = linkHistory .empty writes

theorem number_entries (lastSerial : Nat) (entries : List HistoryEntry) :
    (number lastSerial entries).map (·.toHistoryEntry) = entries := by
  induction entries generalizing lastSerial with
  | nil => rfl
  | cons entry rest ih => exact congrArg (entry :: ·) (ih _)

/-- Of the changes of a unit only the last one of each entity counts. -/
theorem applyChanges_overlay (entities : Table EntityKey Json)
    (writes : List (EntityChange × Origin)) :
    applyChanges entities
        (Table.insertAll .empty (writes.map fun write => (write.1.key, write.1))).values =
      applyChanges entities (writes.map (·.1)) := by
  have hoverlay : ∀ key,
      (Table.insertAll .empty (writes.map fun write => (write.1.key, write.1))).get? key =
        (lastWrite? writes key).map (·.1) := fun key => by
    rw [get?_insertAll_writes, Table.get?_empty, Option.or_none]
  refine Table.ext_get? fun key => ?_
  rw [get?_applyChanges, Table.values, get?_applyChanges_entries, hoverlay, Option.elim_map]
  · rfl
  · intro entry hentry
    have hget := Table.mem_entries_iff.1 hentry
    rw [hoverlay] at hget
    obtain ⟨write, hwrite, hchange⟩ := Option.map_eq_some_iff.1 hget
    rw [← hchange]
    exact (mem_of_lastWrite? hwrite).2

theorem firstConflict_eq_none_iff {taken : List (EntityKey × Origin)}
    {entries : List HistoryEntry} :
    firstConflict taken entries = none ↔
      (∀ entry ∈ entries, (entry.key, entry.origin) ∉ taken) ∧
        (entries.map fun entry => (entry.key, entry.origin)).Nodup := by
  induction entries generalizing taken with
  | nil => simp [firstConflict]
  | cons entry rest ih =>
    rw [firstConflict]
    by_cases hmem : (entry.key, entry.origin) ∈ taken
    · simp [hmem]
    · rw [if_neg hmem, ih, List.map_cons, List.nodup_cons, List.forall_mem_cons]
      constructor
      · rintro ⟨hnew, hrest⟩
        refine ⟨⟨hmem, fun other hother htaken => ?_⟩, fun hagain => ?_, hrest⟩
        · exact hnew other hother (List.mem_cons_of_mem _ htaken)
        · obtain ⟨other, hother, heq⟩ := List.mem_map.1 hagain
          exact hnew other hother (heq ▸ List.mem_cons_self)
      · rintro ⟨⟨_, hnew⟩, hfirst, hrest⟩
        refine ⟨fun other hother htaken => ?_, hrest⟩
        rcases List.mem_cons.1 htaken with heq | hold
        · exact hfirst (List.mem_map.2 ⟨other, hother, heq⟩)
        · exact hnew other hother hold

/-- Entries are free of conflicts if no two changes of an entity, old or new, are of one event. -/
theorem firstConflict_eq_none_iff_nodup {taken : List (EntityKey × Origin)}
    {entries : List HistoryEntry} (htaken : taken.Nodup) :
    firstConflict taken entries = none ↔
      (taken ++ entries.map fun entry => (entry.key, entry.origin)).Nodup := by
  rw [firstConflict_eq_none_iff, List.nodup_append]
  constructor
  · rintro ⟨hnew, hnodup⟩
    refine ⟨htaken, hnodup, ?_⟩
    rintro source hold _ hentry rfl
    obtain ⟨entry, hmem, rfl⟩ := List.mem_map.1 hentry
    exact hnew entry hmem hold
  · rintro ⟨-, hnodup, hapart⟩
    exact ⟨fun entry hentry hold => hapart _ hold _ (List.mem_map_of_mem hentry) rfl, hnodup⟩

theorem commit_eq_ok {store after : Store} {unit : WriteUnit} (h : store.commit unit = .ok after) :
    firstConflict (store.history.map fun record => (record.key, record.origin)) unit.history =
        none ∧
      after = store.write unit := by
  rw [commit] at h
  split at h
  next => cases h
  next hnone =>
    cases h
    exact ⟨hnone, rfl⟩

/-- Where no event changed an entity twice, a record is found by its entity and where it came
from. -/
theorem recordAt_eq_some_iff {store : Store}
    (hnodup : (store.history.map fun record => (record.key, record.origin)).Nodup)
    {key : EntityKey} {origin : Origin} {record : HistoryRecord} :
    store.recordAt key origin = some record ↔
      record ∈ store.history ∧ record.key = key ∧ record.origin = origin := by
  constructor
  · intro hfound
    have hmatch : record.origin = origin ∧ record.key = key := by simpa using List.find?_some hfound
    exact ⟨List.mem_reverse.1 (List.mem_of_find?_eq_some hfound), hmatch.2, hmatch.1⟩
  · rintro ⟨hmem, rfl, rfl⟩
    have hexists : (store.recordAt record.key record.origin).isSome = true := by
      rw [recordAt, List.find?_isSome]
      exact ⟨record, List.mem_reverse.2 hmem, decide_eq_true ⟨rfl, rfl⟩⟩
    obtain ⟨found, hfound⟩ := Option.isSome_iff_exists.1 hexists
    have hmatch : found.origin = record.origin ∧ found.key = record.key := by
      simpa using List.find?_some hfound
    have hsame : found = record := by
      refine List.inj_on_of_nodup_map hnodup
        (List.mem_reverse.1 (List.mem_of_find?_eq_some hfound)) hmem ?_
      rw [hmatch.1, hmatch.2]
    rw [hfound, hsame]

namespace Holds

variable {store : Store} {writes : List (EntityChange × Origin)}

theorem history_keys (h : store.Holds writes) :
    store.history.map (fun record => (record.key, record.origin)) =
      writes.map fun write => (write.1.key, write.2) := by
  rw [← linkHistory_key .empty, ← h.history, List.map_map]
  rfl

theorem history_writes (h : store.Holds writes) :
    store.history.map (fun record => (record.toChange, record.origin)) = writes := by
  rw [← linkHistory_writes .empty writes, ← h.history, List.map_map]
  rfl

theorem latest_origin (h : store.Holds writes) (key : EntityKey) :
    (store.latestRecord? key).map (·.origin) = ((lastWrite? writes key).map (·.2)) := by
  have hrecord : (store.latestRecord? key).map (·.origin) =
      ((store.history.map fun record => (record.key, record.origin)).reverse.find?
        (·.1 = key)).map (·.2) := by
    rw [latestRecord?, ← List.map_reverse, List.find?_map, Option.map_map]
    rfl
  have hwrite : (lastWrite? writes key).map (·.2) =
      ((writes.map fun write => (write.1.key, write.2)).reverse.find?
        (·.1 = key)).map (·.2) := by
    rw [lastWrite?, ← List.map_reverse, List.find?_map, Option.map_map]
    rfl
  rw [hrecord, hwrite, h.history_keys]

/-- Writing what was handled on a store adds its writes. -/
theorem write (h : store.Holds writes) {handled : HandledEvents}
    (hoverlay : handled.overlay =
      Table.insertAll .empty (handled.writes.map fun write => (write.1.key, write.1)))
    {unit : WriteUnit} (hchanges : unit.changes = (handled.toUnit store).changes)
    (hhistory : unit.history = (handled.toUnit store).history) :
    (store.write unit).Holds (writes ++ handled.writes) := by
  refine ⟨?_, ?_⟩
  · rw [Store.write, hchanges, HandledEvents.toUnit, hoverlay, applyChanges_overlay,
      List.map_append, applyChanges_append, ← h.entities]
  · rw [Store.write, hhistory, List.map_append, number_entries, h.history, linkHistory_append]
    refine congrArg _ (linkHistory_congr fun write hwrite => ?_)
    rw [get?_latestFor store hwrite, h.latest_origin, get?_latestAfter, Table.get?_empty,
      Option.or_none]

theorem commit_eq_ok (h : store.Holds writes) {handled : HandledEvents}
    (hnodup : ((writes ++ handled.writes).map fun write => (write.1.key, write.2)).Nodup)
    {unit : WriteUnit} (hunit : unit.history = (handled.toUnit store).history) :
    store.commit unit = .ok (store.write unit) := by
  have hentries : unit.history.map (fun entry => (entry.key, entry.origin)) =
      handled.writes.map fun write => (write.1.key, write.2) := by
    rw [hunit]
    exact linkHistory_key _ _
  rw [List.map_append, ← h.history_keys, ← hentries] at hnodup
  rw [Store.commit, (firstConflict_eq_none_iff_nodup hnodup.of_append_left).2 hnodup]

/-- The record of a write is found by its entity and where it came from. -/
theorem recordAt_of_mem (h : store.Holds writes)
    (hnodup : (writes.map fun write => (write.1.key, write.2)).Nodup) {record : HistoryRecord}
    (hmem : record ∈ store.history) : store.recordAt record.key record.origin = some record :=
  (recordAt_eq_some_iff (h.history_keys ▸ hnodup)).2 ⟨hmem, rfl, rfl⟩

theorem recordAt (h : store.Holds writes)
    (hnodup : (writes.map fun write => (write.1.key, write.2)).Nodup)
    {write : EntityChange × Origin} (hmem : write ∈ writes) :
    ∃ record, store.recordAt write.1.key write.2 = some record ∧ record.toChange = write.1 := by
  rw [← h.history_writes] at hmem
  obtain ⟨record, hrecord, rfl⟩ := List.mem_map.1 hmem
  refine ⟨record, ?_, rfl⟩
  rw [HistoryEntry.toChange_key]
  exact h.recordAt_of_mem hnodup hrecord

end Holds

end Store

end ChainIndexer
