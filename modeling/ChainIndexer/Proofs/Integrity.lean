import ChainIndexer.Proofs.Rollback.NeverIndexed
import Mathlib.Data.List.Chain

/-!
# The integrity of histories

A store that units are committed to and reorgs rolled back on keeps the records of each entity
linked, and each entity at the value that its last record left.
-/

namespace ChainIndexer

namespace Store

/-- The records of one entity, in the order of serials. -/
def recordsOf (store : Store) (key : EntityKey) : List HistoryRecord :=
  store.history.filter (·.key = key)

/-- Whether what a scope makes stale of an entity are the last records it has, for all entities. -/
def EndsStale (store : Store) (scope : RollbackScope) : Prop :=
  ∀ key, (store.historyIn scope).filter (·.key = key) <:+ store.recordsOf key

/-- Whether each record of an entity leads to the one before it, and the last one to its value. -/
structure Linked (store : Store) : Prop where
  serials : store.history.Pairwise (·.serial < ·.serial)
  first : ∀ key, ∀ record ∈ (store.recordsOf key).head?, record.previous = .genesis
  later : ∀ key, (store.recordsOf key).IsChain fun earlier later =>
    later.previous = earlier.origin ∧ later.previous.isGenesis = false ∧
      store.recordAt key later.previous = some earlier
  value : ∀ key, store.entities.get? key =
    (store.recordsOf key).getLast?.bind fun record => record.toChange.fields?

end Store

/-! ### Lists -/

theorem filter_suffix_iff {α : Type} {items : List α} {p : α → Bool} :
    items.filter p <:+ items ↔ items.Pairwise fun a b => p a = true → p b = true := by
  constructor
  · rintro ⟨front, hsplit⟩
    have hfront : front.filter p = [] := by
      have hfilter := congrArg (List.filter p) hsplit
      rw [List.filter_append, List.filter_filter] at hfilter
      simpa using hfilter
    rw [← hsplit, List.pairwise_append]
    refine ⟨?_, ?_, ?_⟩
    · refine List.pairwise_of_forall_mem_list fun a ha b _ hpa => ?_
      exact absurd hpa (List.filter_eq_nil_iff.1 hfront a ha)
    · exact List.pairwise_of_forall_mem_list fun a _ b hb _ => (List.mem_filter.1 hb).2
    · exact fun a _ b hb _ => (List.mem_filter.1 hb).2
  · intro h
    induction items with
    | nil => exact List.suffix_rfl
    | cons first rest ih =>
      obtain ⟨hfirst, hrest⟩ := List.pairwise_cons.1 h
      by_cases hp : p first = true
      · have hall : (first :: rest).filter p = first :: rest := by
          rw [List.filter_eq_self]
          intro item hitem
          rcases List.mem_cons.1 hitem with rfl | hmem
          · exact hp
          · exact hfirst item hmem hp
        exact ⟨[], hall⟩
      · rw [List.filter_cons_of_neg hp]
        exact (ih hrest).trans (List.suffix_cons first rest)

theorem forall_pairwise_filter_iff {α κ : Type} [DecidableEq κ] {items : List α} {keyOf : α → κ}
    {r : α → α → Prop} :
    (∀ key, (items.filter (keyOf · = key)).Pairwise r) ↔
      items.Pairwise fun a b => keyOf a = keyOf b → r a b := by
  constructor
  · intro h
    induction items with
    | nil => exact List.Pairwise.nil
    | cons first rest ih =>
      refine List.pairwise_cons.2 ⟨fun other hother hkey => ?_, ih fun key => ?_⟩
      · have hfirst := h (keyOf first)
        rw [List.filter_cons_of_pos (by simp)] at hfirst
        refine (List.pairwise_cons.1 hfirst).1 other (List.mem_filter.2 ⟨hother, ?_⟩)
        simp [hkey]
      · exact (h key).sublist ((List.sublist_cons_self first rest).filter _)
  · intro h key
    rw [List.pairwise_filter]
    refine h.imp fun hpair ha hb => hpair ?_
    exact (of_decide_eq_true ha).trans (of_decide_eq_true hb).symm

/-- The stale records of each entity are its last ones if no record that stays follows a stale one
of its entity. -/
theorem Store.endsStale_iff {store : Store} {scope : RollbackScope} :
    store.EndsStale scope ↔ store.history.Pairwise fun a b => a.key = b.key →
      scope.invalidatesOrigin a.origin = true → scope.invalidatesOrigin b.origin = true := by
  rw [← forall_pairwise_filter_iff]
  refine forall_congr' fun key => ?_
  rw [← filter_suffix_iff, recordsOf, historyIn, List.filter_filter, List.filter_filter,
    List.filter_congr fun _ _ => Bool.and_comm _ _]

/-! ### Links -/

/-- The first entry of an entity refers to where its last record came from before, and each other
one to where the entry before it came from. -/
theorem linkHistory_isChain (latest : Table EntityKey Origin)
    (writes : List (EntityChange × Origin)) (key : EntityKey) :
    (∀ entry ∈ ((linkHistory latest writes).filter (·.key = key)).head?,
        entry.previous = (latest.get? key).getD .genesis) ∧
      ((linkHistory latest writes).filter (·.key = key)).IsChain fun earlier later =>
        later.previous = earlier.origin := by
  induction writes generalizing latest with
  | nil => exact ⟨fun _ hmem => absurd hmem (Option.not_mem_none _), .nil⟩
  | cons first rest ih =>
    obtain ⟨hhead, hchain⟩ := ih (latest.insert first.1.key first.2)
    have hentryKey : ∀ previous,
        (HistoryEntry.ofChange first.1 first.2 previous).key = first.1.key := fun _ => rfl
    rw [linkHistory]
    by_cases hkey : first.1.key = key
    · rw [Table.get?_insert, if_pos hkey.symm] at hhead
      rw [List.filter_cons_of_pos (by simp [hentryKey, hkey])]
      refine ⟨fun entry hentry => ?_, List.isChain_cons.2 ⟨hhead, hchain⟩⟩
      obtain rfl := Option.mem_some.1 hentry
      rw [← hkey]
      rfl
    · rw [Table.get?_insert, if_neg (Ne.symm hkey)] at hhead
      rw [List.filter_cons_of_neg (by simp [hentryKey, hkey])]
      exact ⟨hhead, hchain⟩

namespace Store

theorem number_map_serial (lastSerial : Nat) (entries : List HistoryEntry) :
    (number lastSerial entries).map (·.serial) = List.range' (lastSerial + 1) entries.length := by
  induction entries generalizing lastSerial with
  | nil => rfl
  | cons entry rest ih =>
    rw [number, List.map_cons, ih, List.length_cons, List.range'_succ]

theorem number_serials (lastSerial : Nat) (entries : List HistoryEntry) :
    (number lastSerial entries).Pairwise (·.serial < ·.serial) ∧
      ∀ record ∈ number lastSerial entries,
        lastSerial < record.serial ∧ record.serial ≤ lastSerial + entries.length := by
  have hserials := number_map_serial lastSerial entries
  refine ⟨List.pairwise_map.1 (hserials ▸ List.pairwise_lt_range'), fun record hrecord => ?_⟩
  have hmem : record.serial ∈ List.range' (lastSerial + 1) entries.length :=
    hserials ▸ List.mem_map_of_mem hrecord
  rw [List.mem_range'_1] at hmem
  omega

/-- Entries that are given the next serials go on in the order of serials. -/
theorem number_continues {records : List HistoryRecord} {lastSerial : Nat}
    (hordered : records.Pairwise (·.serial < ·.serial))
    (hgiven : ∀ record ∈ records, record.serial ≤ lastSerial) (entries : List HistoryEntry) :
    (records ++ number lastSerial entries).Pairwise (·.serial < ·.serial) ∧
      ∀ record ∈ records ++ number lastSerial entries,
        record.serial ≤ lastSerial + entries.length := by
  obtain ⟨hnew, hbounds⟩ := number_serials lastSerial entries
  refine ⟨List.pairwise_append.2 ⟨hordered, hnew, fun a ha b hb => ?_⟩, fun record hrecord => ?_⟩
  · exact Nat.lt_of_le_of_lt (hgiven a ha) (hbounds b hb).1
  · rcases List.mem_append.1 hrecord with hold | hadded
    · exact Nat.le_trans (hgiven record hold) (Nat.le_add_right _ _)
    · exact (hbounds record hadded).2

/-- The last of the writes of an entity that are kept is the last of its records that are. -/
theorem Holds.lastWrite? {store : Store} {writes : List (EntityChange × Origin)}
    (h : store.Holds writes) (keep : Origin → Bool) (key : EntityKey) :
    ChainIndexer.lastWrite? (writes.filter fun write => keep write.2) key =
      ((store.recordsOf key).filter fun record => keep record.origin).getLast?.map
        fun record => (record.toChange, record.origin) := by
  rw [ChainIndexer.lastWrite?, ← h.history_writes, List.filter_map, ← List.map_reverse,
    List.find?_map, ← List.head?_reverse, recordsOf, List.filter_filter, ← List.filter_reverse,
    ← List.filter_reverse, List.head?_filter, List.find?_filter]
  simp only [Function.comp_def, HistoryEntry.toChange_key, Bool.decide_and, Bool.decide_eq_true]

/-- What holds of a store with the writes that its history is of. -/
structure Ledger (store : Store) (writes : List (EntityChange × Origin)) : Prop where
  holds : store.Holds writes
  nodup : (writes.map fun write => (write.1.key, write.2)).Nodup
  chains : ∀ write ∈ writes, write.2.chain ≠ 0
  serials : store.history.Pairwise (·.serial < ·.serial)
  lastSerial : ∀ record ∈ store.history, record.serial ≤ store.lastSerial

namespace Ledger

theorem empty : Store.empty.Ledger [] :=
  ⟨⟨rfl, rfl⟩, .nil, fun _ h => absurd h List.not_mem_nil, .nil,
    fun _ h => absurd h List.not_mem_nil⟩

variable {store : Store} {writes : List (EntityChange × Origin)}

theorem origin_mem (h : store.Ledger writes) {record : HistoryRecord}
    (hrecord : record ∈ store.history) : record.origin.chain ≠ 0 := by
  have hpair := List.mem_map_of_mem (f := fun record => (record.toChange, record.origin)) hrecord
  rw [h.holds.history_writes] at hpair
  exact h.chains _ hpair

theorem linked (h : store.Ledger writes) : store.Linked := by
  have hentries : ∀ key, (store.recordsOf key).map (·.toHistoryEntry) =
      (linkHistory .empty writes).filter (·.key = key) := by
    intro key
    rw [← h.holds.history, List.filter_map]
    rfl
  have hmem : ∀ {key record}, record ∈ store.recordsOf key →
      record ∈ store.history ∧ record.key = key := by
    intro key record hrecord
    simpa [recordsOf] using hrecord
  refine ⟨h.serials, fun key record hrecord => ?_, fun key => ?_, fun key => ?_⟩
  · have hhead := (linkHistory_isChain .empty writes key).1
    rw [← hentries, List.head?_map] at hhead
    exact hhead _ (Option.mem_map_of_mem _ hrecord)
  · have hchain := (linkHistory_isChain .empty writes key).2
    rw [← hentries, List.isChain_map] at hchain
    refine hchain.imp_of_mem_imp fun earlier later hearlier _ hprevious => ?_
    obtain ⟨hrecord, hkey⟩ := hmem hearlier
    refine ⟨hprevious, ?_, ?_⟩
    · rw [hprevious]
      exact decide_eq_false (h.origin_mem hrecord)
    · rw [hprevious, ← hkey]
      exact h.holds.recordAt_of_mem h.nodup hrecord
  · have hlast := h.holds.lastWrite? (fun _ => true) key
    simp only [List.filter_true] at hlast
    rw [h.holds.entities, get?_applyChanges, hlast]
    cases (store.recordsOf key).getLast? <;> rfl

theorem write (h : store.Ledger writes) {handled : HandledEvents}
    (hoverlay : handled.overlay =
      Table.insertAll .empty (handled.writes.map fun write => (write.1.key, write.1)))
    (hchains : ∀ write ∈ handled.writes, write.2.chain ≠ 0) {unit : WriteUnit}
    (hchanges : unit.changes = (handled.toUnit store).changes)
    (hhistory : unit.history = (handled.toUnit store).history)
    (hnone : firstConflict (store.history.map fun record => (record.key, record.origin))
      unit.history = none) :
    (store.write unit).Ledger (writes ++ handled.writes) := by
  have hkeys := h.holds.history_keys
  have hentries : unit.history.map (fun entry => (entry.key, entry.origin)) =
      handled.writes.map fun write => (write.1.key, write.2) := by
    rw [hhistory]
    exact linkHistory_key _ _
  obtain ⟨hordered, hgiven⟩ := number_continues h.serials h.lastSerial unit.history
  refine ⟨h.holds.write hoverlay hchanges hhistory, ?_, ?_, hordered, hgiven⟩
  · rw [hkeys] at hnone
    rw [List.map_append, ← hentries]
    exact (firstConflict_eq_none_iff_nodup h.nodup).1 hnone
  · intro write hwrite
    rcases List.mem_append.1 hwrite with hold | hnew
    · exact h.chains write hold
    · exact hchains write hnew

variable {mode : Mode} {reorg : Reorg}

/-- In a store whose last records are the stale ones, no write that stays follows a stale one. -/
theorem apart (h : store.Ledger writes) (hends : store.EndsStale (.ofReorg mode reorg)) :
    writes.Pairwise fun a b => RollbackPlan.keeps mode reorg a.2 = false →
      RollbackPlan.keeps mode reorg b.2 = true → a.1.key ≠ b.1.key := by
  rw [← h.holds.history_writes, List.pairwise_map]
  refine (endsStale_iff.1 hends).imp fun {a b} hstale hgone hkept hkey => ?_
  rw [HistoryEntry.toChange_key, HistoryEntry.toChange_key] at hkey
  rw [RollbackPlan.keeps_eq_false] at hgone
  rw [RollbackPlan.keeps_eq_true, hstale hkey hgone] at hkept
  cases hkept

/-- The back-reference of the first stale record of an entity leads to what its last record that
stays left behind. -/
theorem restores (h : store.Ledger writes) (hends : store.EndsStale (.ofReorg mode reorg))
    {key : EntityKey} {record : HistoryRecord}
    (hfirst : (store.historyIn (.ofReorg mode reorg)).find? (·.key = key) = some record) :
    ∃ change, store.restore? record = some change ∧ change.key = key ∧
      change.fields? = ((store.recordsOf key).filter fun record =>
        RollbackPlan.keeps mode reorg record.origin).getLast?.bind
          fun record => record.toChange.fields? := by
  have hstale : (store.history.filter fun record =>
      !RollbackPlan.keeps mode reorg record.origin).find? (·.key = key) = some record := by
    rw [← hfirst, historyIn]
    simp only [RollbackPlan.keeps, Bool.not_not]
  obtain ⟨_, hrestore⟩ := h.holds.restore? h.nodup h.chains (h.apart hends) hstale
  refine ⟨_, hrestore, lastChange_key _ _, ?_⟩
  rw [lastChange, h.holds.lastWrite?]
  cases ((store.recordsOf key).filter fun record =>
    RollbackPlan.keeps mode reorg record.origin).getLast? <;> rfl

theorem rollback (h : store.Ledger writes) (hends : store.EndsStale (.ofReorg mode reorg))
    (tracker : Tracker) :
    ∃ plan, RollbackPlan.make Repo.inMemory mode reorg tracker store = (.ok plan, store) ∧
      (store.applyRollback plan).Ledger
        (writes.filter fun write => RollbackPlan.keeps mode reorg write.2) := by
  obtain ⟨plan, hmake, _, hholds⟩ :=
    RollbackPlan.applyRollback_holds tracker h.holds h.nodup h.chains (h.apart hends)
  refine ⟨plan, hmake, hholds, h.nodup.sublist (List.filter_sublist.map _), ?_, ?_, ?_⟩
  · exact fun write hwrite => h.chains write (List.mem_filter.1 hwrite).1
  · exact h.serials.sublist List.filter_sublist
  · exact fun record hrecord => h.lastSerial record (List.mem_filter.1 hrecord).1

end Ledger

/-! ### Runs -/

variable {store : Store}

theorem handleEvent_changes_nodup {handlers : HandlerTable} {loaded : LoadedEntities}
    {handled : HandledEvents} {event : Event} {changes : List EntityChange}
    {registrations : List Registration}
    (h : handleEvent handlers loaded handled event = .ok (changes, registrations)) :
    (changes.map (·.key)).Nodup := by
  obtain ⟨_, rfl, _⟩ | ⟨handler, context, _, _, hrun, rfl, _⟩ := handleEvent_eq_ok h
  · exact List.nodup_nil
  · have hstart : ((HandlerContext.start event loaded handled.overlay).changes.map
        (·.key)).Nodup := List.nodup_nil
    have hnodup := (handler.handle event).run_changes_nodup hstart
    rwa [hrun] at hnodup

theorem deedsOf_changes_nodup {handlers : HandlerTable} {entities : Table EntityKey Json}
    {loaded : LoadedEntities} {events : List Event} {handled : HandledEvents} {deed : Deed}
    (h : deed ∈ deedsOf handlers entities loaded events handled) :
    (deed.changes.map (·.key)).Nodup := by
  induction events generalizing handled with
  | nil => cases h
  | cons event rest ih =>
    rcases List.mem_cons.1 h with rfl | hrest
    · unfold deedOf
      cases hresult : handleEvent handlers loaded handled event with
      | error error => exact List.nodup_nil
      | ok result => exact handleEvent_changes_nodup hresult
    · exact ih hrest

/-- What a unit writes is what came of the events it applies. -/
theorem deeds_of_processEvents {handlers : HandlerTable} {registry : Registry}
    {events : List Event} {processed : ProcessedUnit}
    (h : (processEvents Repo.inMemory handlers registry events store).result = .ok processed) :
    ∃ (handled : HandledEvents) (deeds : List Deed), processed = handled.toUnit store ∧
      handled.overlay =
        Table.insertAll .empty (handled.writes.map fun write => (write.1.key, write.1)) ∧
      handled.writes = writesOf deeds ∧
      deeds.map (·.event) = events.take processed.applied ∧
      ∀ deed ∈ deeds, (deed.changes.map (·.key)).Nodup := by
  obtain ⟨loaded, hload⟩ := runLoaders_of_processEvents h
  obtain ⟨handled, hunit, _, hwrites, hoverlay, _⟩ := unit_adds hload h
  rw [← hwrites] at hoverlay
  exact ⟨handled, _, hunit, hoverlay, hwrites, deedsOf_events .., fun _ hdeed =>
    deedsOf_changes_nodup hdeed⟩

/-- The writes of a unit are of its events, and at most one of each entity for each event. -/
theorem handled_of_processEvents {handlers : HandlerTable} {registry : Registry}
    {events : List Event} {processed : ProcessedUnit}
    (h : (processEvents Repo.inMemory handlers registry events store).result = .ok processed) :
    ∃ handled : HandledEvents, processed = handled.toUnit store ∧
      handled.overlay =
        Table.insertAll .empty (handled.writes.map fun write => (write.1.key, write.1)) ∧
      (∀ write ∈ handled.writes, ∃ event ∈ events, event.origin = write.2) ∧
      ((events.map (·.origin)).Nodup →
        (handled.writes.map fun write => (write.1.key, write.2)).Nodup) := by
  obtain ⟨handled, deeds, hunit, hoverlay, hwrites, hevents, hchanges⟩ := deeds_of_processEvents h
  refine ⟨handled, hunit, hoverlay, ?_, fun hdistinct => ?_⟩
  · intro write hwrite
    rw [hwrites] at hwrite
    obtain ⟨deed, hdeed, hmem⟩ := List.mem_flatMap.1 hwrite
    obtain ⟨change, _, rfl⟩ := List.mem_map.1 hmem
    have hevent := List.mem_map_of_mem (f := (·.event)) hdeed
    rw [hevents] at hevent
    exact ⟨deed.event, List.mem_of_mem_take hevent, rfl⟩
  · rw [hwrites]
    refine writesOf_nodup ?_ hchanges
    have htaken := hdistinct.sublist ((List.take_sublist processed.applied events).map _)
    rwa [← hevents, List.map_map] at htaken

/-- A store, empty at first, that units were processed and committed to, and that was rolled back
where the stale records of each entity were its last ones. -/
inductive Evolved : Store → Prop
  | empty : Evolved .empty
  | unit {store after : Store} {handlers : HandlerTable} {registry : Registry}
      {events : List Event} {processed : ProcessedUnit} {checkpoints : List Checkpoint}
      {blocks : List RecordedBlock} (before : Evolved store)
      (hchains : ∀ event ∈ events, event.chain ≠ 0)
      (hprocess :
        (processEvents Repo.inMemory handlers registry events store).result = .ok processed)
      (hcommit : store.commit
        { rawEvents := events.take processed.applied
          changes := processed.changes
          history := processed.history
          registrations := processed.registrations
          checkpoints := checkpoints
          blocks := blocks } = .ok after) :
      Evolved after
  | rollback {store : Store} {mode : Mode} {reorg : Reorg} {tracker : Tracker}
      {plan : RollbackPlan} (before : Evolved store)
      (hends : store.EndsStale (.ofReorg mode reorg))
      (hplan : RollbackPlan.make Repo.inMemory mode reorg tracker store = (.ok plan, store)) :
      Evolved (store.applyRollback plan)

theorem Evolved.ledger (h : Evolved store) : ∃ writes, store.Ledger writes := by
  induction h with
  | empty => exact ⟨[], .empty⟩
  | unit before hchains hprocess hcommit ih =>
    obtain ⟨writes, hledger⟩ := ih
    obtain ⟨handled, rfl, hoverlay, hevents, _⟩ := handled_of_processEvents hprocess
    obtain ⟨hnone, rfl⟩ := commit_eq_ok hcommit
    refine ⟨_, hledger.write hoverlay (fun write hwrite => ?_) rfl rfl hnone⟩
    obtain ⟨event, hmem, horigin⟩ := hevents write hwrite
    rw [← horigin]
    exact hchains event hmem
  | rollback before hends hplan ih =>
    obtain ⟨writes, hledger⟩ := ih
    obtain ⟨plan, hmake, hrolled⟩ := hledger.rollback hends _
    rw [hplan] at hmake
    cases hmake
    exact ⟨_, hrolled⟩

/-- In a store that units were committed to and reorgs rolled back on, all histories are linked.
A unit of events that it has no records of can be committed, and a reorg that makes the last records
of each entity stale can be rolled back. -/
theorem Evolved.integrity (h : Evolved store) :
    store.Linked ∧
      (∀ handlers registry events processed,
        (∀ event ∈ events, ∀ record ∈ store.history, record.origin ≠ event.origin) →
        (events.map (·.origin)).Nodup →
        (processEvents Repo.inMemory handlers registry events store).result = .ok processed →
        ∀ unit : WriteUnit, unit.history = processed.history →
          store.commit unit = .ok (store.write unit)) ∧
      ∀ mode reorg tracker, store.EndsStale (.ofReorg mode reorg) →
        ∃ plan, RollbackPlan.make Repo.inMemory mode reorg tracker store = (.ok plan, store) := by
  obtain ⟨writes, hledger⟩ := h.ledger
  refine ⟨hledger.linked, ?_, ?_⟩
  · intro handlers registry events processed hfresh hdistinct hprocess unit hunit
    obtain ⟨handled, rfl, _, hevents, hnodup⟩ := handled_of_processEvents hprocess
    refine hledger.holds.commit_eq_ok ?_ hunit
    rw [List.map_append, List.nodup_append, ← hledger.holds.history_keys]
    refine ⟨hledger.holds.history_keys ▸ hledger.nodup, hnodup hdistinct, ?_⟩
    rintro pair hold _ hnew rfl
    obtain ⟨record, hrecord, rfl⟩ := List.mem_map.1 hold
    obtain ⟨write, hwrite, heq⟩ := List.mem_map.1 hnew
    obtain ⟨event, hmem, horigin⟩ := hevents write hwrite
    exact hfresh event hmem record hrecord ((congrArg Prod.snd heq).symm.trans horigin.symm)
  · intro mode reorg tracker hends
    obtain ⟨plan, hmake, _⟩ := hledger.rollback hends tracker
    exact ⟨plan, hmake⟩

/-- The second of two records of an entity is rolled back, and the first one stays linked. -/
theorem integrity_of_rollback :
    ∃ plan, RollbackPlan.make Repo.inMemory .unordered (.placed 1 47) ⟨.empty⟩
        (Store.empty.write .marks) = (.ok plan, Store.empty.write .marks) ∧
      ((Store.empty.write .marks).applyRollback plan).Linked := by
  have hprocess : (processEvents Repo.inMemory ⟨[("", .marking)]⟩ default
      WriteUnit.marks.rawEvents .empty).result =
        .ok ⟨2, WriteUnit.marks.changes, WriteUnit.marks.history, []⟩ := rfl
  have hcommit : Store.empty.commit .marks = .ok (Store.empty.write .marks) := rfl
  have hmarks : Evolved (Store.empty.write .marks) := .unit .empty (by decide) hprocess hcommit
  have hends : (Store.empty.write .marks).EndsStale (.ofReorg .unordered (.placed 1 47)) :=
    endsStale_iff.2 (by decide)
  obtain ⟨plan, hmake⟩ := hmarks.integrity.2.2 .unordered (.placed 1 47) ⟨.empty⟩ hends
  exact ⟨plan, hmake, (hmarks.rollback hends hmake).integrity.1⟩

end Store

end ChainIndexer
