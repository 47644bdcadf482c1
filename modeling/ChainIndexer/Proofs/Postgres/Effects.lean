import ChainIndexer.Proofs.History
import ChainIndexer.Proofs.Postgres.Execution
import Mathlib.Data.List.Forall2
import Mathlib.Data.List.Nodup

/-!
# The effect of events and entity changes

The statements for the events and the entity changes of a unit, executed on the tables of a
database. The events are added in order. The entities end up as a store in memory has them, which
applies the changes one by one, although what is set comes first here, in pieces, and what is
deleted comes after it, kind by kind.
-/

namespace ChainIndexer

namespace Postgres

variable {computed : Computed} {contents : Contents}

theorem TableSchema.fits_of_not_null {table : TableSchema} {row : Row}
    (hnodup : (row.map (·.1)).Nodup)
    (hcolumns : ∀ name ∈ row.map (·.1), name ∈ table.columns.map (·.name))
    (hvalues : ∀ entry ∈ row, entry.2 ≠ .null) : table.fits row = true := by
  rw [fits, Bool.and_eq_true, decide_eq_true_eq, List.all_eq_true]
  refine ⟨hnodup, fun entry hentry => ?_⟩
  obtain ⟨column, hcolumn, hname⟩ := List.mem_map.1 (hcolumns _ (List.mem_map_of_mem hentry))
  cases hfind : table.columns.find? (·.name = entry.1) with
  | none => exact absurd (by simpa using hname) (List.find?_eq_none.1 hfind column hcolumn)
  | some found => simp [hfind, hvalues entry hentry]

/-! ### Raw events -/

/-- Whether a row holds an event, every field in its own column. -/
structure HoldsEvent (row : TableRow) (event : Event) : Prop where
  chain : row "chain_id" = .word event.chain
  address : row "contract_address" = .text event.address
  contract : row "contract_name" = .text event.contract
  name : row "event_name" = .text event.name
  params : row "params" = .jsonb event.params
  blockHash : row "block_hash" = .text event.blockHash
  block : row "block_number" = .word event.block
  timestamp : row "block_timestamp" = .word event.timestamp
  transactionHash : row "transaction_hash" = .text event.transactionHash
  transactionIndex : row "transaction_index" = .word event.transactionIndex
  logIndex : row "log_index" = .word event.logIndex

theorem holdsEvent_completed (computed : Computed) (event : Event) :
    HoldsEvent ((Row.ofEvent event).completed computed rawEventsTable.name) event := by
  constructor <;> simp [Row.completed, Row.ofEvent, List.lookup_cons]

/-- The columns that an insert of events fills. -/
def eventColumns : List String :=
  ["chain_id", "contract_address", "contract_name", "event_name", "params", "block_hash",
    "block_number", "block_timestamp", "transaction_hash", "transaction_index", "log_index"]

theorem fits_ofEvent (event : Event) : rawEventsTable.fits (.ofEvent event) = true := by
  have hcolumns : (Row.ofEvent event).map (·.1) = eventColumns := rfl
  refine TableSchema.fits_of_not_null ?_ ?_ ?_
  · rw [hcolumns]
    decide
  · rw [hcolumns]
    decide
  · simp [Row.ofEvent, Value.word]

theorem insertable_events (computed : Computed) (events : List Event) :
    Insertable computed rawEventsTable .fail eventColumns (events.map Row.ofEvent) where
  columns row hrow := by
    obtain ⟨event, -, rfl⟩ := List.mem_map.1 hrow
    rfl
  fits row hrow := by
    obtain ⟨event, -, rfl⟩ := List.mem_map.1 hrow
    exact fits_ofEvent event
  allows := rfl

/-- No key keeps a row of events out. -/
theorem putAll?_rawEvents (computed : Computed) (stored : List TableRow) (rows : List Row) :
    OnConflict.fail.putAll? computed rawEventsTable stored rows =
      some (stored ++ rows.map (Row.completed computed rawEventsTable.name)) := by
  have hkeys : rawEventsTable.uniqueKeys = [] := by decide
  rw [OnConflict.putAll?, hkeys]
  induction rows.map (Row.completed computed rawEventsTable.name) generalizing stored with
  | nil => rw [List.append_nil]; rfl
  | cons row rest ih =>
    rw [List.append_cons, ← ih (stored ++ [row])]
    rfl

theorem runStatements?_rawEvents (computed : Computed) (contents : Contents)
    (events : List Event) :
    ∃ rows, runStatements? computed contents (rawEventStatements events) =
        some (Function.update contents rawEventsTable.name
          (contents rawEventsTable.name ++ rows)) ∧
      List.Forall₂ HoldsEvent rows events := by
  refine ⟨(events.map Row.ofEvent).map (Row.completed computed rawEventsTable.name), ?_, ?_⟩
  · rw [rawEventStatements, runStatements?_insertAll contents (insertable_events computed events)
      (by decide) (by decide), putAll?_rawEvents, Option.map_some]
  · rw [List.map_map, List.forall₂_map_left_iff]
    exact List.forall₂_same.2 fun event _ => holdsEvent_completed computed event

/-! ### Entities -/

/-- Whether a row holds an entity. -/
structure HoldsEntity (row : TableRow) (key : EntityKey) (fields : Json) : Prop where
  kind : row "kind" = .text key.kind
  id : row "id" = .text key.id
  fields : row "fields" = .jsonb fields

/-- Whether rows are those of the entities of a table, one row for each of them. -/
structure HoldsEntities (rows : List TableRow) (entities : Table EntityKey Json) : Prop where
  reads : ∀ row ∈ rows, ∃ key fields, HoldsEntity row key fields ∧ entities.get? key = some fields
  complete : ∀ key fields, entities.get? key = some fields →
    ∃ row ∈ rows, HoldsEntity row key fields
  keys : rows.Pairwise fun a b => agree entitiesTable.primaryKey a b = false

/-- What an insert of entities does about those that are there. -/
def replaceFields : OnConflict :=
  .update ["kind", "id"] ["fields"] [("updated_at", currentEpoch)]

section Entities

variable {rows : List TableRow} {entities : Table EntityKey Json} {row other : TableRow}
  {key otherKey : EntityKey} {fields otherFields : Json}

theorem HoldsEntity.agree_iff (h : HoldsEntity row key fields)
    (hother : HoldsEntity other otherKey otherFields) :
    agree entitiesTable.primaryKey row other = true ↔ key = otherKey := by
  have hkeys : key = otherKey ↔ key.kind = otherKey.kind ∧ key.id = otherKey.id := by
    cases key
    cases otherKey
    simp
  simp [agree, entitiesTable, h.kind, h.id, hother.kind, hother.id, hkeys]

/-- The entities that a delete meets. -/
theorem HoldsEntity.meets (h : HoldsEntity row key fields) (kind : String) (ids : List String) :
    meetsKindAndIds [.text kind, .texts ids] row = (key.kind = kind && ids.contains key.id) := by
  simp [meetsKindAndIds, bound?, h.kind, h.id]

/-- What an update leaves is the entity with its new fields. -/
theorem HoldsEntity.updated (h : HoldsEntity row key fields)
    (hother : HoldsEntity other key otherFields) :
    HoldsEntity (updated computed ["fields"] [("updated_at", currentEpoch)] other row) key
      fields where
  kind := by simp [Postgres.updated, List.lookup_cons, hother.kind]
  id := by simp [Postgres.updated, List.lookup_cons, hother.id]
  fields := by simp [Postgres.updated, h.fields]

theorem HoldsEntity.completed (computed : Computed) (key : EntityKey) (fields : Json) :
    HoldsEntity ((Row.ofEntity key fields).completed computed entitiesTable.name) key fields := by
  constructor <;> simp [Row.completed, Row.ofEntity, List.lookup_cons]

namespace HoldsEntities

/-- The key of an entity is taken if the entity is there. -/
theorem any_agree_iff (h : HoldsEntities rows entities) (hrow : HoldsEntity row key fields) :
    rows.any (agree entitiesTable.primaryKey row) = true ↔
      ∃ old, entities.get? key = some old := by
  rw [List.any_eq_true]
  constructor
  · rintro ⟨other, hmem, hagree⟩
    obtain ⟨otherKey, old, hother, hget⟩ := h.reads other hmem
    obtain rfl := (hrow.agree_iff hother).1 hagree
    exact ⟨old, hget⟩
  · rintro ⟨old, hget⟩
    obtain ⟨other, hmem, hother⟩ := h.complete key old hget
    exact ⟨other, hmem, (hrow.agree_iff hother).2 rfl⟩

theorem replace (h : HoldsEntities rows entities) (hrow : HoldsEntity row key fields)
    {old : Json} (hold : entities.get? key = some old) :
    HoldsEntities
      (rows.map fun other =>
        if agree entitiesTable.primaryKey row other then
          Postgres.updated computed ["fields"] [("updated_at", currentEpoch)] other row
        else other)
      (entities.insert key fields) := by
  set change : TableRow → TableRow := fun other =>
    if agree entitiesTable.primaryKey row other then
      Postgres.updated computed ["fields"] [("updated_at", currentEpoch)] other row
    else other with hchange
  have hholds : ∀ other otherKey otherFields, HoldsEntity other otherKey otherFields →
      HoldsEntity (change other) otherKey (if otherKey = key then fields else otherFields) := by
    intro other otherKey otherFields hother
    by_cases hkey : key = otherKey
    · obtain rfl := hkey
      rw [hchange, if_pos rfl]
      beta_reduce
      rw [if_pos ((hrow.agree_iff hother).2 rfl)]
      exact hrow.updated hother
    · rw [hchange, if_neg (Ne.symm hkey)]
      beta_reduce
      rw [if_neg (mt (hrow.agree_iff hother).1 hkey)]
      exact hother
  constructor
  · intro changed hchanged
    obtain ⟨other, hmem, rfl⟩ := List.mem_map.1 hchanged
    obtain ⟨otherKey, otherFields, hother, hget⟩ := h.reads other hmem
    refine ⟨otherKey, _, hholds other otherKey otherFields hother, ?_⟩
    rw [Table.get?_insert, hget]
    split <;> rfl
  · intro otherKey otherFields hget
    rw [Table.get?_insert] at hget
    by_cases hkey : otherKey = key
    · obtain ⟨other, hmem, hother⟩ := h.complete key old hold
      refine ⟨change other, List.mem_map_of_mem hmem, ?_⟩
      rw [if_pos hkey] at hget
      obtain rfl := Option.some.inj hget
      have hchanged := hholds other key old hother
      rwa [if_pos rfl, ← hkey] at hchanged
    · rw [if_neg hkey] at hget
      obtain ⟨other, hmem, hother⟩ := h.complete otherKey otherFields hget
      refine ⟨change other, List.mem_map_of_mem hmem, ?_⟩
      have hchanged := hholds other otherKey otherFields hother
      rwa [if_neg hkey] at hchanged
  · rw [List.pairwise_map]
    refine h.keys.imp_of_mem fun {a b} ha hb hne => ?_
    obtain ⟨aKey, aFields, hholdsA, -⟩ := h.reads a ha
    obtain ⟨bKey, bFields, hholdsB, -⟩ := h.reads b hb
    rw [Bool.eq_false_iff] at hne ⊢
    rwa [Ne, (hholds _ _ _ hholdsA).agree_iff (hholds _ _ _ hholdsB), ← hholdsA.agree_iff hholdsB]

theorem add (h : HoldsEntities rows entities) (hrow : HoldsEntity row key fields)
    (hnew : entities.get? key = none) :
    HoldsEntities (rows ++ [row]) (entities.insert key fields) where
  reads other hother := by
    rcases List.mem_append.1 hother with hmem | hlast
    · obtain ⟨otherKey, otherFields, hother, hget⟩ := h.reads other hmem
      refine ⟨otherKey, otherFields, hother, ?_⟩
      have hne : otherKey ≠ key := fun hkey => by
        rw [hkey, hnew] at hget
        cases hget
      rw [Table.get?_insert, if_neg hne, hget]
    · obtain rfl := List.mem_singleton.1 hlast
      exact ⟨key, fields, hrow, by rw [Table.get?_insert, if_pos rfl]⟩
  complete otherKey otherFields hget := by
    rw [Table.get?_insert] at hget
    by_cases hkey : otherKey = key
    · rw [if_pos hkey] at hget
      obtain rfl := Option.some.inj hget
      exact ⟨row, List.mem_append_right _ (List.mem_singleton_self row), hkey ▸ hrow⟩
    · rw [if_neg hkey] at hget
      obtain ⟨other, hmem, hother⟩ := h.complete otherKey otherFields hget
      exact ⟨other, List.mem_append_left _ hmem, hother⟩
  keys := by
    refine List.pairwise_append.2 ⟨h.keys, List.pairwise_singleton _ _, ?_⟩
    intro other hmem last hlast
    obtain rfl := List.mem_singleton.1 hlast
    obtain ⟨otherKey, otherFields, hother, hget⟩ := h.reads other hmem
    rw [Bool.eq_false_iff, Ne, hother.agree_iff hrow]
    rintro rfl
    rw [hnew] at hget
    cases hget

theorem put (computed : Computed) (h : HoldsEntities rows entities)
    (hrow : HoldsEntity row key fields) :
    ∃ after, replaceFields.put? computed entitiesTable.uniqueKeys rows row = some after ∧
      HoldsEntities after (entities.insert key fields) := by
  have hkeys : entitiesTable.uniqueKeys = [entitiesTable.primaryKey] := by decide +kernel
  cases hget : entities.get? key with
  | some old =>
    have htaken := (h.any_agree_iff hrow).2 ⟨old, hget⟩
    exact ⟨_, if_pos htaken, h.replace hrow hget⟩
  | none =>
    have hfree : ¬ rows.any (agree entitiesTable.primaryKey row) = true := by
      rw [h.any_agree_iff hrow, hget]
      exact nofun
    refine ⟨rows ++ [row], (if_neg hfree).trans ?_, h.add hrow hget⟩
    rw [append?, hkeys, List.any_cons, List.any_nil, Bool.or_false, if_neg hfree]

theorem putAll (computed : Computed) (h : HoldsEntities rows entities)
    (entries : List (EntityKey × Json)) :
    ∃ after, replaceFields.putAll? computed entitiesTable rows
        (entries.map fun entry => Row.ofEntity entry.1 entry.2) = some after ∧
      HoldsEntities after (entities.insertAll entries) := by
  induction entries generalizing rows entities with
  | nil => exact ⟨rows, rfl, h⟩
  | cons first rest ih =>
    obtain ⟨stored, hput, hstored⟩ := h.put computed (.completed computed first.1 first.2)
    obtain ⟨after, hrest, hafter⟩ := ih hstored
    refine ⟨after, ?_, hafter⟩
    rw [List.map_cons, OnConflict.putAll?, List.map_cons, List.foldlM_cons, hput]
    exact hrest

theorem delete (h : HoldsEntities rows entities) (kind : String) (ids : List String) :
    HoldsEntities (rows.filter fun row => !meetsKindAndIds [.text kind, .texts ids] row)
      (entities.filter fun key _ => !(key.kind = kind && ids.contains key.id)) where
  reads row hrow := by
    obtain ⟨hmem, hkept⟩ := List.mem_filter.1 hrow
    obtain ⟨key, fields, hholds, hget⟩ := h.reads row hmem
    rw [hholds.meets] at hkept
    refine ⟨key, fields, hholds, ?_⟩
    rw [Table.get?_filter, hget]
    exact Option.filter_some_pos hkept
  complete key fields hget := by
    rw [Table.get?_filter, Option.filter_eq_some_iff] at hget
    obtain ⟨row, hmem, hholds⟩ := h.complete key fields hget.1
    exact ⟨row, List.mem_filter.2 ⟨hmem, by rw [hholds.meets]; exact hget.2⟩, hholds⟩
  keys := h.keys.sublist List.filter_sublist

theorem deleteAll (computed : Computed) (contents : Contents)
    (h : HoldsEntities (contents entitiesTable.name) entities)
    (groups : List (String × List String)) :
    ∃ after, runStatements? computed contents
        (groups.map fun (kind, ids) => .deleteEntities kind ids) =
          some (Function.update contents entitiesTable.name after) ∧
      HoldsEntities after (entities.filter fun key _ => !groups.any fun group =>
        key.kind = group.1 && group.2.contains key.id) := by
  induction groups generalizing contents entities with
  | nil =>
    refine ⟨contents entitiesTable.name, ?_, ?_⟩
    · exact congrArg some (Function.update_eq_self ..).symm
    · simpa only [List.any_nil, Bool.not_false, Table.filter_true] using h
  | cons group rest ih =>
    obtain ⟨kind, ids⟩ := group
    have hgroup := h.delete kind ids
    set left := (contents entitiesTable.name).filter fun row =>
      !meetsKindAndIds [.text kind, .texts ids] row
    obtain ⟨after, hrun, hafter⟩ :=
      ih (Function.update contents entitiesTable.name left) (by rwa [Function.update_self])
    refine ⟨after, ?_, ?_⟩
    · rw [Function.update_idem] at hrun
      rw [← hrun]
      rfl
    · simpa only [List.any_cons, Bool.not_or, Table.filter_filter] using hafter

end HoldsEntities

/-! ### Changes of entities -/

/-- The entities that changes set. -/
def setEntries (changes : List EntityChange) : List (EntityKey × Json) :=
  changes.filterMap fun change =>
    match change with
    | .set key fields => some (key, fields)
    | .delete _ => none

theorem setRows_eq (changes : List EntityChange) :
    setRows changes = (setEntries changes).map fun entry => Row.ofEntity entry.1 entry.2 := by
  rw [setRows, setEntries, List.map_filterMap]
  congr 1
  funext change
  cases change <;> rfl

theorem mem_setEntries {changes : List EntityChange} :
    (key, fields) ∈ setEntries changes ↔ .set key fields ∈ changes := by
  rw [setEntries, List.mem_filterMap]
  constructor
  · rintro ⟨change, hmem, hchange⟩
    cases change with
    | set changed value =>
      cases hchange
      exact hmem
    | delete deleted => cases hchange
  · exact fun hmem => ⟨_, hmem, rfl⟩

theorem setEntries_keys_sublist (changes : List EntityChange) :
    ((setEntries changes).map (·.1)).Sublist (changes.map (·.key)) := by
  induction changes with
  | nil => exact .slnil
  | cons first rest ih =>
    cases first with
    | set key fields => exact ih.cons_cons key
    | delete key => exact ih.cons key

/-- Under every kind stand the ids that are deleted. -/
theorem mem_deletedIds {changes : List EntityChange} :
    key.id ∈ ((deletedIds changes).get? key.kind).getD [] ↔ .delete key ∈ changes := by
  have hfold : ∀ table : Table String (List String),
      key.id ∈ ((changes.foldl
          (fun table change =>
            match change with
            | .set _ _ => table
            | .delete key => table.insert key.kind ((table.get? key.kind).getD [] ++ [key.id]))
          table).get? key.kind).getD [] ↔
        key.id ∈ (table.get? key.kind).getD [] ∨ .delete key ∈ changes := by
    induction changes with
    | nil => simp
    | cons first rest ih =>
      intro table
      rw [List.foldl_cons, ih]
      cases first with
      | set changed value => simp
      | delete deleted =>
        have hkey : key = deleted ↔ key.kind = deleted.kind ∧ key.id = deleted.id := by
          cases key
          cases deleted
          simp
        rw [Table.get?_insert]
        by_cases hkind : key.kind = deleted.kind
        · simp [hkind, hkey, or_assoc]
        · simp [hkind, hkey]
  exact (hfold .empty).trans (or_iff_right (List.not_mem_nil))

theorem any_deletedIds (changes : List EntityChange) (key : EntityKey) :
    ((deletedIds changes).entries.any fun group =>
      key.kind = group.1 && group.2.contains key.id) = decide (.delete key ∈ changes) := by
  rw [Bool.eq_iff_iff, decide_eq_true_eq, ← mem_deletedIds, List.any_eq_true]
  constructor
  · rintro ⟨⟨kind, ids⟩, hgroup, hmeets⟩
    rw [Bool.and_eq_true, decide_eq_true_eq, List.contains_iff_mem] at hmeets
    rw [hmeets.1, Table.mem_entries_iff.1 hgroup]
    exact hmeets.2
  · intro hmem
    cases hget : (deletedIds changes).get? key.kind with
    | none =>
      rw [hget] at hmem
      cases hmem
    | some ids =>
      rw [hget] at hmem
      refine ⟨(key.kind, ids), Table.mem_entries_iff.2 hget, ?_⟩
      rw [Bool.and_eq_true, decide_eq_true_eq, List.contains_iff_mem]
      exact ⟨rfl, hmem⟩

/-- With one change of each entity, setting first and then deleting is applying the changes in their
order. -/
theorem filter_insertAll_setEntries {changes : List EntityChange}
    (hkeys : (changes.map (·.key)).Nodup) :
    (entities.insertAll (setEntries changes)).filter
        (fun key _ => !decide (.delete key ∈ changes)) =
      Store.applyChanges entities changes := by
  have hsets := hkeys.sublist (setEntries_keys_sublist changes)
  refine Table.ext_get? fun key => ?_
  rw [Table.get?_filter]
  by_cases hmem : key ∈ changes.map (·.key)
  · obtain ⟨change, hchange, rfl⟩ := List.mem_map.1 hmem
    rw [Store.get?_applyChanges_of_mem hkeys hchange]
    cases change with
    | set key fields =>
      have hkept : EntityChange.delete key ∉ changes := fun hdelete => by
        cases List.inj_on_of_nodup_map hkeys hchange hdelete rfl
      rw [EntityChange.key, Table.get?_insertAll_of_mem hsets (mem_setEntries.2 hchange)]
      exact Option.filter_some_pos (by simpa using hkept)
    | delete key =>
      rw [EntityChange.key, decide_eq_true hchange]
      cases (entities.insertAll (setEntries changes)).get? key <;> rfl
  · have hkept : EntityChange.delete key ∉ changes := fun hdelete =>
      hmem (List.mem_map_of_mem (f := (·.key)) hdelete)
    have hnotSet : key ∉ (setEntries changes).map (·.1) := fun hset =>
      hmem ((setEntries_keys_sublist changes).mem hset)
    rw [Store.get?_applyChanges_of_not_mem hmem, decide_eq_false hkept,
      Table.get?_insertAll_of_not_mem hnotSet]
    cases entities.get? key <;> rfl

theorem insertable_entities (computed : Computed) {entries : List (EntityKey × Json)}
    (hkeys : (entries.map (·.1)).Nodup) :
    Insertable computed entitiesTable replaceFields ["kind", "id", "fields"]
      (entries.map fun entry => Row.ofEntity entry.1 entry.2) where
  columns row hrow := by
    obtain ⟨entry, -, rfl⟩ := List.mem_map.1 hrow
    rfl
  fits row hrow := by
    obtain ⟨entry, -, rfl⟩ := List.mem_map.1 hrow
    have hcolumns : (Row.ofEntity entry.1 entry.2).map (·.1) = ["kind", "id", "fields"] := rfl
    refine TableSchema.fits_of_not_null ?_ ?_ ?_
    · rw [hcolumns]
      decide
    · rw [hcolumns]
      decide
    · simp [Row.ofEntity]
  allows := by
    have hkey : entitiesTable.uniqueKeys.contains ["kind", "id"] = true := by decide +kernel
    rw [replaceFields, OnConflict.allows, hkey, Bool.true_and, decide_eq_true_eq, List.map_map,
      List.pairwise_map]
    rw [List.Nodup, List.pairwise_map] at hkeys
    refine hkeys.imp fun {first second} hne => ?_
    have hagree := (HoldsEntity.completed computed first.1 first.2).agree_iff
      (HoldsEntity.completed computed second.1 second.2)
    exact Bool.eq_false_iff.2 fun hsame => hne (hagree.1 hsame)

theorem runStatements?_entityStatements (computed : Computed) (contents : Contents)
    {changes : List EntityChange} (h : HoldsEntities (contents entitiesTable.name) entities)
    (hkeys : (changes.map (·.key)).Nodup) :
    ∃ after, runStatements? computed contents (entityStatements changes) =
        some (Function.update contents entitiesTable.name after) ∧
      HoldsEntities after (Store.applyChanges entities changes) := by
  have hsets := hkeys.sublist (setEntries_keys_sublist changes)
  obtain ⟨stored, hput, hstored⟩ := h.putAll computed (setEntries changes)
  obtain ⟨after, hdelete, hafter⟩ := HoldsEntities.deleteAll computed
    (Function.update contents entitiesTable.name stored) (by rwa [Function.update_self])
    (deletedIds changes).entries
  have hinsert := runStatements?_insertAll contents (insertable_entities computed hsets)
    (by decide) (by decide)
  rw [hput, Option.map_some] at hinsert
  rw [Function.update_idem] at hdelete
  simp only [any_deletedIds, filter_insertAll_setEntries hkeys] at hafter
  refine ⟨after, ?_, hafter⟩
  rw [entityStatements, runStatements?, List.foldlM_append, setRows_eq]
  exact (congrArg (Option.bind · _) hinsert).trans hdelete

end Entities

/-- Whatever events and changes there are, with at most one change of an entity, none of their
statements is rejected. Each event is added as a row of its own, in order and with every field in
its own column; the entities are those that a store in memory has after the changes; and no other
table is written to. -/
theorem effect_as_in_memory (computed : Computed) {contents : Contents}
    {entities : Table EntityKey Json} (events : List Event) {changes : List EntityChange}
    (h : HoldsEntities (contents entitiesTable.name) entities)
    (hkeys : (changes.map (·.key)).Nodup) :
    ∃ added stored,
      runStatements? computed contents (rawEventStatements events ++ entityStatements changes) =
        some (Function.update
          (Function.update contents rawEventsTable.name (contents rawEventsTable.name ++ added))
          entitiesTable.name stored) ∧
      List.Forall₂ HoldsEvent added events ∧
      HoldsEntities stored (Store.applyChanges entities changes) := by
  obtain ⟨added, hevents, hadded⟩ := runStatements?_rawEvents computed contents events
  have hother : entitiesTable.name ≠ rawEventsTable.name := by decide
  obtain ⟨stored, hentities, hstored⟩ :=
    runStatements?_entityStatements computed
      (Function.update contents rawEventsTable.name (contents rawEventsTable.name ++ added))
      (by rwa [Function.update_of_ne hother]) hkeys
  refine ⟨added, stored, ?_, hadded, hstored⟩
  rw [runStatements?, List.foldlM_append]
  exact (congrArg (Option.bind · _) hevents).trans hentities

/-! ### A sample -/

/-- Every column that is left out is empty, and every expression. -/
def Computed.nothing : Computed := ⟨fun _ _ => .null, fun _ => .null⟩

def poolKey : EntityKey := ⟨"Pool", "0xA"⟩

def tokenKey : EntityKey := ⟨"Token", "0xB"⟩

/-- Tables with a pool and a token, and without events. -/
def Contents.ofPool : Contents :=
  Function.update (fun _ => []) entitiesTable.name
    [(Row.ofEntity poolKey (.int 1)).completed .nothing entitiesTable.name,
      (Row.ofEntity tokenKey (.int 2)).completed .nothing entitiesTable.name]

/-- A swap that drops the pool, changes the token and makes another one. -/
def swapChanges : List EntityChange :=
  [.delete poolKey, .set ⟨"Token", "0xC"⟩ .null, .set tokenKey (.int 3)]

def poolSwap : Event :=
  ⟨1, "0xA", "Pool", "Swap", .null, "0xb1", 10, 100, "0xt1", 0, 2⟩

theorem holdsEntities_ofPool :
    HoldsEntities (Contents.ofPool entitiesTable.name)
      ((Table.empty.insert poolKey (.int 1)).insert tokenKey (.int 2)) := by
  have hempty : HoldsEntities [] .empty := ⟨nofun, nofun, .nil⟩
  have hpool := hempty.add (.completed .nothing poolKey (.int 1)) rfl
  exact hpool.add (.completed .nothing tokenKey (.int 2)) (by decide)

theorem effect_as_in_memory_swap :
    (swapChanges.map (·.key)).Nodup ∧
      ∃ added stored,
        runStatements? .nothing .ofPool
            (rawEventStatements [poolSwap] ++ entityStatements swapChanges) =
          some (Function.update
            (Function.update Contents.ofPool rawEventsTable.name
              (Contents.ofPool rawEventsTable.name ++ added))
            entitiesTable.name stored) ∧
        List.Forall₂ HoldsEvent added [poolSwap] ∧
        HoldsEntities stored (Store.applyChanges
          ((Table.empty.insert poolKey (.int 1)).insert tokenKey (.int 2)) swapChanges) := by
  have hkeys : (swapChanges.map (·.key)).Nodup := by decide
  exact ⟨hkeys, effect_as_in_memory .nothing [poolSwap] holdsEntities_ofPool hkeys⟩

end Postgres

end ChainIndexer
