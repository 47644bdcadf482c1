import ChainIndexer.Proofs.Fork.Rollback
import ChainIndexer.Proofs.Postgres.Effects
import ChainIndexer.Proofs.Postgres.Queries
import ChainIndexer.Proofs.Postgres.Rows
import ChainIndexer.Proofs.Serials
import Mathlib.Data.List.Forall2

/-!
# Rollback scopes on a server

The condition of a scope, read as SQL, is true of the rows that the scope makes stale, and false of
all others. So from tables that hold what a store in memory does, a server that runs SQL deletes the
rows of what that store drops, and answers which records and events are stale as that store does.
-/

namespace ChainIndexer

/-- Whether the numbers that place rows, and all numbers of history records, fit their columns. -/
structure Store.FitsColumns (store : Store) : Prop where
  history : ∀ record ∈ store.history, record.serial < Word.half ∧ record.origin.FitsColumns ∧
    record.previous.FitsColumns
  rawEvents : ∀ event ∈ store.rawEvents,
    event.chain < Word.half ∧ event.block < Word.half ∧ event.timestamp < Word.half
  registrations : ∀ registration ∈ store.registrations.values,
    registration.chain < Word.half ∧ registration.block < Word.half ∧
      registration.timestamp < Word.half

namespace Postgres

open Sql

/-! ### The condition of a scope -/

/-- Whether a row has a chain, a block and a time in their columns. -/
structure LiesAt (row : TableRow) (chain block timestamp : Nat) : Prop where
  chain : row "chain_id" = .word chain
  block : row "block_number" = .word block
  timestamp : row "block_timestamp" = .word timestamp

/-- The tables with rows that a rollback can make stale. -/
def scopeTables : List TableSchema := [historyTable, rawEventsTable, registrationsTable]

/-- The columns that place a row. -/
def placeColumns : List String := ["chain_id", "block_number", "block_timestamp"]

theorem isName_of_mem_scopeTables {table : TableSchema} (h : table ∈ scopeTables) :
    isName table.name = true := by
  revert table
  decide

theorem table?_of_mem_scopeTables {table : TableSchema} (h : table ∈ scopeTables)
    {columns : List String} (hcolumns : ∀ column ∈ columns, column ∈ placeColumns) :
    table? table.name columns = some table := by
  have hfind : ∀ table ∈ scopeTables, dataTables.find? (·.name = table.name) = some table := by
    decide
  have hnumbers : ∀ table ∈ scopeTables, ∀ name ∈ placeColumns,
      table.columns.any (fun column => column.name = name && column.mentions "BIGINT") = true := by
    decide
  rw [table?, hfind table h]
  exact Option.filter_some_pos
    (List.all_eq_true.2 fun column hcolumn => hnumbers table h column (hcolumns column hcolumn))

namespace Condition

variable {row : TableRow} {chain block timestamp : Nat}

theorem isReadable_ofScope (scope : RollbackScope) : (ofScope scope).isReadable = true := by
  cases scope with
  | chain chain safeBlock => rfl
  | global chain safeBlock safeTimestamp =>
    simp only [ofScope, isReadable, List.all_cons, List.all_nil, List.isEmpty_cons]
    decide

theorem columns_ofScope (scope : RollbackScope) :
    ∀ column ∈ (ofScope scope).columns, column ∈ placeColumns := by
  cases scope <;> simp [ofScope, columns, placeColumns]

/-- The numbers that a scope looks at, by their columns. -/
def placed (chain block timestamp : Nat) (column : String) : Nat :=
  if column = "chain_id" then chain else if column = "block_number" then block else timestamp

/-- Columns in the order of a text and the order by time, chain and block are one order. -/
theorem holds_ofScope (scope : RollbackScope) (chain block timestamp : Nat) :
    (ofScope scope).holds (placed chain block timestamp) =
      scope.invalidates chain block timestamp := by
  cases scope with
  | chain reorged safeBlock => simp [ofScope, holds, placed, RollbackScope.invalidates]
  | global reorged safeBlock safeTimestamp =>
    simp [ofScope, holds, isAbove, placed, RollbackScope.invalidates]

theorem truth_ofScope (scope : RollbackScope) (hchain : chain < Word.half)
    (hblock : block < Word.half) (htimestamp : timestamp < Word.half)
    (h : LiesAt row chain block timestamp) :
    (ofScope scope).search.truth row = some (scope.invalidates chain block timestamp) := by
  have hplaced : ∀ column ∈ placeColumns,
      row column = .bigint (placed chain block timestamp column) := by
    simp [placeColumns, placed, h.chain, h.block, h.timestamp, Value.word,
      Word.toSigned_of_lt_half, *]
  rw [truth_search fun column hcolumn => hplaced column (columns_ofScope scope column hcolumn),
    holds_ofScope]

theorem selects_ofScope (scope : RollbackScope) (hchain : chain < Word.half)
    (hblock : block < Word.half) (htimestamp : timestamp < Word.half)
    (h : LiesAt row chain block timestamp) :
    (ofScope scope).search.selects row = scope.invalidates chain block timestamp := by
  rw [Search.selects, truth_ofScope scope hchain hblock htimestamp h]
  simp

end Condition

/-! ### Rows that hold what was written -/

section Stored

variable {α β : Type} {write : α → Row} {rows : List TableRow} {items : List α}

/-- Whether a row holds in its columns what was written there. -/
def Stands (written : Row) (row : TableRow) : Prop := ∀ column ∈ written, row column.1 = column.2

/-- Whether rows hold what was written for some items, in any order. -/
def HoldsAll (write : α → Row) (rows : List TableRow) (items : List α) : Prop :=
  ∃ ordered, ordered.Perm items ∧
    List.Forall₂ (fun item row => Stands (write item) row) ordered rows

theorem stands_completed (computed : Computed) (table : String) {row : Row}
    (h : (row.map (·.1)).Nodup) : Stands row (row.completed computed table) := by
  intro column hcolumn
  rw [Row.completed, Json.lookup_of_mem h hcolumn, Option.getD_some]

theorem HoldsAll.of_completed (computed : Computed) (table : String)
    (h : ∀ item ∈ items, ((write item).map (·.1)).Nodup) :
    HoldsAll write (items.map fun item => (write item).completed computed table) items := by
  refine ⟨items, .refl items, List.forall₂_map_right_iff.2 ?_⟩
  exact List.forall₂_same.2 fun item hitem => stands_completed computed table (h item hitem)

theorem HoldsAll.forall₂ (h : HoldsAll write rows items) :
    ∃ ordered, ordered.Perm items ∧
      List.Forall₂ (fun item row => item ∈ items ∧ Stands (write item) row) ordered rows := by
  obtain ⟨ordered, hordered, hrows⟩ := h
  exact ⟨ordered, hordered,
    (List.forall₂_and_left ordered rows).2 ⟨fun item hitem => hordered.subset hitem, hrows⟩⟩

/-- What picks items picks their rows. -/
theorem HoldsAll.filter (h : HoldsAll write rows items) {keep : α → Bool}
    {keepRow : TableRow → Bool}
    (hkeep : ∀ item ∈ items, ∀ row, Stands (write item) row → keepRow row = keep item) :
    HoldsAll write (rows.filter keepRow) (items.filter keep) := by
  obtain ⟨ordered, hordered, hrows⟩ := h.forall₂
  refine ⟨ordered.filter keep, hordered.filter keep, ?_⟩
  refine (List.rel_filter (fun item row hitem => ?_) hrows).imp fun _ _ hitem => hitem.2
  exact (congrArg (· = true) (hkeep item hitem.1 row hitem.2)).symm.to_iff

/-- What is read off rows is what is read off their items. -/
theorem HoldsAll.map_perm (h : HoldsAll write rows items) {f : TableRow → β} {g : α → β}
    (hread : ∀ item ∈ items, ∀ row, Stands (write item) row → f row = g item) :
    (rows.map f).Perm (items.map g) := by
  obtain ⟨ordered, hordered, hrows⟩ := h.forall₂
  have hmap : ordered.map g = rows.map f := by
    rw [← List.forall₂_eq_eq_eq, List.forall₂_map_left_iff, List.forall₂_map_right_iff]
    exact hrows.imp fun item row hitem => (hread item hitem.1 row hitem.2).symm
  rw [← hmap]
  exact hordered.map g

/-- A row is sent as it was written. -/
theorem TableSchema.send_eq {table : TableSchema} {written : Row} {row : TableRow}
    (hcolumns : table.columns.map (·.name) = written.map (·.1)) (h : Stands written row) :
    table.send row = written.toJson := by
  have hnames : (table.columns.map fun column => (column.name, row column.name)) =
      (table.columns.map (·.name)).map fun name => (name, row name) := by
    rw [List.map_map]
    rfl
  rw [send, hnames, hcolumns, List.map_map]
  refine congrArg Row.toJson ((List.map_congr_left fun column hcolumn => ?_).trans (List.map_id _))
  exact Prod.ext rfl (h column hcolumn)

end Stored

/-! ### Tables that hold a store -/

/-- The row of a history record, with its serial. -/
def Row.ofRecord (record : HistoryRecord) : Row :=
  ("serial", .word record.serial) :: Row.ofHistory record.toHistoryEntry

/-- Whether the tables with rows that can get stale hold what a store in memory does. -/
structure HoldsStore (contents : Contents) (store : Store) : Prop where
  history : HoldsAll Row.ofRecord (contents historyTable.name) store.history
  rawEvents : HoldsAll Row.ofEvent (contents rawEventsTable.name) store.rawEvents
  registrations :
    HoldsAll Row.ofRegistration (contents registrationsTable.name) store.registrations.values

/-- Tables with a row for everything in a store that can get stale. -/
def Contents.ofStore (computed : Computed) (store : Store) : Contents := fun name =>
  if name = historyTable.name then
    store.history.map fun record => (Row.ofRecord record).completed computed historyTable.name
  else if name = rawEventsTable.name then
    store.rawEvents.map fun event => (Row.ofEvent event).completed computed rawEventsTable.name
  else if name = registrationsTable.name then
    store.registrations.values.map fun registration =>
      (Row.ofRegistration registration).completed computed registrationsTable.name
  else []

theorem holdsStore_ofStore (computed : Computed) (store : Store) :
    HoldsStore (.ofStore computed store) store where
  history := .of_completed computed _ fun record _ => by
    simp only [Row.ofRecord, Row.ofHistory, List.map_cons, List.map_nil]
    decide
  rawEvents := .of_completed computed _ fun event _ => by
    simp only [Row.ofEvent, List.map_cons, List.map_nil]
    decide
  registrations := .of_completed computed _ fun registration _ => by
    simp only [Row.ofRegistration, List.map_cons, List.map_nil]
    decide

/-! ### Stale rows -/

theorem liesAt_of_stands {written : Row} {row : TableRow} {chain block timestamp : Nat}
    (h : Stands written row) (hchain : ("chain_id", .word chain) ∈ written)
    (hblock : ("block_number", .word block) ∈ written)
    (htimestamp : ("block_timestamp", .word timestamp) ∈ written) :
    LiesAt row chain block timestamp :=
  ⟨h _ hchain, h _ hblock, h _ htimestamp⟩

theorem liesAt_of_stands_record {record : HistoryRecord} {row : TableRow}
    (h : Stands (Row.ofRecord record) row) :
    LiesAt row record.origin.chain record.origin.block record.origin.timestamp :=
  liesAt_of_stands h (by simp [Row.ofRecord, Row.ofHistory])
    (by simp [Row.ofRecord, Row.ofHistory]) (by simp [Row.ofRecord, Row.ofHistory])

theorem liesAt_of_stands_event {event : Event} {row : TableRow}
    (h : Stands (Row.ofEvent event) row) : LiesAt row event.chain event.block event.timestamp :=
  liesAt_of_stands h (by simp [Row.ofEvent]) (by simp [Row.ofEvent]) (by simp [Row.ofEvent])

theorem liesAt_of_stands_registration {registration : Registration} {row : TableRow}
    (h : Stands (Row.ofRegistration registration) row) :
    LiesAt row registration.chain registration.block registration.timestamp :=
  liesAt_of_stands h (by simp [Row.ofRegistration]) (by simp [Row.ofRegistration])
    (by simp [Row.ofRegistration])

section Selects

variable {store : Store} (hfits : store.FitsColumns) (scope : RollbackScope) {row : TableRow}
include hfits

theorem selects_record {record : HistoryRecord} (hmem : record ∈ store.history)
    (h : Stands (Row.ofRecord record) row) :
    (Condition.ofScope scope).search.selects row = scope.invalidatesOrigin record.origin := by
  obtain ⟨-, horigin, -⟩ := hfits.history record hmem
  exact Condition.selects_ofScope scope horigin.chain horigin.block horigin.timestamp
    (liesAt_of_stands_record h)

theorem selects_event {event : Event} (hmem : event ∈ store.rawEvents)
    (h : Stands (Row.ofEvent event) row) :
    (Condition.ofScope scope).search.selects row = scope.invalidatesEvent event := by
  obtain ⟨hchain, hblock, htimestamp⟩ := hfits.rawEvents event hmem
  exact Condition.selects_ofScope scope hchain hblock htimestamp (liesAt_of_stands_event h)

theorem selects_registration {registration : Registration}
    (hmem : registration ∈ store.registrations.values)
    (h : Stands (Row.ofRegistration registration) row) :
    (Condition.ofScope scope).search.selects row =
      scope.invalidates registration.chain registration.block registration.timestamp := by
  obtain ⟨hchain, hblock, htimestamp⟩ := hfits.registrations registration hmem
  exact Condition.selects_ofScope scope hchain hblock htimestamp (liesAt_of_stands_registration h)

end Selects

section Server

variable {σ : Type} {server : Server σ} {tables : σ → Contents} {store : Store} {state : σ}

/-! ### Deletes -/

/-- From tables that hold a store, the rows go that belong to what a rollback drops. -/
theorem HoldsStore.deleted {before after : Contents} (h : HoldsStore before store)
    (hfits : store.FitsColumns) (plan : RollbackPlan)
    (hafter : ∀ table ∈ scopeTables, after table.name = (before table.name).filter fun row =>
      !(Condition.ofScope plan.scope).search.selects row) :
    HoldsStore after (store.applyRollback plan) where
  history := by
    rw [hafter historyTable (by decide)]
    exact h.history.filter fun record hmem row hrow => by
      rw [selects_record hfits plan.scope hmem hrow]
  rawEvents := by
    rw [hafter rawEventsTable (by decide)]
    exact h.rawEvents.filter fun event hmem row hrow => by
      rw [selects_event hfits plan.scope hmem hrow]
  registrations := by
    have hvalues : (store.applyRollback plan).registrations.values =
        store.registrations.values.filter fun registration => !plan.scope.invalidates
          registration.chain registration.block registration.timestamp := by
      rw [Table.values, Table.values, List.filter_map]
      rfl
    rw [hafter registrationsTable (by decide), hvalues]
    exact h.registrations.filter fun registration hmem row hrow => by
      rw [selects_registration hfits plan.scope hmem hrow]

theorem exists_executeAll_scopeStatements (hserver : server.RunsSql tables)
    (h : HoldsStore (tables state) store) (hfits : store.FitsColumns) (scope : RollbackScope) :
    ∃ after, executeAll server (scopeStatements scope) state = (.ok (), after) ∧
      (∀ plan : RollbackPlan, plan.scope = scope →
        HoldsStore (tables after) (store.applyRollback plan)) ∧
      ∀ name, name ∉ scopeTables.map (·.name) → tables after name = tables state name := by
  have htables : ∀ table ∈ scopeTables, isName table.name = true ∧
      table? table.name (Condition.ofScope scope).columns = some table := fun table hmem =>
    ⟨isName_of_mem_scopeTables hmem,
      table?_of_mem_scopeTables hmem (Condition.columns_ofScope scope)⟩
  obtain ⟨after, hexecute, hafter⟩ := exists_executeAll_deletes hserver
    (Condition.isReadable_ofScope scope) htables state
  refine ⟨after, hexecute, ?_, fun name hname => ?_⟩
  · rintro plan rfl
    refine h.deleted hfits plan fun table hmem => ?_
    rw [hafter, if_pos (List.mem_map_of_mem hmem)]
  · rw [hafter, if_neg hname]

/-! ### History -/

/-- A record as its row reads: fields that are `null` are none. -/
def readBack (record : HistoryRecord) : HistoryRecord :=
  { record with snapshot := record.snapshot.filter fun fields => !fields.isNull }

/-- The row of a record before its action is known. -/
def HistoryRow.ofRecord (record : HistoryRecord) : HistoryRow :=
  ⟨record.serial, record.key, record.action.text, (readBack record).snapshot, record.origin,
    record.previous⟩

theorem toRecords_ofRecord (records : List HistoryRecord) :
    HistoryRow.toRecords (records.map .ofRecord) =
      .ok ((records.map readBack).mergeSort fun a b => a.serial ≤ b.serial) := by
  have hrecords : (records.map HistoryRow.ofRecord).mapM HistoryRow.toRecord =
      .ok (records.map readBack) := by
    rw [List.mapM_map]
    exact mapM_eq_pure_map fun record _ => HistoryRow.toRecord_eq _ rfl
  rw [HistoryRow.toRecords, hrecords]
  rfl

/-- Records that are listed in the order of their serials are put back into it. -/
theorem mergeSort_serial_eq {sent records : List HistoryRecord} (h : sent.Perm records)
    (hordered : records.Pairwise (·.serial < ·.serial)) :
    (sent.mergeSort fun a b => a.serial ≤ b.serial) = records := by
  have hperm : (sent.mergeSort fun a b => a.serial ≤ b.serial).Perm records :=
    (List.mergeSort_perm ..).trans h
  have hsorted : (sent.mergeSort fun a b => a.serial ≤ b.serial).Pairwise fun a b =>
      decide (a.serial ≤ b.serial) = true :=
    List.pairwise_mergeSort
      (fun a b c hab hbc => by
        simp only [decide_eq_true_eq] at *
        exact Nat.le_trans hab hbc)
      (fun a b => by simpa using Nat.le_total a.serial b.serial) sent
  have hnodup : (records.map (·.serial)).Nodup := List.pairwise_map.2 (hordered.imp Nat.ne_of_lt)
  refine hperm.eq_of_pairwise (fun a b ha hb hab hba => ?_) (hsorted.imp of_decide_eq_true)
    (hordered.imp Nat.le_of_lt)
  exact List.inj_on_of_nodup_map hnodup (hperm.mem_iff.1 ha) hb (Nat.le_antisymm hab hba)

theorem exists_historyIn_eq (hserver : server.RunsSql tables)
    (h : HoldsStore (tables state) store) (hfits : store.FitsColumns) (scope : RollbackScope) :
    ∃ records after, (Repo.onServer server).historyIn scope state = (.ok records, after) ∧
      tables after = tables state ∧ records.Perm ((store.historyIn scope).map readBack) ∧
      (store.Numbered → records = (store.historyIn scope).map readBack) := by
  have hmem : historyTable ∈ scopeTables := by decide
  have hselect : Select.ofText? (Query.historyIn scope).aggregated.text =
      some (.rows historyTable (Condition.ofScope scope).search) :=
    Query.ofText?_rows (isName_of_mem_scopeTables hmem)
      (Condition.isReadable_ofScope scope)
      (table?_of_mem_scopeTables hmem (Condition.columns_ofScope scope)) rfl
  have hanswer : (Select.answer (tables state)
      (.rows historyTable (Condition.ofScope scope).search)).Perm
        ((store.historyIn scope).map fun record => (Row.ofRecord record).toJson) :=
    (h.history.filter fun record hmem row hrow => selects_record hfits scope hmem hrow).map_perm
      fun record _ row hrow => TableSchema.send_eq rfl hrow
  have hread : ∀ record ∈ store.historyIn scope,
      HistoryRow.ofJson? (Row.ofRecord record).toJson = some (.ofRecord record) := by
    intro record hmem
    obtain ⟨hserial, horigin, hprevious⟩ := hfits.history record (List.mem_of_mem_filter hmem)
    exact HistoryRow.ofJson?_sentHistory record.toHistoryEntry hserial horigin hprevious
  obtain ⟨sent, after, hload, hafter, hsent⟩ := exists_load_eq hserver rfl hselect hanswer hread
  refine ⟨_, after, ?_, hafter, (List.mergeSort_perm ..).trans (hsent.map readBack),
    fun hnumbered => mergeSort_serial_eq (hsent.map readBack) ?_⟩
  · refine (Call.bind_of_ok hload _).trans ?_
    exact congrArg (·, after) (toRecords_ofRecord sent)
  · exact List.pairwise_map.2 (hnumbered.ordered.filter _)

/-! ### Lowest blocks -/

/-- The lowest stale block of each chain is noted. -/
theorem get?_firstInvalidatedBlocks_iff {scope : RollbackScope} {chain block : Nat} :
    (store.firstInvalidatedBlocks scope).get? chain = some block ↔
      IsLowest ((store.rawEvents.filter scope.invalidatesEvent).map fun event =>
        (event.chain, event.block)) (chain, block) := by
  rw [Store.firstInvalidatedBlocks]
  generalize store.rawEvents.filter scope.invalidatesEvent = events
  -- What is noted is the block of some event and above none, and there is one such block at most.
  have hnoted : ∀ noted, (events.foldl Store.noteLowest .empty).get? chain = some noted →
      IsLowest (events.map fun event => (event.chain, event.block)) (chain, noted) := by
    intro noted hget
    obtain ⟨event, hevent, rfl, rfl⟩ :=
      (Store.noteLowest_foldl_mem hget).resolve_left (fun hnone => nomatch hnone)
    refine ⟨List.mem_map_of_mem hevent, fun other hother hsame => ?_⟩
    obtain ⟨later, hlater, rfl⟩ := List.mem_map.1 hother
    obtain ⟨lowest, hlowest, hle⟩ : ∃ lowest,
        (events.foldl Store.noteLowest .empty).get? later.chain = some lowest ∧
          lowest ≤ later.block := Store.noteLowest_foldl_le_of_mem hlater
    rw [show later.chain = event.chain from hsame, hget] at hlowest
    exact (Option.some.inj hlowest).trans_le hle
  refine ⟨hnoted block, fun hlowest => ?_⟩
  obtain ⟨event, hevent, hpair⟩ := List.mem_map.1 hlowest.1
  obtain ⟨noted, hget, -⟩ : ∃ noted,
      (events.foldl Store.noteLowest .empty).get? event.chain = some noted ∧
        noted ≤ event.block := Store.noteLowest_foldl_le_of_mem hevent
  rw [show event.chain = chain from congrArg Prod.fst hpair] at hget
  rwa [(hnoted noted hget).unique hlowest] at hget

theorem firstBlockOfJson?_toJson {chain block : Nat} (hchain : chain < Word.half)
    (hblock : block < Word.half) :
    firstBlockOfJson? (Row.toJson [("chain_id", .word chain), ("block_number", .word block)]) =
      some (chain, block) := by
  have hnodup : (([("chain_id", .word chain), ("block_number", .word block)] : Row).map
      (·.1)).Nodup := by
    simp only [List.map_cons, List.map_nil]
    decide
  have hfields := Row.recordFields?_toJson hnodup
  simp only [List.map_cons, List.map_nil] at hfields
  rw [firstBlockOfJson?, hfields, Option.bind_eq_bind, Option.bind_some]
  dsimp only
  rw [Value.required?_word hchain, Value.required?_word hblock]
  rfl

theorem Query.ofText?_firstInvalidatedBlocks (scope : RollbackScope) :
    Select.ofText? (Query.firstInvalidatedBlocks scope).aggregated.text =
      some (.minima rawEventsTable (Condition.ofScope scope).search "chain_id" "block_number"
        "block_number") := by
  have hmem : rawEventsTable ∈ scopeTables := by decide
  have hcolumns : ∀ column ∈ "chain_id" :: "block_number" :: (Condition.ofScope scope).columns,
      column ∈ placeColumns := by
    simp only [List.forall_mem_cons]
    exact ⟨by decide, by decide, Condition.columns_ofScope scope⟩
  have htext : (Query.firstInvalidatedBlocks scope).text =
      "SELECT chain_id, MIN(block_number) AS block_number FROM " ++ rawEventsTable.name ++ " WHERE "
        ++ (Condition.ofScope scope).text ++ " GROUP BY chain_id" := rfl
  have hhead : "SELECT chain_id, MIN(block_number) AS block_number FROM " =
      "SELECT " ++ "chain_id" ++ ", MIN(" ++ "block_number" ++ ") AS " ++ "block_number"
        ++ " FROM " := by decide
  have htail : " GROUP BY chain_id" = " GROUP BY " ++ "chain_id" := by decide
  refine Query.ofText?_minima (by decide) (by decide) (by decide)
    (isName_of_mem_scopeTables hmem) (Condition.isReadable_ofScope scope)
    (table?_of_mem_scopeTables hmem hcolumns) ?_
  rw [htext, hhead, htail, ← String.append_assoc]

theorem exists_firstInvalidatedBlocks_eq (hserver : server.RunsSql tables)
    (h : HoldsStore (tables state) store) (hfits : store.FitsColumns) (scope : RollbackScope) :
    ∃ after, (Repo.onServer server).firstInvalidatedBlocks scope state =
        (.ok (store.firstInvalidatedBlocks scope), after) ∧ tables after = tables state := by
  set stale := store.rawEvents.filter scope.invalidatesEvent with hstale
  have hpairs : (((tables state rawEventsTable.name).filter
      (Condition.ofScope scope).search.selects).map fun row =>
        (row "chain_id", row "block_number")).Perm
      ((stale.map fun event => (event.chain, event.block)).map bigints) := by
    rw [List.map_map]
    have hrows := h.rawEvents.filter fun event hmem row hrow => selects_event hfits scope hmem hrow
    refine hrows.map_perm fun event hmem row hrow => ?_
    obtain ⟨hchain, hblock, -⟩ := hfits.rawEvents event (List.mem_of_mem_filter hmem)
    have hlies := liesAt_of_stands_event hrow
    rw [hlies.chain, hlies.block, Value.word, Value.word, Word.toSigned_of_lt_half hchain,
      Word.toSigned_of_lt_half hblock]
    rfl
  obtain ⟨found, hfound, hnodup, hlowest⟩ := exists_minima_eq hpairs
  have hanswer : (Select.answer (tables state) (.minima rawEventsTable
      (Condition.ofScope scope).search "chain_id" "block_number" "block_number")).Perm
        (found.map fun pair => Row.toJson
          [("chain_id", .bigint pair.1), ("block_number", .bigint pair.2)]) := by
    rw [Select.answer, hfound, List.map_map]
    rfl
  have hread : ∀ pair ∈ found, firstBlockOfJson? (Row.toJson
      [("chain_id", .bigint pair.1), ("block_number", .bigint pair.2)]) = some pair := by
    intro pair hpair
    obtain ⟨event, hevent, rfl⟩ := List.mem_map.1 ((hlowest pair).1 hpair).1
    obtain ⟨hchain, hblock, -⟩ := hfits.rawEvents event (List.mem_of_mem_filter hevent)
    have hread := firstBlockOfJson?_toJson hchain hblock
    rwa [Value.word, Value.word, Word.toSigned_of_lt_half hchain,
      Word.toSigned_of_lt_half hblock] at hread
  obtain ⟨sent, after, hload, hafter, hsent⟩ := exists_load_eq hserver rfl
    (Query.ofText?_firstInvalidatedBlocks scope) hanswer hread
  -- The groups come in any order, but a table of them is always in the order of its keys.
  have htable : Table.ofList sent = store.firstInvalidatedBlocks scope := by
    refine Table.ofList_eq ((hsent.map _).nodup_iff.2 hnodup) fun chain block => ?_
    rw [hsent.mem_iff, hlowest, get?_firstInvalidatedBlocks_iff]
  refine ⟨after, (Call.bind_of_ok hload _).trans ?_, hafter⟩
  rw [← htable, List.map_id']
  rfl

/-! ### Scopes -/

/-- The condition of a scope, read as SQL, is true of just the rows that the scope makes stale. From
tables that hold what a store does, a server deletes the rows of what a rollback drops from the
store, and answers the history records and the lowest blocks that are stale in the store. Records
come as their rows read, and in the order of the store if that is the order of their serials. -/
theorem scope_selects_as_in_memory (hserver : server.RunsSql tables)
    (hstore : HoldsStore (tables state) store) (hfits : store.FitsColumns)
    (scope : RollbackScope) :
    (∃ search, Search.ofText? (Condition.ofScope scope).text = some search ∧
      ∀ row chain block timestamp, chain < Word.half → block < Word.half →
        timestamp < Word.half → LiesAt row chain block timestamp →
          search.truth row = some (scope.invalidates chain block timestamp)) ∧
    (∃ after, executeAll server (scopeStatements scope) state = (.ok (), after) ∧
      (∀ plan : RollbackPlan, plan.scope = scope →
        HoldsStore (tables after) (store.applyRollback plan)) ∧
      ∀ name, name ∉ scopeTables.map (·.name) → tables after name = tables state name) ∧
    (∃ records after, (Repo.onServer server).historyIn scope state = (.ok records, after) ∧
      tables after = tables state ∧ records.Perm ((store.historyIn scope).map readBack) ∧
      (store.Numbered → records = (store.historyIn scope).map readBack)) ∧
    ∃ after, (Repo.onServer server).firstInvalidatedBlocks scope state =
        (.ok (store.firstInvalidatedBlocks scope), after) ∧ tables after = tables state := by
  have hsearch := Condition.ofText?_text (Condition.isReadable_ofScope scope)
  exact ⟨⟨_, hsearch, fun row chain block timestamp => Condition.truth_ofScope scope⟩,
    exists_executeAll_scopeStatements hserver hstore hfits scope,
    exists_historyIn_eq hserver hstore hfits scope,
    exists_firstInvalidatedBlocks_eq hserver hstore hfits scope⟩

end Server

/-! ### A sample -/

/-- A transfer on a chain, in a block of a time. -/
def transferAt (chain block timestamp : Nat) : Event :=
  ⟨chain, "0xA", "Token", "Transfer", .null, "0xb", block, timestamp, "0xt", 0, 0⟩

/-- A store with events of four chains, most of them of one time. -/
def crowdedStore : Store :=
  { Store.empty with
    history :=
      [⟨.ofChange (.set tokenKey (.int 1)) ⟨1, 9, 100, 0⟩ .genesis, 1⟩,
        ⟨.ofChange (.set tokenKey (.int 2)) ⟨1, 10, 100, 0⟩ ⟨1, 9, 100, 0⟩, 2⟩,
        ⟨.ofChange (.delete tokenKey) ⟨2, 5, 100, 0⟩ ⟨1, 10, 100, 0⟩, 3⟩]
    lastSerial := 3
    rawEvents :=
      [transferAt 3 60 99, transferAt 0 50 100, transferAt 1 9 100, transferAt 1 11 100,
        transferAt 1 10 100, transferAt 2 5 100, transferAt 0 51 101]
    registrations := Table.empty.insert ⟨2, "0xB"⟩
      ⟨2, "0xB", "Token", 5, 0, 100, "0xA", "Token", "Transfer"⟩ }

theorem crowdedStore_fitsColumns : crowdedStore.FitsColumns where
  history record hrecord := by
    simp only [crowdedStore, List.mem_cons, List.not_mem_nil, or_false] at hrecord
    rcases hrecord with rfl | rfl | rfl <;>
      exact ⟨by decide, by constructor <;> decide, by constructor <;> decide⟩
  rawEvents := by decide
  registrations := by decide

/-- Of the events of one time those of a higher chain are stale, and of the reorged chain those
above the block; a later event is stale on any chain. -/
theorem scope_selects_as_in_memory_crowded :
    Server.ofTables.RunsSql id ∧ HoldsStore (.ofStore .nothing crowdedStore) crowdedStore ∧
      crowdedStore.FitsColumns ∧ crowdedStore.Numbered ∧
      (∃ after, executeAll .ofTables (scopeStatements (.global 1 9 100))
          (.ofStore .nothing crowdedStore) = (.ok (), after) ∧
        HoldsStore after (crowdedStore.applyRollback ⟨.global 1 9 100, [], [], []⟩)) ∧
      (∃ records after, (Repo.onServer .ofTables).historyIn (.global 1 9 100)
          (.ofStore .nothing crowdedStore) = (.ok records, after) ∧
        records.map (·.serial) = [2, 3]) ∧
      ∃ blocks after, (Repo.onServer .ofTables).firstInvalidatedBlocks (.global 1 9 100)
          (.ofStore .nothing crowdedStore) = (.ok blocks, after) ∧
        blocks.entries = [(0, 51), (1, 10), (2, 5)] := by
  have hstore := holdsStore_ofStore .nothing crowdedStore
  have hnumbered : crowdedStore.Numbered := ⟨by decide, by decide⟩
  obtain ⟨-, ⟨after, hexecute, hdeleted, -⟩, ⟨records, afterHistory, hhistory, -, -, hrecords⟩,
    afterBlocks, hblocks, -⟩ :=
    scope_selects_as_in_memory Server.runsSql_ofTables hstore crowdedStore_fitsColumns
      (.global 1 9 100)
  refine ⟨Server.runsSql_ofTables, hstore, crowdedStore_fitsColumns, hnumbered,
    ⟨after, hexecute, hdeleted _ rfl⟩, ⟨records, afterHistory, hhistory, ?_⟩,
    _, afterBlocks, hblocks, ?_⟩
  · rw [hrecords hnumbered]
    decide
  · decide

end Postgres

end ChainIndexer
