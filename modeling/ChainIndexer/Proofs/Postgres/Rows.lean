import ChainIndexer.Proofs.Postgres.Execution
import ChainIndexer.Proofs.Words
import Mathlib.Data.List.Nodup

/-!
# Reading rows back

History records and checkpoints are written column by column and read from the JSON of their rows.
Numbers below the sign bit come back as they were, and so does an option over two columns. A record
comes back as it was unless it sets fields that are JSON `null`: an empty column looks the same, and
what was set reads as deleted.
-/

namespace ChainIndexer

/-! ### Members of objects -/

namespace Json

theorem lookup_cons_eq_if {α : Type} (name : String) (member : String × α)
    (rest : List (String × α)) :
    (member :: rest).lookup name = if name = member.1 then some member.2 else rest.lookup name := by
  by_cases h : name = member.1
  · rw [if_pos h, h, List.lookup_cons_self]
  · rw [if_neg h, List.lookup_cons, beq_eq_false_iff_ne.2 h]

theorem lookup_insertMember (key name : String) (value : Json) (members : List (String × Json)) :
    (insertMember key value members).lookup name =
      if name = key then some value else members.lookup name := by
  induction members with
  | nil => rw [insertMember, lookup_cons_eq_if]
  | cons first rest ih =>
    rw [insertMember]
    split
    next => rw [lookup_cons_eq_if]
    next heq =>
      obtain rfl := Std.LawfulEqOrd.eq_of_compare heq
      rw [lookup_cons_eq_if, lookup_cons_eq_if]
      by_cases h : name = first.1 <;> simp [h]
    next hgt =>
      have hne : first.1 ≠ key := by
        rintro rfl
        rw [Std.ReflOrd.compare_self] at hgt
        cases hgt
      rw [lookup_cons_eq_if, ih, lookup_cons_eq_if]
      by_cases h : name = first.1
      · rw [if_pos h, if_pos h, if_neg (h ▸ hne)]
      · rw [if_neg h, if_neg h]

/-- Of the members given under one key the last counts. -/
theorem get?_object (members : List (String × Json)) (name : String) :
    (object members).get? name = members.reverse.lookup name := by
  have hfold : ∀ sorted : List (String × Json),
      (members.foldl (fun sorted member => insertMember member.1 member.2 sorted) sorted).lookup
        name = (members.reverse.lookup name).or (sorted.lookup name) := by
    induction members with
    | nil => exact fun sorted => rfl
    | cons first rest ih =>
      intro sorted
      rw [List.foldl_cons, ih, lookup_insertMember, List.reverse_cons, List.lookup_append,
        lookup_cons_eq_if, Option.or_assoc]
      congr 1
      split <;> rfl
  rw [object, get?, hfold]
  exact Option.or_none

theorem lookup_of_mem {α : Type} {members : List (String × α)} (h : (members.map (·.1)).Nodup)
    {name : String} {value : α} (hmem : (name, value) ∈ members) :
    members.lookup name = some value := by
  induction members with
  | nil => cases hmem
  | cons first rest ih =>
    obtain ⟨hfirst, hrest⟩ := List.nodup_cons.1 h
    rcases List.mem_cons.1 hmem with rfl | hmem
    · exact List.lookup_cons_self
    · have hne : name ≠ first.1 := fun hsame => hfirst (List.mem_map.2 ⟨_, hmem, hsame⟩)
      rw [lookup_cons_eq_if, if_neg hne]
      exact ih hrest hmem

end Json

/-! ### Single columns -/

namespace Postgres

namespace Value

variable {word : Nat}

theorem asWord?_word (h : word < Word.half) : (Value.word word).toJson.asWord? = some word := by
  have hword : word < Word.count := Nat.lt_trans h (by decide)
  rw [Value.word, toJson, Word.toSigned_of_lt_half h, Json.asWord?, Json.asNat?, Json.asInt?,
    if_pos ⟨Int.natCast_nonneg _, Int.ofNat_lt.2 hword⟩, Option.map_some, Int.toNat_natCast]

theorem asSigned?_bigint {value : Int} (hlow : -Word.half ≤ value) (hhigh : value < Word.half) :
    (Value.bigint value).toJson.asSigned? = some value := by
  rw [toJson, Json.asSigned?, Json.asInt?, if_pos ⟨hlow, hhigh⟩]

theorem required?_word (h : word < Word.half) :
    Json.required? Json.asWord? (some (Value.word word).toJson) = some word := by
  rw [Json.required?, asWord?_word h]

/-- A column that may be empty reads as what was sent, if that is never `null`. -/
theorem optional?_ofOption {α β : Type} {write : α → Value} {read : Json → Option β}
    (sent : α → β) {value : Option α} (hread : ∀ a ∈ value, read (write a).toJson = some (sent a))
    (hnull : ∀ a ∈ value, (write a).toJson ≠ .null) :
    Json.optional? read (some (ofOption write value).toJson) = some (value.map sent) := by
  cases value with
  | none => rfl
  | some a =>
    rw [ofOption, Json.optional?, hread a rfl, Option.map_some, Option.map_some]
    exact fun hsame => hnull a rfl hsame

theorem optional?_word {value : Option Nat} (h : ∀ word ∈ value, word < Word.half) :
    Json.optional? Json.asWord? (some (ofOption .word value).toJson) = some value := by
  have hread := optional?_ofOption id
    (fun word hword => asWord?_word (h word hword)) fun _ _ => nofun
  rwa [Option.map_id, id] at hread

theorem optional?_bigint {value : Option Int}
    (h : ∀ number ∈ value, -(Word.half : Int) ≤ number ∧ number < Word.half) :
    Json.optional? Json.asSigned? (some (ofOption .bigint value).toJson) = some value := by
  have hread := optional?_ofOption id
    (fun number hnumber => asSigned?_bigint (h number hnumber).1 (h number hnumber).2)
    fun _ _ => nofun
  rwa [Option.map_id, id] at hread

/-- JSON in a column that may be empty reads as it was, but `null` as nothing. -/
theorem optional?_jsonb (value : Option Json) :
    Json.optional? some (some (ofOption .jsonb value).toJson) =
      some (value.filter fun json => !json.isNull) := by
  cases value with
  | none => rfl
  | some json => cases json <;> rfl

end Value

/-! ### Rows -/

namespace Row

theorem get?_toJson {row : Row} (h : (row.map (·.1)).Nodup) {column : String × Value}
    (hmem : column ∈ row) : row.toJson.get? column.1 = some column.2.toJson := by
  rw [toJson, Json.get?_object]
  refine Json.lookup_of_mem ?_ ?_
  · rw [List.map_reverse, List.map_map]
    exact List.nodup_reverse.2 h
  · rw [List.mem_reverse]
    exact List.mem_map.2 ⟨column, hmem, rfl⟩

/-- A row whose columns all differ is read column by column. -/
theorem recordFields?_toJson {row : Row} (h : (row.map (·.1)).Nodup) :
    row.toJson.recordFields? (row.map (·.1)) =
      some (row.map fun column => some column.2.toJson) := by
  refine congrArg some ((List.map_map ..).trans ?_)
  exact List.map_congr_left fun column hmem => get?_toJson h hmem

end Row

end Postgres

/-- Whether all numbers of a checkpoint fit their columns. -/
structure Checkpoint.FitsColumns (checkpoint : Checkpoint) : Prop where
  chain : checkpoint.chain < Word.half
  startBlock : checkpoint.startBlock < Word.half
  endBlock : ∀ block ∈ checkpoint.endBlock, block < Word.half
  fetched : ∀ block ∈ checkpoint.fetched, block < Word.half
  processed : ∀ block ∈ checkpoint.processed, block < Word.half
  position : ∀ position ∈ checkpoint.position,
    position.block < Word.half ∧ position.logIndex < Word.half
  events : checkpoint.events < Word.half
  batches : checkpoint.batches < Word.half
  firstEventBlock : ∀ block ∈ checkpoint.firstEventBlock, block < Word.half
  caughtUpAt : ∀ time ∈ checkpoint.caughtUpAt, -(Word.half : Int) ≤ time ∧ time < Word.half

/-- Whether all numbers of an origin fit their columns. -/
structure Origin.FitsColumns (origin : Origin) : Prop where
  chain : origin.chain < Word.half
  block : origin.block < Word.half
  timestamp : origin.timestamp < Word.half
  logIndex : origin.logIndex < Word.half

namespace Postgres

theorem checkpointOfJson?_toJson {checkpoint : Checkpoint} (h : checkpoint.FitsColumns) :
    checkpointOfJson? (Row.ofCheckpoint checkpoint).toJson = some checkpoint := by
  have hnodup : ((Row.ofCheckpoint checkpoint).map (·.1)).Nodup := by
    rw [Row.ofCheckpoint]
    simp only [List.map_cons, List.map_nil]
    decide
  obtain ⟨chain, start, finish, fetched, processed, position, events, batches, firstEvent,
    caughtUpAt, isLive, isFinished⟩ := checkpoint
  have hfields := Row.recordFields?_toJson hnodup
  -- The row is only known by its fields from here on.
  rw [Row.ofCheckpoint] at hfields ⊢
  generalize Row.toJson _ = json at hfields ⊢
  simp only [List.map_cons, List.map_nil] at hfields
  have hblock : Json.optional? Json.asWord?
      (some (Value.ofOption (.word ·.block) position).toJson) = some (position.map (·.block)) :=
    Value.optional?_ofOption _ (fun _ hposition => Value.asWord?_word (h.position _ hposition).1)
      fun _ _ => nofun
  have hlogIndex : Json.optional? Json.asWord?
      (some (Value.ofOption (.word ·.logIndex) position).toJson) =
        some (position.map (·.logIndex)) :=
    Value.optional?_ofOption _ (fun _ hposition => Value.asWord?_word (h.position _ hposition).2)
      fun _ _ => nofun
  rw [checkpointOfJson?, hfields, Option.bind_eq_bind, Option.bind_some]
  dsimp only
  rw [Value.required?_word h.chain, Value.required?_word h.startBlock,
    Value.optional?_word h.endBlock, Value.optional?_word h.fetched,
    Value.optional?_word h.processed, hblock, hlogIndex, Value.required?_word h.events,
    Value.required?_word h.batches, Value.optional?_word h.firstEventBlock,
    Value.optional?_bigint h.caughtUpAt]
  cases position <;> rfl

/-- A row of the history as the server sends it, with the serial that the table gave it. -/
def sentHistory (serial : Nat) (written : Row) : Json :=
  Row.toJson (("serial", .word serial) :: written)

theorem HistoryRow.ofJson?_sentHistory (entry : HistoryEntry) {serial : Nat}
    (hserial : serial < Word.half) (horigin : entry.origin.FitsColumns)
    (hprevious : entry.previous.FitsColumns) :
    HistoryRow.ofJson? (sentHistory serial (.ofHistory entry)) =
      some ⟨serial, entry.key, entry.action.text,
        entry.snapshot.filter fun fields => !fields.isNull, entry.origin, entry.previous⟩ := by
  have hnodup : ((("serial", Value.word serial) :: Row.ofHistory entry).map (·.1)).Nodup := by
    rw [Row.ofHistory]
    simp only [List.map_cons, List.map_nil]
    decide
  have hfields := Row.recordFields?_toJson hnodup
  rw [Row.ofHistory] at hfields
  rw [sentHistory, Row.ofHistory]
  generalize Row.toJson _ = json at hfields ⊢
  simp only [List.map_cons, List.map_nil] at hfields
  rw [HistoryRow.ofJson?, hfields, Option.bind_eq_bind, Option.bind_some]
  dsimp only
  rw [Value.required?_word hserial, Value.optional?_jsonb, Value.required?_word horigin.chain,
    Value.required?_word horigin.block, Value.required?_word horigin.timestamp,
    Value.required?_word horigin.logIndex, Value.required?_word hprevious.chain,
    Value.required?_word hprevious.block, Value.required?_word hprevious.timestamp,
    Value.required?_word hprevious.logIndex]
  rfl

/-! ### Written and read -/

theorem HistoryRow.toRecord_eq (row : HistoryRow) {action : HistoryAction}
    (haction : row.action = action.text) :
    row.toRecord =
      .ok ⟨⟨row.key, action, row.snapshot, row.origin, row.previous⟩, row.serial⟩ := by
  have htext : HistoryAction.ofText? action.text = some action := by cases action <;> rfl
  rw [toRecord, haction, htext]

/-- The table that a statement adds rows to, and the rows. -/
def Statement.inserted? : Statement → Option (String × List Row)
  | insert rows => (rows.rows.mapM rows.row?).map fun inserted => (rows.table, inserted)
  | _ => none

theorem map_inserted?_insertEach (table : TableSchema) (rows : List Row)
    (onConflict : OnConflict) :
    (insertEach table rows onConflict).map Statement.inserted? =
      rows.map fun row => some (table.name, [row]) := by
  rw [insertEach, List.map_map]
  refine List.map_congr_left fun row _ => ?_
  obtain ⟨insert, hinsert, hname, -, -, hrows⟩ :=
    exists_insertRows_eq table onConflict (List.forall_mem_singleton.2 rfl)
      (List.cons_ne_nil row [])
  rw [Function.comp_apply, hinsert, Statement.inserted?, hrows, hname, Option.map_some]

/-- The record of a change as it is read: fields that are `null` are none. -/
def readRecord (change : EntityChange) (origin previous : Origin) (serial : Nat) :
    HistoryRecord where
  toHistoryEntry :=
    { HistoryEntry.ofChange change origin previous with
      snapshot := change.fields?.filter fun fields => !fields.isNull }
  serial := serial

theorem filter_fields?_eq_iff {change : EntityChange} :
    change.fields?.filter (fun fields => !fields.isNull) = change.fields? ↔
      change.fields? ≠ some .null := by
  cases change.fields? with
  | none => simp
  | some fields => cases fields <;> simp [Json.isNull]

theorem readRecord_eq_iff {change : EntityChange} {origin previous : Origin} {serial : Nat} :
    readRecord change origin previous serial = ⟨.ofChange change origin previous, serial⟩ ↔
      change.fields? ≠ some .null := by
  rw [← filter_fields?_eq_iff]
  constructor
  · exact fun hsame => congrArg (·.snapshot) hsame
  · intro hsame
    rw [readRecord, hsame]
    rfl

theorem toChange_readRecord {change : EntityChange} {origin previous : Origin} {serial : Nat} :
    (readRecord change origin previous serial).toChange =
      if change.fields? = some .null then .delete change.key else change := by
  cases change with
  | set key fields => cases fields <;> rfl
  | delete key => rfl

/-- What is inserted for a checkpoint reads as that checkpoint. What is inserted for the record of a
change reads as that record, and the record leads to that change, exactly if the change does not set
fields that are `null`; one that does reads as a delete. -/
theorem rows_read_back (change : EntityChange) {origin previous : Origin} {serial : Nat}
    {checkpoint : Checkpoint} (hserial : serial < Word.half) (horigin : origin.FitsColumns)
    (hprevious : previous.FitsColumns) (hcheckpoint : checkpoint.FitsColumns) :
    (∃ written,
      (checkpointStatements [checkpoint]).map Statement.inserted? =
          [some (checkpointsTable.name, [written])] ∧
        checkpointOfJson? written.toJson = some checkpoint) ∧
      ∃ written row read,
        (historyStatements [.ofChange change origin previous]).map Statement.inserted? =
            [some (historyTable.name, [written])] ∧
          HistoryRow.ofJson? (sentHistory serial written) = some row ∧
          row.toRecord = .ok read ∧
          (read = ⟨.ofChange change origin previous, serial⟩ ↔ change.fields? ≠ some .null) ∧
          (read.toChange = change ↔ change.fields? ≠ some .null) ∧
          (change.fields? = some .null → read.toChange = .delete change.key) := by
  have hread := HistoryRow.ofJson?_sentHistory (.ofChange change origin previous) hserial horigin
    hprevious
  refine ⟨⟨.ofCheckpoint checkpoint, map_inserted?_insertEach ..,
      checkpointOfJson?_toJson hcheckpoint⟩,
    .ofHistory (.ofChange change origin previous), _, readRecord change origin previous serial,
    map_inserted?_insertEach .., hread, HistoryRow.toRecord_eq _ rfl, readRecord_eq_iff, ?_, ?_⟩
  · rw [toChange_readRecord]
    by_cases hnull : change.fields? = some .null
    · rw [if_pos hnull]
      refine iff_of_false (fun hsame => ?_) (not_not.2 hnull)
      rw [← hsame] at hnull
      cases hnull
    · exact iff_of_true (if_neg hnull) hnull
  · exact fun hnull => by rw [toChange_readRecord, if_pos hnull]

/-! ### A sample -/

/-- A checkpoint within a block, of a chain without an end. -/
def begunCheckpoint : Checkpoint where
  chain := 1
  startBlock := 0
  endBlock := none
  fetched := some 20
  processed := some 9
  position := some ⟨10, 1⟩
  events := 2
  batches := 1
  firstEventBlock := some 10
  caughtUpAt := none
  isLive := false
  isFinished := false

theorem rows_read_back_null :
    begunCheckpoint.FitsColumns ∧ Origin.genesis.FitsColumns ∧
      ∃ written row read,
        (historyStatements [.ofChange (.set ⟨"Account", "a"⟩ .null) ⟨1, 1, 10, 0⟩ .genesis]).map
            Statement.inserted? = [some (historyTable.name, [written])] ∧
          HistoryRow.ofJson? (sentHistory 1 written) = some row ∧
          row.toRecord = .ok read ∧ read.toChange = .delete ⟨"Account", "a"⟩ := by
  have hcheckpoint : begunCheckpoint.FitsColumns := by
    constructor <;> simp [begunCheckpoint, Word.half]
  have hprevious : Origin.genesis.FitsColumns := by
    constructor <;> simp [Origin.genesis, Word.half]
  have hserial : 1 < Word.half := by decide
  have horigin : Origin.FitsColumns ⟨1, 1, 10, 0⟩ := by
    constructor <;> simp [Word.half]
  obtain ⟨-, written, row, read, hwritten, hrow, hread, -, -, hnull⟩ :=
    rows_read_back (.set ⟨"Account", "a"⟩ .null) hserial horigin hprevious hcheckpoint
  exact ⟨hcheckpoint, hprevious, written, row, read, hwritten, hrow, hread, hnull rfl⟩

end Postgres

end ChainIndexer
