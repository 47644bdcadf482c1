import ChainIndexer.Postgres.Row
import ChainIndexer.Postgres.Schema
import ChainIndexer.Proofs.Words
import ChainIndexer.Proofs.Written

/-!
# Records of one entity from one event

A store in memory takes a unit unless two history records of one entity would have one origin. An
event is its chain, block and log index, which is all that the unique index of a database compares;
an origin has the time of the block besides. So the two agree on a unit unless it brings an event
again under another time.
-/

namespace ChainIndexer

namespace HistoryEntry

/-- What a store in memory compares. -/
def source (entry : HistoryEntry) : EntityKey × Origin := (entry.key, entry.origin)

/-- An entity, and the event that changed it. -/
def identity (entry : HistoryEntry) : EntityKey × ChainId × Nat × Nat :=
  (entry.key, entry.origin.chain, entry.origin.block, entry.origin.logIndex)

/-- Whether entries of one entity and one event have one time. -/
def AgreeOnTime (entries : List HistoryEntry) : Prop :=
  ∀ a ∈ entries, ∀ b ∈ entries, a.identity = b.identity → a.origin.timestamp = b.origin.timestamp

theorem source_eq_iff {a b : HistoryEntry} :
    a.source = b.source ↔
      a.identity = b.identity ∧ a.origin.timestamp = b.origin.timestamp := by
  simp only [source, identity, Prod.mk.injEq]
  constructor
  · rintro ⟨hkey, horigin⟩
    simp [hkey, horigin]
  · rintro ⟨⟨hkey, hchain, hblock, hlog⟩, htime⟩
    refine ⟨hkey, ?_⟩
    cases ha : a.origin
    cases hb : b.origin
    simp_all

theorem nodup_identity_iff {entries : List HistoryEntry} :
    (entries.map identity).Nodup ↔ (entries.map source).Nodup ∧ AgreeOnTime entries := by
  constructor
  · intro hnodup
    refine ⟨?_, fun a ha b hb hsame => ?_⟩
    · rw [List.Nodup, List.pairwise_map] at hnodup ⊢
      exact hnodup.imp fun hne hsource => hne (source_eq_iff.1 hsource).1
    · rw [List.inj_on_of_nodup_map hnodup ha hb hsame]
  · rintro ⟨hnodup, htimes⟩
    refine List.Nodup.map_on (fun a ha b hb hsame => ?_) hnodup.of_map
    exact List.inj_on_of_nodup_map hnodup ha hb
      (source_eq_iff.2 ⟨hsame, htimes a ha b hb hsame⟩)

end HistoryEntry

/-! ### The unique index -/

namespace Postgres

/-- The columns of a row that an index compares. -/
def Index.keyOf (index : Index) (row : Row) : List (Option Value) :=
  index.columns.map fun column => row.lookup column

/-- Whether the unique indexes of a table let some rows stand in it together. -/
def TableSchema.Accepts (table : TableSchema) (rows : List Row) : Prop :=
  ∀ index ∈ table.indexes, index.isUnique = true → (rows.map index.keyOf).Nodup

end Postgres

/-- Whether the numbers by which an index knows an event fit their columns. -/
structure Origin.FitsIndex (origin : Origin) : Prop where
  chain : origin.chain < Word.count
  block : origin.block < Word.count
  logIndex : origin.logIndex < Word.count

namespace Postgres

/-- The unique index of the history: an entity and an event. -/
def historyIdentity : Index :=
  ⟨"multidexing_entity_history_identity_index", true,
    ["entity_kind", "entity_id", "chain_id", "block_number", "log_index"]⟩

theorem historyTable_accepts {rows : List Row} :
    historyTable.Accepts rows ↔ (rows.map historyIdentity.keyOf).Nodup := by
  simp [TableSchema.Accepts, historyTable, historyIdentity]

theorem keyOf_ofHistory (entry : HistoryEntry) :
    historyIdentity.keyOf (.ofHistory entry) =
      [some (.text entry.key.kind), some (.text entry.key.id), some (.word entry.origin.chain),
        some (.word entry.origin.block), some (.word entry.origin.logIndex)] := by
  simp [Index.keyOf, historyIdentity, Row.ofHistory, List.lookup_cons]

theorem keyOf_ofHistory_eq_iff {a b : HistoryEntry} (ha : a.origin.FitsIndex)
    (hb : b.origin.FitsIndex) :
    historyIdentity.keyOf (.ofHistory a) = historyIdentity.keyOf (.ofHistory b) ↔
      a.identity = b.identity := by
  have hkey : a.key = b.key ↔ a.key.kind = b.key.kind ∧ a.key.id = b.key.id := by
    cases a.key
    cases b.key
    simp
  rw [keyOf_ofHistory, keyOf_ofHistory]
  simp [Value.word, Word.toSigned_inj ha.chain hb.chain, Word.toSigned_inj ha.block hb.block,
    Word.toSigned_inj ha.logIndex hb.logIndex, HistoryEntry.identity, hkey, and_assoc]

theorem historyTable_accepts_iff {entries : List HistoryEntry}
    (h : ∀ entry ∈ entries, entry.origin.FitsIndex) :
    historyTable.Accepts (entries.map Row.ofHistory) ↔
      (entries.map HistoryEntry.identity).Nodup := by
  rw [historyTable_accepts, List.map_map, List.Nodup, List.Nodup, List.pairwise_map,
    List.pairwise_map]
  exact List.Pairwise.iff_of_mem fun ha hb =>
    not_congr (keyOf_ofHistory_eq_iff (h _ ha) (h _ hb))

end Postgres

/-! ### Stores that any units are committed to -/

namespace Store

/-- A store, empty at first, that units were committed to or refused, plans applied to, and chains
pruned in, whatever the units, plans and bounds. -/
inductive Reached : Store → Prop
  | empty : Reached .empty
  | commit {store : Store} (before : Reached store) (unit : WriteUnit) :
      Reached (Repo.inMemory.commit unit store).2
  | applyRollback {store : Store} (before : Reached store) (plan : RollbackPlan) :
      Reached (Repo.inMemory.applyRollback plan store).2
  | prune {store : Store} (before : Reached store) (chain : ChainId) (minBlock : Nat) :
      Reached (Repo.inMemory.prune chain minBlock store).2

/-- The records of a store, without their places in the order of all changes. -/
def entries (store : Store) : List HistoryEntry := store.history.map (·.toHistoryEntry)

theorem write_entries (store : Store) (unit : WriteUnit) :
    (store.write unit).entries = store.entries ++ unit.history := by
  rw [entries, write, List.map_append, number_entries]
  rfl

/-- A conflict is with an earlier record or an earlier entry of the unit; the entries before it are
free of conflicts. -/
theorem firstConflict_eq_some {taken : List (EntityKey × Origin)} {entries : List HistoryEntry}
    {entry : HistoryEntry} (h : firstConflict taken entries = some entry) :
    ∃ before after, entries = before ++ entry :: after ∧
      entry.source ∈ taken ++ before.map HistoryEntry.source := by
  induction entries generalizing taken with
  | nil => cases h
  | cons first rest ih =>
    rw [firstConflict] at h
    split at h
    next hmem =>
      cases h
      exact ⟨[], rest, rfl, List.mem_append_left _ hmem⟩
    next =>
      obtain ⟨before, after, rfl, hmem⟩ := ih h
      refine ⟨first :: before, after, rfl, ?_⟩
      rcases List.mem_append.1 hmem with htaken | hbefore
      · rcases List.mem_cons.1 htaken with heq | hold
        · exact List.mem_append_right _ (heq ▸ List.mem_cons_self)
        · exact List.mem_append_left _ hold
      · exact List.mem_append_right _ (List.mem_cons_of_mem _ hbefore)

theorem entries_map_source (store : Store) :
    store.entries.map HistoryEntry.source =
      store.history.map fun record => (record.key, record.origin) := by
  rw [entries, List.map_map]
  rfl

/-- A unit is written as a whole unless one of its entries comes from the event of an earlier record
of its entity, in the store or in the unit. -/
theorem commit_cases (store : Store) (unit : WriteUnit) :
    (∃ before entry after, unit.history = before ++ entry :: after ∧
        entry.source ∈ (store.entries ++ before).map HistoryEntry.source ∧
        store.commit unit = .error (.conflict (.duplicateRecord entry.key entry.origin))) ∨
      (unit.history.map HistoryEntry.source).Nodup ∧
        (∀ entry ∈ unit.history, entry.source ∉ store.entries.map HistoryEntry.source) ∧
        store.commit unit = .ok (store.write unit) := by
  cases hconflict : firstConflict (store.history.map fun record => (record.key, record.origin))
      unit.history with
  | none =>
    obtain ⟨hnew, hnodup⟩ := firstConflict_eq_none_iff.1 hconflict
    refine Or.inr ⟨hnodup, store.entries_map_source ▸ hnew, ?_⟩
    rw [commit, hconflict]
  | some entry =>
    obtain ⟨before, after, hunit, hmem⟩ := firstConflict_eq_some hconflict
    refine Or.inl ⟨before, entry, after, hunit, ?_, by rw [commit, hconflict]⟩
    rw [List.map_append, entries_map_source]
    exact hmem

theorem commit_eq_ok_of_nodup {store : Store} {unit : WriteUnit}
    (h : ((store.entries ++ unit.history).map HistoryEntry.source).Nodup) :
    store.commit unit = .ok (store.write unit) := by
  rw [List.map_append, entries_map_source] at h
  rw [commit, (firstConflict_eq_none_iff_nodup h.of_append_left).2 h]

theorem commit_eq_error_of_not_nodup {store : Store} {unit : WriteUnit}
    (hstore : (store.entries.map HistoryEntry.source).Nodup)
    (h : ¬ ((store.entries ++ unit.history).map HistoryEntry.source).Nodup) :
    ∃ before entry after, unit.history = before ++ entry :: after ∧
      entry.source ∈ (store.entries ++ before).map HistoryEntry.source ∧
      store.commit unit = .error (.conflict (.duplicateRecord entry.key entry.origin)) := by
  rcases store.commit_cases unit with hrefused | ⟨hunit, hnew, -⟩
  · exact hrefused
  · refine absurd ?_ h
    rw [List.map_append, entries_map_source] at *
    exact (firstConflict_eq_none_iff_nodup hstore).1 (firstConflict_eq_none_iff.2 ⟨hnew, hunit⟩)

theorem inMemory_commit_of_eq_ok {store after : Store} {unit : WriteUnit}
    (h : store.commit unit = .ok after) : Repo.inMemory.commit unit store = (.ok (), after) := by
  simp only [Repo.inMemory, h]

theorem inMemory_commit_of_eq_error {store : Store} {unit : WriteUnit} {error : RepoError}
    (h : store.commit unit = .error error) :
    Repo.inMemory.commit unit store = (.error error, store) := by
  simp only [Repo.inMemory, h]

/-- Neither a commit nor a rollback nor pruning makes two records of one entity and one origin. -/
theorem Reached.nodup {store : Store} (h : store.Reached) :
    (store.entries.map HistoryEntry.source).Nodup := by
  have hfilter : ∀ (store after : Store) (keep : HistoryRecord → Bool),
      after.history = store.history.filter keep → (store.entries.map HistoryEntry.source).Nodup →
        (after.entries.map HistoryEntry.source).Nodup := by
    intro store after keep hafter hnodup
    rw [entries, hafter]
    exact hnodup.sublist ((List.filter_sublist.map _).map _)
  induction h with
  | empty => exact List.nodup_nil
  | @commit store before unit ih =>
    by_cases hunit : ((store.entries ++ unit.history).map HistoryEntry.source).Nodup
    · rw [inMemory_commit_of_eq_ok (commit_eq_ok_of_nodup hunit), write_entries]
      exact hunit
    · obtain ⟨_, _, _, _, _, herror⟩ := commit_eq_error_of_not_nodup ih hunit
      rw [inMemory_commit_of_eq_error herror]
      exact ih
  | applyRollback before plan ih => exact hfilter _ _ _ rfl ih
  | prune before chain minBlock ih => exact hfilter _ _ _ rfl ih

/-- No two records of one entity come from one event exactly as long as records of one entity and
event agree on the time of its block. Likewise a unit that is committed leaves the history free of
such pairs, as the unique index asks, exactly if the times agree; a refused unit would have made a
pair, is answered with the entry that does, and changes nothing. -/
theorem Reached.one_record_iff {store : Store} (h : store.Reached) (unit : WriteUnit) :
    ((store.entries.map HistoryEntry.identity).Nodup ↔ HistoryEntry.AgreeOnTime store.entries) ∧
      (Repo.inMemory.commit unit store = (.ok (), store.write unit) ∧
          (((store.entries ++ unit.history).map HistoryEntry.identity).Nodup ↔
            HistoryEntry.AgreeOnTime (store.entries ++ unit.history)) ∨
        (∃ before entry after, unit.history = before ++ entry :: after ∧
            entry.source ∈ (store.entries ++ before).map HistoryEntry.source ∧
            Repo.inMemory.commit unit store =
              (.error (.conflict (.duplicateRecord entry.key entry.origin)), store)) ∧
          ¬ ((store.entries ++ unit.history).map HistoryEntry.identity).Nodup) ∧
      ((∀ entry ∈ store.entries ++ unit.history, entry.origin.FitsIndex) →
        (Postgres.historyTable.Accepts ((store.entries ++ unit.history).map .ofHistory) ↔
          ((store.entries ++ unit.history).map HistoryEntry.identity).Nodup)) := by
  refine ⟨?_, ?_, Postgres.historyTable_accepts_iff⟩
  · rw [HistoryEntry.nodup_identity_iff, and_iff_right h.nodup]
  · rw [HistoryEntry.nodup_identity_iff]
    by_cases hunit : ((store.entries ++ unit.history).map HistoryEntry.source).Nodup
    · have hcommit := inMemory_commit_of_eq_ok (commit_eq_ok_of_nodup hunit)
      exact Or.inl ⟨hcommit, and_iff_right hunit⟩
    · obtain ⟨before, entry, after, hhistory, hmem, herror⟩ :=
        commit_eq_error_of_not_nodup h.nodup hunit
      have hcommit := inMemory_commit_of_eq_error herror
      exact Or.inr ⟨⟨before, entry, after, hhistory, hmem, hcommit⟩, fun hboth => hunit hboth.1⟩

end Store

/-- One record, of the event with log index 0 in block 10, which has a given time. -/
def WriteUnit.recordedAt (timestamp : Nat) : WriteUnit where
  rawEvents := []
  changes := []
  history := [⟨⟨"Balance", "0xA"⟩, .delete, none, ⟨1, 10, timestamp, 0⟩, .genesis⟩]
  registrations := []
  checkpoints := []
  blocks := []

namespace Store

/-- The event comes again with another time: a store in memory takes its record, an index does
not. -/
theorem one_record_iff_redated :
    ∃ store : Store, store.Reached ∧ (store.entries.map HistoryEntry.identity).Nodup ∧
      Repo.inMemory.commit (.recordedAt 105) store = (.ok (), store.write (.recordedAt 105)) ∧
      ¬ Postgres.historyTable.Accepts
        ((store.entries ++ (WriteUnit.recordedAt 105).history).map .ofHistory) := by
  let store := (Repo.inMemory.commit (.recordedAt 100) .empty).2
  have hreached : store.Reached := .commit .empty _
  have hstored : HistoryEntry.AgreeOnTime store.entries := by
    unfold HistoryEntry.AgreeOnTime
    decide
  have htimes :
      ¬ HistoryEntry.AgreeOnTime (store.entries ++ (WriteUnit.recordedAt 105).history) := by
    unfold HistoryEntry.AgreeOnTime
    decide
  have hfits : ∀ entry ∈ store.entries ++ (WriteUnit.recordedAt 105).history,
      entry.origin.FitsIndex := by
    intro entry hentry
    have hbounds :
        entry.origin.chain = 1 ∧ entry.origin.block = 10 ∧ entry.origin.logIndex = 0 := by
      revert entry
      decide
    constructor <;> simp [hbounds, Word.count]
  obtain ⟨hidentity, hcommit, hindex⟩ := hreached.one_record_iff (.recordedAt 105)
  refine ⟨store, hreached, hidentity.2 hstored, ?_⟩
  rw [hindex hfits]
  rcases hcommit with ⟨hcommit, hpair⟩ | ⟨hrefused, -⟩
  · exact ⟨hcommit, fun hnodup => htimes (hpair.1 hnodup)⟩
  · obtain ⟨before, entry, after, -, -, hrefused⟩ := hrefused
    have hdone : (Repo.inMemory.commit (.recordedAt 105) store).1 = .ok () := by rfl
    rw [hrefused] at hdone
    cases hdone

end Store

end ChainIndexer
