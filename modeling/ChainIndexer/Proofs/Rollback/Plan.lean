import ChainIndexer.Proofs.Call
import ChainIndexer.Proofs.Table
import ChainIndexer.Repo.Store
import ChainIndexer.Rollback.Planner

/-!
# What a rollback plan holds

The plan for a store in memory, read off the store: the change that takes each entity back, how far
each chain goes back, and the checkpoints that follow from that.
-/

namespace ChainIndexer

/-- Whether each checkpoint stands under its own chain. -/
def Tracker.Keyed (tracker : Tracker) : Prop :=
  ∀ chain checkpoint, tracker.get? chain = some checkpoint → checkpoint.chain = chain

theorem Tracker.startAll_keyed (chains : List Chain) {stored : Table ChainId Checkpoint}
    (h : ∀ chain checkpoint, stored.get? chain = some checkpoint → checkpoint.chain = chain) :
    ∀ entry ∈ startAll chains stored, entry.2.chain = entry.1 := by
  induction chains generalizing stored with
  | nil => exact fun _ hentry => absurd hentry List.not_mem_nil
  | cons chain rest ih =>
    refine List.forall_mem_cons.2 ⟨?_, ih fun other checkpoint hget => ?_⟩
    · dsimp only
      split
      next checkpoint hget => exact h chain.id checkpoint hget
      next => rfl
    · rw [Table.get?_erase] at hget
      split at hget
      next => cases hget
      next => exact h other checkpoint hget

/-- Each checkpoint stands under its own chain when a tracker starts, whatever was stored, and when
checkpoints are replaced. -/
theorem Tracker.start_keyed (chains : List Chain) (stored : List Checkpoint) :
    (start chains stored).Keyed := by
  intro chain checkpoint hget
  have hentry := (Table.mem_of_get?_insertAll hget).resolve_right (fun hnone => nomatch hnone)
  refine startAll_keyed chains (fun other found hfound => ?_) _ hentry
  have hmem := (Table.mem_of_get?_insertAll hfound).resolve_right (fun hnone => nomatch hnone)
  obtain ⟨kept, -, heq⟩ := List.mem_map.1 hmem
  cases heq
  rfl

theorem Tracker.Keyed.replace {tracker : Tracker} (h : tracker.Keyed)
    (checkpoints : List Checkpoint) : (tracker.replace checkpoints).Keyed := by
  intro chain checkpoint hget
  rcases Table.mem_of_get?_insertAll hget with hnew | hold
  · obtain ⟨kept, -, heq⟩ := List.mem_map.1 hnew
    cases heq
    rfl
  · exact h chain checkpoint hold

namespace Store

/-- The change that takes an entity back to before a record, if the record before it is there. -/
def restore? (store : Store) (record : HistoryRecord) : Option EntityChange :=
  if record.previous.isGenesis then some (.delete record.key)
  else (store.recordAt record.key record.previous).map (·.toChange)

/-- How far each chain goes back. -/
def rewinds (store : Store) (scope : RollbackScope) (reorg : Reorg) (tracker : Tracker) :
    List Rewind :=
  ⟨reorg.chain, min (tracker.processed reorg.chain) (some reorg.safeBlock.number)⟩ ::
    match scope with
    | .chain _ _ => []
    | .global _ _ _ =>
      RollbackPlan.otherRewinds tracker reorg.chain (store.firstInvalidatedBlocks scope)

theorem get?_foldl_dropRewound (rewinds : List Rewind) (table : Table BlockKey Block)
    (key : BlockKey) :
    (rewinds.foldl dropRewound table).get? key = (table.get? key).filter fun _ =>
      rewinds.all fun rewind => key.chain ≠ rewind.chain ∨ rewind.block.any (key.number ≤ ·) := by
  induction rewinds generalizing table with
  | nil =>
    rw [List.foldl_nil]
    cases table.get? key <;> rfl
  | cons first rest ih =>
    rw [List.foldl_cons, ih, dropRewound, Table.get?_filter, Option.filter_filter]
    simp only [List.all_cons]

end Store

namespace RollbackPlan

theorem restore_inMemory {key : EntityKey} {record : HistoryRecord} {store : Store}
    {change : EntityChange} (hkey : record.key = key) (h : store.restore? record = some change) :
    restore Repo.inMemory key record store = (.ok change, store) := by
  subst hkey
  rw [Store.restore?] at h
  rw [restore]
  split at h
  next hgenesis =>
    rw [if_pos hgenesis, ← Option.some.inj h]
    rfl
  next hgenesis =>
    obtain ⟨previous, hprevious, rfl⟩ := Option.map_eq_some_iff.1 h
    have hcall : Repo.inMemory.recordAt record.key record.previous store =
        (.ok (some previous), store) := by
      rw [← hprevious]
      rfl
    rw [if_neg hgenesis, Call.bind_apply, hcall]
    rfl

theorem restore_state (key : EntityKey) (record : HistoryRecord) (store : Store) :
    (restore Repo.inMemory key record store).2 = store := by
  rw [restore]
  split
  next => rfl
  next =>
    have hcall : Repo.inMemory.recordAt key record.previous store =
        (.ok (store.recordAt key record.previous), store) := rfl
    rw [Call.bind_apply, hcall]
    dsimp only
    cases store.recordAt key record.previous <;> rfl

theorem rewindsFor_inMemory (scope : RollbackScope) (reorg : Reorg) (tracker : Tracker)
    (store : Store) :
    rewindsFor Repo.inMemory scope reorg tracker store =
      (.ok (store.rewinds scope reorg tracker), store) := by
  cases scope <;> rfl

variable {mode : Mode} {reorg : Reorg} {tracker : Tracker} {store : Store}

theorem make_inMemory {restored : EntityKey × HistoryRecord → EntityChange}
    (h : ∀ entry ∈ (earliest (store.historyIn (.ofReorg mode reorg))).entries,
      entry.2.key = entry.1 ∧ store.restore? entry.2 = some (restored entry)) :
    make Repo.inMemory mode reorg tracker store =
      (.ok
        { scope := .ofReorg mode reorg
          restores := (earliest (store.historyIn (.ofReorg mode reorg))).entries.map restored
          rewinds := store.rewinds (.ofReorg mode reorg) reorg tracker
          checkpoints := tracker.rewound (store.rewinds (.ofReorg mode reorg) reorg tracker) },
        store) := by
  have hhistory : Repo.inMemory.historyIn (.ofReorg mode reorg) store =
      (.ok (store.historyIn (.ofReorg mode reorg)), store) := rfl
  have hrestores := Call.mapM_apply
    (fun entry => restore Repo.inMemory entry.1 entry.2) store
    fun entry hentry => restore_inMemory (h entry hentry).1 (h entry hentry).2
  rw [make, Call.bind_apply, hhistory]
  dsimp only
  rw [Call.bind_apply, hrestores]
  dsimp only
  rw [Call.bind_apply, rewindsFor_inMemory]
  rfl

/-- Planning reads the store and leaves it alone. -/
theorem make_eq_ok {plan : RollbackPlan} {after : Store}
    (h : make Repo.inMemory mode reorg tracker store = (.ok plan, after)) :
    after = store ∧ plan.scope = .ofReorg mode reorg ∧
      plan.rewinds = store.rewinds (.ofReorg mode reorg) reorg tracker ∧
      plan.checkpoints = tracker.rewound plan.rewinds := by
  obtain ⟨records, afterHistory, hhistory, h⟩ := Call.bind_eq_ok h
  cases hhistory
  obtain ⟨restores, afterRestores, hrestores, h⟩ := Call.bind_eq_ok h
  have hstate : afterRestores = store := by
    have hkept := Call.mapM_state (fun entry => restore Repo.inMemory entry.1 entry.2) store
      fun entry (_ : entry ∈ (earliest (store.historyIn (.ofReorg mode reorg))).entries) =>
        restore_state entry.1 entry.2 store
    rwa [hrestores] at hkept
  obtain ⟨rewinds, afterRewinds, hrewinds, h⟩ := Call.bind_eq_ok h
  rw [hstate, rewindsFor_inMemory] at hrewinds
  cases hrewinds
  cases h
  exact ⟨rfl, rfl, rfl, rfl⟩

theorem eq_of_make {plan : RollbackPlan} {after : Store}
    (h : make Repo.inMemory mode reorg tracker store = (.ok plan, after)) :
    plan.scope = .ofReorg mode reorg ∧
      plan.rewinds = store.rewinds (.ofReorg mode reorg) reorg tracker ∧
      plan.checkpoints = tracker.rewound plan.rewinds := (make_eq_ok h).2

end RollbackPlan

/-! ### Samples -/

/-- An event at a place of a chain whose blocks are ten seconds apart. -/
def Event.placed (chain : ChainId) (block logIndex : Nat) : Event :=
  { (default : Event) with
    chain := chain, block := block, timestamp := 10 * block, logIndex := logIndex }

/-- A reorg of such a chain. -/
def Reorg.placed (chain : ChainId) (safeBlock : Nat) : Reorg :=
  ⟨chain, ⟨safeBlock, "", "", 10 * safeBlock⟩⟩

end ChainIndexer
