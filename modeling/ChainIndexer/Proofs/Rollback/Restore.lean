import ChainIndexer.Proofs.Rollback.Plan
import ChainIndexer.Proofs.Written

/-!
# Taking entities back

The back-reference of the first stale record of an entity leads to its last write that stays. So
planning a rollback never misses a record, and applying it leaves what the writes that stay left.
-/

namespace ChainIndexer

variable {keep : Origin → Bool}

/-- The first stale record of an entity refers back to its last write that stays. -/
theorem previous_of_first_stale {writes : List (EntityChange × Origin)}
    {latest : Table EntityKey Origin} {key : EntityKey} {entry : HistoryEntry}
    (hapart : writes.Pairwise fun a b => keep a.2 = false → keep b.2 = true → a.1.key ≠ b.1.key)
    (h : ((linkHistory latest writes).filter fun entry => !keep entry.origin).find?
      (·.key = key) = some entry) :
    entry.previous =
      (((lastWrite? (writes.filter fun write => keep write.2) key).map (·.2)).or
        (latest.get? key)).getD .genesis := by
  induction writes generalizing latest with
  | nil => cases h
  | cons first rest ih =>
    obtain ⟨hfirst, hrest⟩ := List.pairwise_cons.1 hapart
    have horigin : ∀ previous, (HistoryEntry.ofChange first.1 first.2 previous).origin = first.2 :=
      fun _ => rfl
    have hentryKey : ∀ previous,
        (HistoryEntry.ofChange first.1 first.2 previous).key = first.1.key := fun _ => rfl
    rw [linkHistory, List.filter_cons, horigin] at h
    rw [List.filter_cons]
    by_cases hkeep : keep first.2 = true
    · rw [hkeep, if_neg (by decide)] at h
      rw [if_pos hkeep, lastWrite?_cons, ih hrest h, Table.get?_insert]
      cases lastWrite? (rest.filter fun write => keep write.2) key with
      | some write => rfl
      | none =>
        by_cases hkey : first.1.key = key
        · simp [hkey]
        · simp [hkey, Ne.symm hkey]
    · rw [Bool.not_eq_true] at hkeep
      rw [hkeep, if_pos (by decide), List.find?_cons, hentryKey] at h
      rw [hkeep, if_neg (by decide)]
      by_cases hkey : first.1.key = key
      · have hnone : lastWrite? (rest.filter fun write => keep write.2) key = none := by
          rw [lastWrite?_eq_none_iff]
          intro write hwrite heq
          obtain ⟨hmem, hkept⟩ := List.mem_filter.1 hwrite
          exact hfirst write hmem hkeep hkept (hkey.trans heq.symm)
        simp only [hkey, decide_true] at h
        cases h
        rw [hnone, Option.map_none, Option.none_or]
        rfl
      · simp only [hkey, decide_false] at h
        rw [ih hrest h, Table.get?_insert, if_neg (Ne.symm hkey)]

/-- The change that takes an entity back to the last of some writes. -/
def lastChange (writes : List (EntityChange × Origin)) (key : EntityKey) : EntityChange :=
  ((lastWrite? writes key).map (·.1)).getD (.delete key)

theorem lastChange_key (writes : List (EntityChange × Origin)) (key : EntityKey) :
    (lastChange writes key).key = key := by
  unfold lastChange
  cases hlast : lastWrite? writes key with
  | none => rfl
  | some write => exact (mem_of_lastWrite? hlast).2

namespace Store.Holds

variable {store : Store} {writes : List (EntityChange × Origin)}

theorem restore? (h : store.Holds writes)
    (hnodup : (writes.map fun write => (write.1.key, write.2)).Nodup)
    (hchains : ∀ write ∈ writes, write.2.chain ≠ 0)
    (hapart : writes.Pairwise fun a b => keep a.2 = false → keep b.2 = true → a.1.key ≠ b.1.key)
    {key : EntityKey} {record : HistoryRecord}
    (hfirst : (store.history.filter fun record => !keep record.origin).find? (·.key = key) =
      some record) :
    record.key = key ∧
      store.restore? record = some (lastChange (writes.filter fun write => keep write.2) key) := by
  have hkey : record.key = key := by simpa using List.find?_some hfirst
  have hentry : ((linkHistory .empty writes).filter fun entry => !keep entry.origin).find?
      (·.key = key) = some record.toHistoryEntry := by
    rw [← h.history, List.filter_map, List.find?_map]
    exact congrArg (Option.map HistoryRecord.toHistoryEntry) hfirst
  have hprevious := previous_of_first_stale hapart hentry
  rw [Table.get?_empty, Option.or_none] at hprevious
  refine ⟨hkey, ?_⟩
  rw [Store.restore?, lastChange, hkey]
  cases hlast : lastWrite? (writes.filter fun write => keep write.2) key with
  | none =>
    rw [hlast] at hprevious
    have hgenesis : record.previous.isGenesis = true := by
      rw [hprevious]
      rfl
    rw [if_pos hgenesis]
    rfl
  | some write =>
    rw [hlast] at hprevious
    obtain ⟨hwrite, hwriteKey⟩ := mem_of_lastWrite? hlast
    obtain ⟨hmem, _⟩ := List.mem_filter.1 hwrite
    have hprev : record.previous = write.2 := hprevious
    have hgenesis : ¬ record.previous.isGenesis = true := by
      rw [hprev]
      exact fun hzero => hchains write hmem (of_decide_eq_true hzero)
    obtain ⟨found, hfound, hchange⟩ := h.recordAt hnodup hmem
    rw [if_neg hgenesis, hprev, ← hwriteKey, hfound, Option.map_some, hchange]
    rfl

theorem restored_entities (h : store.Holds writes) {stale : Table EntityKey HistoryRecord}
    (hstale : ∀ key, stale.get? key =
      (store.history.filter fun record => !keep record.origin).find? (·.key = key)) :
    applyChanges store.entities (stale.entries.map fun entry =>
        lastChange (writes.filter fun write => keep write.2) entry.1) =
      applyChanges .empty ((writes.filter fun write => keep write.2).map (·.1)) := by
  refine Table.ext_get? fun key => ?_
  rw [get?_applyChanges_entries (fun entry _ => lastChange_key _ entry.1), get?_applyChanges]
  cases hfound : stale.get? key with
  | some record =>
    rw [Option.elim_some, lastChange]
    cases lastWrite? (writes.filter fun write => keep write.2) key <;> rfl
  | none =>
    rw [hstale, List.find?_eq_none] at hfound
    rw [Option.elim_none, h.entities, get?_applyChanges, lastWrite?_filter]
    intro write hwrite hkey
    have hpair : (write.1.key, write.2) ∈
        store.history.map fun record => (record.key, record.origin) := by
      rw [h.history_keys]
      exact List.mem_map.2 ⟨write, hwrite, rfl⟩
    obtain ⟨record, hrecord, heq⟩ := List.mem_map.1 hpair
    obtain ⟨hrecordKey, hrecordOrigin⟩ := Prod.mk.inj heq
    refine Bool.of_not_eq_false fun hgone => ?_
    refine hfound record (List.mem_filter.2 ⟨hrecord, ?_⟩) ?_
    · rw [hrecordOrigin, hgone]
      rfl
    · exact decide_eq_true (hrecordKey.trans hkey)

end Store.Holds

namespace RollbackPlan

variable {mode : Mode} {reorg : Reorg} {store : Store} {writes : List (EntityChange × Origin)}

/-- What a reorg leaves valid. -/
def keeps (mode : Mode) (reorg : Reorg) (origin : Origin) : Bool :=
  !(RollbackScope.ofReorg mode reorg).invalidatesOrigin origin

theorem keeps_eq_false {origin : Origin} :
    keeps mode reorg origin = false ↔
      (RollbackScope.ofReorg mode reorg).invalidatesOrigin origin = true := by
  rw [keeps, Bool.not_eq_false']

theorem keeps_eq_true {origin : Origin} :
    keeps mode reorg origin = true ↔
      (RollbackScope.ofReorg mode reorg).invalidatesOrigin origin = false := by
  rw [keeps, Bool.not_eq_true']

theorem get?_earliest (records : List HistoryRecord) (key : EntityKey) :
    (earliest records).get? key = records.find? (·.key = key) := by
  have hfound := Table.get?_foldl_insertNew records (fun record => record.key) id .empty key
  rw [Table.get?_empty, Option.none_or, Option.map_id_apply] at hfound
  exact hfound

/-- Planning a rollback succeeds if no write that stays follows a stale write of its entity, and
applying the plan leaves the writes that stay. -/
theorem applyRollback_holds (tracker : Tracker) (h : store.Holds writes)
    (hnodup : (writes.map fun write => (write.1.key, write.2)).Nodup)
    (hchains : ∀ write ∈ writes, write.2.chain ≠ 0)
    (hapart : writes.Pairwise fun a b =>
      keeps mode reorg a.2 = false → keeps mode reorg b.2 = true → a.1.key ≠ b.1.key) :
    ∃ plan, make Repo.inMemory mode reorg tracker store = (.ok plan, store) ∧
      plan.scope = .ofReorg mode reorg ∧
      (store.applyRollback plan).Holds (writes.filter fun write => keeps mode reorg write.2) := by
  have hstale : ∀ key, (earliest (store.historyIn (.ofReorg mode reorg))).get? key =
      (store.history.filter fun record => !keeps mode reorg record.origin).find? (·.key = key) := by
    intro key
    rw [get?_earliest, Store.historyIn]
    simp only [keeps, Bool.not_not]
  have hrestore : ∀ entry ∈ (earliest (store.historyIn (.ofReorg mode reorg))).entries,
      entry.2.key = entry.1 ∧ store.restore? entry.2 =
        some (lastChange (writes.filter fun write => keeps mode reorg write.2) entry.1) := by
    intro entry hentry
    have hfirst := Table.mem_entries_iff.1 hentry
    rw [hstale] at hfirst
    exact h.restore? hnodup hchains hapart hfirst
  refine ⟨_, make_inMemory hrestore, rfl, h.restored_entities hstale, ?_⟩
  have hlinked := linkHistory_filter hapart (a := .empty) (b := .empty) fun _ _ _ => rfl
  rw [← h.history] at hlinked
  rw [hlinked, List.filter_map]
  rfl

end RollbackPlan

end ChainIndexer
