import ChainIndexer.Proofs.Integrity
import ChainIndexer.Proofs.Uniqueness

/-!
# Serials of history records

A store in memory writes all parts of a unit or none of them, and gives the records of a unit the
serials after the last one given. Rolling back and pruning take records away, but no serial is given
again, so the history stays in the order of serials.
-/

namespace ChainIndexer

/-- A call that writes to a store. -/
inductive StoreCall where
  | commit (unit : WriteUnit)
  | applyRollback (plan : RollbackPlan)
  | prune (chain : ChainId) (minBlock : Nat)

/-- What a call leaves of a store in memory, whatever it answers. -/
def StoreCall.run (store : Store) : StoreCall → Store
  | .commit unit => (Repo.inMemory.commit unit store).2
  | .applyRollback plan => (Repo.inMemory.applyRollback plan store).2
  | .prune chain minBlock => (Repo.inMemory.prune chain minBlock store).2

namespace Store

/-- A store after some calls. -/
def after (store : Store) (calls : List StoreCall) : Store := calls.foldl StoreCall.run store

/-- A store that is reset, after some calls. -/
def sinceReset (store : Store) (calls : List StoreCall) : Store :=
  (Repo.inMemory.reset store).2.after calls

/-- Whether a store holds all that a unit writes, and beyond it just what was there before. Of
several changes, checkpoints or blocks under one key the last one counts, of registrations the
first. -/
structure Applies (before : Store) (unit : WriteUnit) (after : Store) : Prop where
  rawEvents : after.rawEvents = before.rawEvents ++ unit.rawEvents
  entities : ∀ key, after.entities.get? key =
    (unit.changes.reverse.find? (·.key = key)).elim (before.entities.get? key) (·.fields?)
  registrations : ∀ key, after.registrations.get? key =
    (before.registrations.get? key).or (unit.registrations.find? (·.key = key))
  checkpoints : ∀ chain, after.checkpoints.get? chain =
    (unit.checkpoints.reverse.find? (·.chain = chain)).or (before.checkpoints.get? chain)
  blocks : ∀ key, after.blocks.get? key =
    ((unit.blocks.reverse.find? fun recorded =>
      (⟨recorded.chain, recorded.block.number⟩ : BlockKey) = key).map (·.block)).or
      (before.blocks.get? key)
  history : ∃ added, after.history = before.history ++ added ∧
    added.map (·.toHistoryEntry) = unit.history ∧
    added.map (·.serial) = List.range' (before.lastSerial + 1) unit.history.length
  lastSerial : after.lastSerial = before.lastSerial + unit.history.length
  resetCount : after.resetCount = before.resetCount

/-- Whether the records are in the order of their serials, all of them given already. -/
structure Numbered (store : Store) : Prop where
  ordered : store.history.Pairwise (·.serial < ·.serial)
  given : ∀ record ∈ store.history, record.serial ≤ store.lastSerial

/-- Whether the records of a later store were there before, or got serials since. -/
structure Precedes (earlier later : Store) : Prop where
  lastSerial : earlier.lastSerial ≤ later.lastSerial
  history : ∀ record ∈ later.history,
    record ∈ earlier.history ∨ earlier.lastSerial < record.serial

variable {store earlier later last : Store} {unit : WriteUnit}

/-! ### What a unit writes -/

theorem applies_write (store : Store) (unit : WriteUnit) :
    store.Applies unit (store.write unit) where
  rawEvents := rfl
  entities := get?_applyChanges_last store.entities unit.changes
  registrations key := by
    have hnew := Table.get?_foldl_insertNew unit.registrations Registration.key id
      store.registrations key
    rwa [Option.map_id] at hnew
  checkpoints chain := by
    have hput := Table.get?_insertAll_map store.checkpoints unit.checkpoints Checkpoint.chain id
      chain
    rwa [Option.map_id] at hput
  blocks := Table.get?_insertAll_map store.blocks unit.blocks _ _
  history := ⟨number store.lastSerial unit.history, rfl, number_entries .., number_map_serial ..⟩
  lastSerial := rfl
  resetCount := rfl

/-! ### Single calls -/

/-- A call takes records away, or writes a unit. -/
theorem run_cases (store : Store) (call : StoreCall) :
    (call.run store).history.Sublist store.history ∧
        (call.run store).lastSerial = store.lastSerial ∨
      ∃ unit, call.run store = store.write unit := by
  cases call with
  | commit unit =>
    rw [StoreCall.run]
    rcases store.commit_cases unit with ⟨_, _, _, _, _, hrefused⟩ | ⟨_, _, hdone⟩
    · rw [inMemory_commit_of_eq_error hrefused]
      exact Or.inl ⟨List.Sublist.refl _, rfl⟩
    · rw [inMemory_commit_of_eq_ok hdone]
      exact Or.inr ⟨unit, rfl⟩
  | applyRollback plan => exact Or.inl ⟨List.filter_sublist, rfl⟩
  | prune chain minBlock => exact Or.inl ⟨List.filter_sublist, rfl⟩

theorem Numbered.run (h : store.Numbered) (call : StoreCall) : (call.run store).Numbered := by
  rcases store.run_cases call with ⟨hkept, hlast⟩ | ⟨unit, hwritten⟩
  · refine ⟨h.ordered.sublist hkept, fun record hrecord => ?_⟩
    rw [hlast]
    exact h.given record (hkept.subset hrecord)
  · obtain ⟨hordered, hgiven⟩ := number_continues h.ordered h.given unit.history
    rw [hwritten]
    exact ⟨hordered, hgiven⟩

theorem precedes_run (store : Store) (call : StoreCall) : store.Precedes (call.run store) := by
  rcases store.run_cases call with ⟨hkept, hlast⟩ | ⟨unit, hwritten⟩
  · exact ⟨hlast.ge, fun record hrecord => Or.inl (hkept.subset hrecord)⟩
  · rw [hwritten]
    refine ⟨Nat.le_add_right _ _, fun record hrecord => ?_⟩
    refine (List.mem_append.1 hrecord).imp_right fun hnew => ?_
    exact ((number_serials _ unit.history).2 record hnew).1

/-! ### Runs of calls -/

theorem Precedes.refl (store : Store) : store.Precedes store :=
  ⟨Nat.le_refl _, fun _ hrecord => Or.inl hrecord⟩

theorem Precedes.trans (h : earlier.Precedes later) (h' : later.Precedes last) :
    earlier.Precedes last := by
  refine ⟨h.lastSerial.trans h'.lastSerial, fun record hrecord => ?_⟩
  rcases h'.history record hrecord with hlater | hsince
  · exact h.history record hlater
  · exact Or.inr (Nat.lt_of_le_of_lt h.lastSerial hsince)

theorem Numbered.after (h : store.Numbered) (calls : List StoreCall) :
    (store.after calls).Numbered := by
  induction calls generalizing store with
  | nil => exact h
  | cons call rest ih => exact ih (h.run call)

theorem precedes_after (store : Store) (calls : List StoreCall) :
    store.Precedes (store.after calls) := by
  induction calls generalizing store with
  | nil => exact .refl store
  | cons call rest ih => exact (store.precedes_run call).trans (ih _)

theorem numbered_sinceReset (store : Store) (calls : List StoreCall) :
    (store.sinceReset calls).Numbered :=
  Numbered.after ⟨.nil, fun _ hrecord => absurd hrecord List.not_mem_nil⟩ calls

theorem sinceReset_precedes (store : Store) {earlier calls : List StoreCall}
    (h : earlier <+: calls) : (store.sinceReset earlier).Precedes (store.sinceReset calls) := by
  obtain ⟨rest, rfl⟩ := h
  rw [sinceReset, sinceReset, after, after, List.foldl_append]
  exact precedes_after _ rest

theorem Numbered.eq_of_serial_eq (h : store.Numbered) {a b : HistoryRecord}
    (ha : a ∈ store.history) (hb : b ∈ store.history) (hserial : a.serial = b.serial) : a = b := by
  have hnodup : (store.history.map (·.serial)).Nodup := by
    rw [List.Nodup, List.pairwise_map]
    exact h.ordered.imp Nat.ne_of_lt
  exact List.inj_on_of_nodup_map hnodup ha hb hserial

/-- After any calls since a reset the records are in the order of their serials, also those read in
a scope. No record has a serial that another one had at any time before. A commit is refused for an
entry of its unit and leaves the store as it is, or writes the whole unit, with serials beyond all
that were ever given. -/
theorem serials_sinceReset (store : Store) (calls : List StoreCall) (unit : WriteUnit) :
    (store.sinceReset calls).history.Pairwise (·.serial < ·.serial) ∧
    (∀ scope, ∃ records,
      Repo.inMemory.historyIn scope (store.sinceReset calls) =
        (.ok records, store.sinceReset calls) ∧
      records.Pairwise (·.serial < ·.serial) ∧
      ∀ record, record ∈ records ↔
        record ∈ (store.sinceReset calls).history ∧
          scope.invalidatesOrigin record.origin = true) ∧
    (∀ earlier, earlier <+: calls → ∀ record ∈ (store.sinceReset earlier).history,
      ∀ later ∈ (store.sinceReset calls).history, later.serial = record.serial → later = record) ∧
    ((∃ before entry rest, unit.history = before ++ entry :: rest ∧
        entry.source ∈ ((store.sinceReset calls).entries ++ before).map HistoryEntry.source ∧
        Repo.inMemory.commit unit (store.sinceReset calls) =
          (.error (.conflict (.duplicateRecord entry.key entry.origin)), store.sinceReset calls)) ∨
      (unit.history.map HistoryEntry.source).Nodup ∧
      (∀ entry ∈ unit.history,
        entry.source ∉ (store.sinceReset calls).entries.map HistoryEntry.source) ∧
      ∃ after, Repo.inMemory.commit unit (store.sinceReset calls) = (.ok (), after) ∧
        (store.sinceReset calls).Applies unit after ∧
        ∀ added ∈ after.history.drop (store.sinceReset calls).history.length,
          ∀ earlier, earlier <+: calls → ∀ record ∈ (store.sinceReset earlier).history,
            record.serial < added.serial) := by
  have hnumbered := store.numbered_sinceReset calls
  refine ⟨hnumbered.ordered, fun scope => ?_,
    fun earlier hearlier record hrecord later hlater hserial => ?_, ?_⟩
  · refine ⟨(store.sinceReset calls).historyIn scope, rfl, ?_, fun record => List.mem_filter⟩
    exact hnumbered.ordered.sublist List.filter_sublist
  · rcases (store.sinceReset_precedes hearlier).history later hlater with hold | hsince
    · exact (store.numbered_sinceReset earlier).eq_of_serial_eq hold hrecord hserial
    · have hle := (store.numbered_sinceReset earlier).given record hrecord
      omega
  · rcases (store.sinceReset calls).commit_cases unit with
      ⟨before, entry, rest, hunit, hmem, hrefused⟩ | ⟨hnodup, hnew, hdone⟩
    · exact Or.inl ⟨before, entry, rest, hunit, hmem, inMemory_commit_of_eq_error hrefused⟩
    · refine Or.inr ⟨hnodup, hnew, _, inMemory_commit_of_eq_ok hdone, applies_write _ unit,
        fun added hadded earlier hearlier record hrecord => ?_⟩
      rw [write, List.drop_left] at hadded
      have hlast : record.serial ≤ (store.sinceReset calls).lastSerial :=
        ((store.numbered_sinceReset earlier).given record hrecord).trans
          (store.sinceReset_precedes hearlier).lastSerial
      exact Nat.lt_of_le_of_lt hlast ((number_serials _ unit.history).2 added hadded).1

/-- The serial of a record that is rolled back is not given again. -/
example :
    let commit := StoreCall.commit (.recordedAt 100)
    let rollback := StoreCall.applyRollback ⟨.chain 1 5, [], [], []⟩
    (Store.empty.sinceReset [commit, rollback, commit]).history.map (·.serial) = [2] := by decide

end Store

end ChainIndexer
