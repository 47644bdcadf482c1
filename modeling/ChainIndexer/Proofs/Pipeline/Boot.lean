import ChainIndexer.Pipeline.Boot
import ChainIndexer.Proofs.Pipeline.Advance

/-!
# Booting from a store

What a run goes on from is read off the store, so a pipeline that boots from a sound store is sound,
and steady once its fetchers are started.
-/

namespace ChainIndexer

/-! ### Configurations -/

theorem Config.checkChains_eq_ok {seen : List ChainId} {chains : List Chain}
    (h : checkChains seen chains = .ok ()) :
    (chains.map (·.id)).Nodup ∧ ∀ chain ∈ chains, chain.id ∉ seen := by
  induction chains generalizing seen with
  | nil => exact ⟨List.nodup_nil, fun _ hmem => absurd hmem List.not_mem_nil⟩
  | cons chain rest ih =>
    rw [checkChains] at h
    split at h
    next => cases h
    next =>
      split at h
      next => cases h
      next hseen =>
        split at h
        next => cases h
        next =>
          obtain ⟨hnodup, hrest⟩ := ih h
          refine ⟨List.nodup_cons.2 ⟨fun hmem => ?_, hnodup⟩, fun other hother => ?_⟩
          · obtain ⟨other, hother, hid⟩ := List.mem_map.1 hmem
            exact hrest other hother (hid ▸ List.mem_cons_self)
          · rcases List.mem_cons.1 hother with rfl | hlater
            · exact hseen
            · exact fun hmem => hrest other hlater (List.mem_cons_of_mem _ hmem)

/-- What a valid configuration has passed. -/
theorem Config.checks_of_validate {config : Config} (h : config.validate = .ok ()) :
    checkChains [] config.chains = .ok () ∧ (∀ setting ∈ config.positiveSettings, 1 ≤ setting.2) ∧
      config.minBlocksPerBatch ≤ config.maxBlocksPerBatch := by
  rw [validate] at h
  split at h
  next => cases h
  next =>
    cases hchains : checkChains [] config.chains with
    | error error =>
      rw [hchains] at h
      cases h
    | ok value =>
      rw [hchains] at h
      cases hzero : config.positiveSettings.find? (·.2 = 0) with
      | some setting =>
        simp only [hzero] at h
        cases h
      | none =>
        simp only [hzero] at h
        refine ⟨rfl, fun setting hsetting => ?_, Nat.le_of_not_lt fun hlt => ?_⟩
        · have hnonzero := List.find?_eq_none.1 hzero setting hsetting
          rw [decide_eq_true_eq] at hnonzero
          exact Nat.one_le_iff_ne_zero.2 hnonzero
        · rw [if_pos hlt] at h
          cases h

/-- The chains of a valid configuration are distinct, and none of the settings that must be positive
is zero. -/
theorem Config.settings_of_validate {config : Config} (h : config.validate = .ok ()) :
    (config.chains.map (·.id)).Nodup ∧ ∀ setting ∈ config.positiveSettings, 1 ≤ setting.2 :=
  ⟨(checkChains_eq_ok (checks_of_validate h).1).1, (checks_of_validate h).2.1⟩

theorem Config.validate_eq_ok {config : Config} (h : config.validate = .ok ()) :
    (config.chains.map (·.id)).Nodup ∧ 1 ≤ config.minBlocksPerBatch :=
  (settings_of_validate h).imp_right fun hpositive =>
    hpositive ("min_blocks_per_batch", _) (by simp [positiveSettings])

theorem Config.maxRecordedBlocks_of_validate {config : Config} (h : config.validate = .ok ()) :
    1 ≤ config.maxRecordedBlocks :=
  (settings_of_validate h).2 ("max_recorded_blocks", _) (by simp [positiveSettings])

/-! ### Stores -/

theorem Table.ofList_entries {κ ν : Type} [Ord κ] [Std.TransOrd κ] [Std.LawfulEqOrd κ]
    [DecidableEq κ] (table : Table κ ν) : ofList table.entries = table := by
  refine ext_get? fun key => ?_
  cases hget : table.get? key with
  | some value => exact get?_insertAll_of_mem table.keys_nodup (mem_entries_iff.2 hget)
  | none =>
    refine (get?_insertAll_of_not_mem fun hmem => ?_).trans (get?_empty key)
    obtain ⟨⟨other, value⟩, hentry, rfl⟩ := List.mem_map.1 hmem
    rw [mem_entries_iff.1 hentry] at hget
    cases hget

theorem Table.find?_values {κ ν : Type} [Ord κ] [Std.LawfulEqOrd κ] [DecidableEq κ]
    {table : Table κ ν} {keyOf : ν → κ}
    (h : ∀ key value, table.get? key = some value → keyOf value = key) (key : κ) :
    table.values.find? (keyOf · = key) = table.get? key := by
  rw [values, get?, lookup_eq_find?, List.find?_map]
  congr 1
  refine List.find?_congr fun entry hentry => ?_
  rw [Function.comp_apply, h entry.1 entry.2 (mem_entries_iff.1 hentry)]

theorem Store.Sound.empty (config : Config) (handlers : HandlerTable)
    (logs : (chain : ChainId) → ChainLog chain) (resetCount : Nat) :
    { Store.empty with resetCount := resetCount }.Sound config handlers logs where
  keyed := fun _ _ h => nomatch h
  startBlock := fun _ _ => rfl
  position := fun _ _ _ h => nomatch h
  registers := fun _ _ h => nomatch h
  accurate := fun chain _ => by
    refine ⟨(List.filter_eq_nil_iff.2 fun event _ => ?_).symm, rfl⟩
    have hcovers : (Checkpoint.fresh chain).covers event.position =
        decide (event.block < chain.startBlock) := Bool.or_false _
    change ¬ (_ && (Checkpoint.fresh chain).covers event.position) = true
    rw [hcovers, isDue]
    simp only [Bool.and_eq_true, decide_eq_true_eq]
    omega
  blocks := fun _ _ hmem => absurd hmem List.not_mem_nil

theorem countResets_inMemory (times : Nat) (store : Store) :
    countResets Repo.inMemory times store =
      (.ok (), { store with resetCount := store.resetCount + times }) := by
  induction times generalizing store with
  | zero => rfl
  | succ times ih =>
    rw [countResets, Call.bind_apply]
    change countResets Repo.inMemory times { store with resetCount := store.resetCount + 1 } = _
    rw [ih, Nat.add_assoc, Nat.add_comm 1]

theorem resetIfAsked_inMemory (asked : Nat) (store : Store) :
    ∃ after, resetIfAsked Repo.inMemory asked store = (.ok (), after) ∧
      (after = store ∨ ∃ resetCount, after = { Store.empty with resetCount := resetCount }) := by
  have hasked : resetIfAsked Repo.inMemory asked store =
      if store.resetCount < asked then
        countResets Repo.inMemory (asked - store.resetCount) store.reset
      else (.ok (), store) := by
    rw [resetIfAsked, Call.bind_apply]
    change (if store.resetCount < asked then _ else _ : Call Store RepoError Unit) store = _
    split <;> rfl
  rw [hasked]
  split
  next => exact ⟨_, countResets_inMemory _ _, Or.inr ⟨_, rfl⟩⟩
  next => exact ⟨store, rfl, Or.inl rfl⟩

/-! ### What a run goes on from -/

/-- The checkpoint that a run goes on from. -/
def Tracker.resumed (stored : Table ChainId Checkpoint) (chain : Chain) : Checkpoint :=
  match stored.get? chain.id with
  | some checkpoint => checkpoint.resume chain
  | none => .fresh chain

theorem Tracker.startAll_eq {chains : List Chain} (hdistinct : (chains.map (·.id)).Nodup)
    (stored : Table ChainId Checkpoint) :
    startAll chains stored = chains.map fun chain => (chain.id, resumed stored chain) := by
  induction chains generalizing stored with
  | nil => rfl
  | cons chain rest ih =>
    obtain ⟨hchain, hrest⟩ := List.nodup_cons.1 hdistinct
    rw [startAll, ih hrest, List.map_cons]
    refine congrArg (_ :: ·) (List.map_congr_left fun other hother => ?_)
    have hne : other.id ≠ chain.id := fun heq => hchain (List.mem_map.2 ⟨other, hother, heq⟩)
    rw [resumed, resumed, Table.get?_erase, if_neg hne]

theorem Tracker.startAll_chains (chains : List Chain) (stored : Table ChainId Checkpoint) :
    (startAll chains stored).map Prod.fst = chains.map (·.id) := by
  induction chains generalizing stored with
  | nil => rfl
  | cons chain rest ih =>
    rw [startAll]
    exact congrArg (chain.id :: ·) (ih _)

/-- A run tracks no chains but its own. -/
theorem Tracker.exists_of_start {chains : List Chain} {stored : List Checkpoint} {id : ChainId}
    {checkpoint : Checkpoint} (h : (start chains stored).get? id = some checkpoint) :
    ∃ chain ∈ chains, chain.id = id := by
  have hentry := (Table.mem_of_get?_insertAll h).resolve_right (fun hnone => nomatch hnone)
  have hmem := List.mem_map_of_mem (f := Prod.fst) hentry
  rw [startAll_chains] at hmem
  exact List.mem_map.1 hmem

theorem Tracker.start_values {stored : Table ChainId Checkpoint}
    (hkeyed : ∀ chain checkpoint, stored.get? chain = some checkpoint → checkpoint.chain = chain)
    {chains : List Chain} (hdistinct : (chains.map (·.id)).Nodup) :
    (start chains stored.values).Keyed ∧ ∀ chain ∈ chains,
      (start chains stored.values).get? chain.id = some (resumed stored chain) := by
  have hentries : stored.values.map (fun checkpoint => (checkpoint.chain, checkpoint)) =
      stored.entries := by
    rw [Table.values, List.map_map]
    refine (List.map_congr_left fun entry hentry => ?_).trans (List.map_id _)
    exact Prod.ext (hkeyed entry.1 entry.2 (Table.mem_entries_iff.1 hentry)) rfl
  have hstart : start chains stored.values =
      ⟨.ofList (chains.map fun chain => (chain.id, resumed stored chain))⟩ := by
    rw [start, hentries, Table.ofList_entries, startAll_eq hdistinct]
  refine ⟨start_keyed _ _, fun chain hchain => ?_⟩
  rw [hstart]
  refine Table.get?_insertAll_of_mem ?_ (List.mem_map.2 ⟨chain, hchain, rfl⟩)
  rw [List.map_map]
  exact hdistinct

theorem Tracker.resumed_agreesWith (store : Store) (chain : Chain) :
    (resumed store.checkpoints chain).AgreesWith (store.checkpointOf chain) := by
  rw [resumed, Store.checkpointOf]
  split
  next heq =>
    rw [heq]
    exact Checkpoint.resume_agreesWith _ chain
  next heq =>
    rw [heq]
    exact ⟨rfl, rfl, rfl, rfl, rfl⟩

theorem Registry.reload_reflects {contracts : List Contract} {store : Store}
    (hkeyed : ∀ key registration, store.registrations.get? key = some registration →
      registration.key = key) :
    ((ofContracts contracts).reload store.registrations.values).Reflects contracts store := by
  intro key
  rw [reload, ← Table.find?_values hkeyed]
  exact Table.get?_foldl_insertNew _ Registration.key Registration.watchedAddress _ key

/-! ### Runs -/

namespace Pipeline

variable {config : Config} {handlers : HandlerTable} {logs : (chain : ChainId) → ChainLog chain}

/-- What a run goes on from is read off the store, which may have been reset before. -/
theorem boot_eq_ok {store after : Store} {booted : Booted}
    (hboot : boot Repo.inMemory config store = (.ok booted, after)) :
    config.validate = .ok () ∧
      (after = store ∨ ∃ resetCount, after = { Store.empty with resetCount := resetCount }) ∧
      booted = ⟨.start config.chains after.checkpoints.values,
        (Registry.ofContracts config.contracts).reload after.registrations.values⟩ := by
  rw [boot] at hboot
  cases hvalidate : config.validate with
  | error error =>
    rw [hvalidate] at hboot
    cases hboot
  | ok value =>
    obtain ⟨reset, hreset, hafter⟩ := resetIfAsked_inMemory config.resetCount store
    have hread : bootRepo Repo.inMemory config store =
        (.ok ⟨.start config.chains reset.checkpoints.values,
          (Registry.ofContracts config.contracts).reload reset.registrations.values⟩, reset) := by
      rw [bootRepo, Call.bind_apply]
      change (resetIfAsked Repo.inMemory config.resetCount >>= _) store = _
      rw [Call.bind_apply, hreset]
      rfl
    rw [hvalidate, hread] at hboot
    cases hboot
    exact ⟨rfl, hafter, rfl⟩

/-- A run that boots from a sound store starts sound, without lanes. -/
theorem sound_of_boot {store after : Store} {booted : Booted}
    (hstore : store.Sound config handlers logs)
    (hboot : boot Repo.inMemory config store = (.ok booted, after)) :
    config.validate = .ok () ∧ (ofBooted config booted after).Sound config handlers logs := by
  obtain ⟨hvalidate, hafter, rfl⟩ := boot_eq_ok hboot
  have hsound : after.Sound config handlers logs := by
    rcases hafter with rfl | ⟨resetCount, rfl⟩
    · exact hstore
    · exact .empty config handlers logs resetCount
  obtain ⟨hkeyed, htracks⟩ :=
    Tracker.start_values hsound.keyed (Config.validate_eq_ok hvalidate).1
  refine ⟨hvalidate, hsound, Registry.reload_reflects fun key registration hget => ?_, hkeyed,
    fun chain hchain => ?_, rfl, fun _ _ hnone => nomatch hnone⟩
  · exact (hsound.registers key registration hget).1
  · exact ⟨_, htracks chain hchain, Tracker.resumed_agreesWith _ chain⟩

theorem Steady.startFetchers {context : PipelineContext Store} {pipeline after : Pipeline Store}
    (h : pipeline.Steady context.config context.handlers logs)
    (hrepo : context.repo = Repo.inMemory) (hmin : 1 ≤ context.config.minBlocksPerBatch)
    {ids : List ChainId} (hids : ∀ id ∈ ids, ∃ chain ∈ context.config.chains, chain.id = id)
    (hstart : Pipeline.startFetchers context ids pipeline = (.ok (), after)) :
    after.Steady context.config context.handlers logs := by
  induction ids generalizing pipeline with
  | nil =>
    cases hstart
    exact h
  | cons id rest ih =>
    rw [Pipeline.startFetchers] at hstart
    obtain ⟨_, started, hstarted, hstart⟩ := Call.bind_eq_ok hstart
    have hsteady := h.sound.startFetcher hrepo hmin (hids id List.mem_cons_self)
      (fun chain hchain _ => h.serves chain hchain) hstarted
    exact ih hsteady (fun other hother => hids other (List.mem_cons_of_mem _ hother)) hstart

end Pipeline

end ChainIndexer
