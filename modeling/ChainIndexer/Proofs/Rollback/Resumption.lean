import ChainIndexer.Proofs.Coverage
import ChainIndexer.Proofs.Rollback.Plan

/-!
# Where indexing resumes after a rollback

A rollback deletes raw events and moves checkpoints back. Of the chains of the run it never leaves a
deleted event covered, so each is fetched again; a chain that is not part of the run keeps its
checkpoint, whatever it loses. The events of the reorged chain that stay are covered unless they lie
above the processed block: the checkpoint then forgets that its last block was begun.
-/

namespace ChainIndexer

/-! ### Lowest stale blocks -/

namespace Store

theorem get?_noteLowest (table : Table ChainId Nat) (event : Event) (chain : ChainId) :
    (noteLowest table event).get? chain =
      if chain = event.chain then
        some (((table.get? chain).map (min · event.block)).getD event.block)
      else table.get? chain := by
  rw [noteLowest]
  by_cases hchain : chain = event.chain
  · subst hchain
    split <;> simp [*]
  · split <;> simp [hchain]

theorem noteLowest_foldl_le {events : List Event} {table : Table ChainId Nat} {chain : ChainId}
    {block : Nat} (h : table.get? chain = some block) :
    ∃ lowest, (events.foldl noteLowest table).get? chain = some lowest ∧ lowest ≤ block := by
  induction events generalizing table block with
  | nil => exact ⟨block, h, Nat.le_refl block⟩
  | cons event rest ih =>
    rw [List.foldl_cons]
    have hstep := get?_noteLowest table event chain
    rw [h] at hstep
    by_cases hchain : chain = event.chain
    · rw [if_pos hchain] at hstep
      obtain ⟨lowest, hlowest, hle⟩ := ih hstep
      exact ⟨lowest, hlowest, Nat.le_trans hle (Nat.min_le_left _ _)⟩
    · rw [if_neg hchain] at hstep
      exact ih hstep

theorem noteLowest_foldl_le_of_mem {events : List Event} {table : Table ChainId Nat} {event : Event}
    (h : event ∈ events) :
    ∃ lowest, (events.foldl noteLowest table).get? event.chain = some lowest ∧
      lowest ≤ event.block := by
  induction events generalizing table with
  | nil => cases h
  | cons first rest ih =>
    rw [List.foldl_cons]
    rcases List.mem_cons.1 h with rfl | hrest
    · have hstep := get?_noteLowest table event event.chain
      rw [if_pos rfl] at hstep
      obtain ⟨lowest, hlowest, hle⟩ := noteLowest_foldl_le hstep
      refine ⟨lowest, hlowest, Nat.le_trans hle ?_⟩
      cases table.get? event.chain with
      | none => exact Nat.le_refl _
      | some block => exact Nat.min_le_right _ _
    · exact ih hrest

theorem firstInvalidatedBlocks_le {store : Store} {scope : RollbackScope} {event : Event}
    (hmem : event ∈ store.rawEvents) (hstale : scope.invalidatesEvent event = true) :
    ∃ lowest, (store.firstInvalidatedBlocks scope).get? event.chain = some lowest ∧
      lowest ≤ event.block :=
  noteLowest_foldl_le_of_mem (List.mem_filter.2 ⟨hmem, hstale⟩)

end Store

/-! ### Stored checkpoints -/

theorem Tracker.rewound_chains_sublist {tracker : Tracker} (hkeyed : tracker.Keyed)
    (rewinds : List Rewind) :
    ((tracker.rewound rewinds).map (·.chain)).Sublist (rewinds.map (·.chain)) := by
  induction rewinds with
  | nil => exact List.nil_sublist _
  | cons rewind rest ih =>
    rw [Tracker.rewound, List.filterMap_cons, List.map_cons]
    cases hget : tracker.get? rewind.chain with
    | none => exact ih.cons rewind.chain
    | some checkpoint =>
      have hchain : checkpoint.chain = rewind.chain := hkeyed _ _ hget
      have hrewound : (checkpoint.rewind rewind.block).chain = rewind.chain := hchain
      rw [Option.map_some, List.map_cons, hrewound]
      exact ih.cons_cons rewind.chain

namespace Store

variable {tracker : Tracker} {rewinds : List Rewind} {table : Table ChainId Checkpoint}

theorem rewinds_nodup (store : Store) (scope : RollbackScope) (reorg : Reorg) (tracker : Tracker) :
    ((store.rewinds scope reorg tracker).map (·.chain)).Nodup := by
  cases scope with
  | chain _ _ => exact List.nodup_cons.2 ⟨List.not_mem_nil, List.nodup_nil⟩
  | global safeChain safeBlock safeTimestamp =>
    unfold Store.rewinds
    rw [List.map_cons]
    refine List.nodup_cons.2 ⟨?_, ?_⟩
    · intro hmem
      simp only [RollbackPlan.otherRewinds, List.map_map, List.mem_map, List.mem_filter] at hmem
      obtain ⟨entry, ⟨_, hne⟩, hchain⟩ := hmem
      exact of_decide_eq_true hne hchain
    · rw [RollbackPlan.otherRewinds, List.map_map]
      exact List.Nodup.sublist (List.filter_sublist.map _) (Table.keys_nodup _)

theorem get?_putRewound (hkeyed : tracker.Keyed) (hnodup : (rewinds.map (·.chain)).Nodup)
    {rewind : Rewind} (hmem : rewind ∈ rewinds) {checkpoint : Checkpoint}
    (hget : tracker.get? rewind.chain = some checkpoint) :
    (putCheckpoints table (tracker.rewound rewinds)).get? rewind.chain =
      some (checkpoint.rewind rewind.block) := by
  refine Table.get?_insertAll_of_mem ?_ (List.mem_map.2 ⟨checkpoint.rewind rewind.block, ?_, ?_⟩)
  · rw [List.map_map]
    exact (Tracker.rewound_chains_sublist hkeyed rewinds).nodup hnodup
  · exact List.mem_filterMap.2 ⟨rewind, hmem, by rw [hget]; rfl⟩
  · have hchain : checkpoint.chain = rewind.chain := hkeyed _ _ hget
    exact congrArg (·, checkpoint.rewind rewind.block) hchain

theorem get?_putRewound_of_none (hkeyed : tracker.Keyed) {chain : ChainId}
    (hget : tracker.get? chain = none) :
    (putCheckpoints table (tracker.rewound rewinds)).get? chain = table.get? chain := by
  refine Table.get?_insertAll_of_not_mem fun hmem => ?_
  simp only [Tracker.rewound, List.map_map, List.mem_map, List.mem_filterMap,
    Option.map_eq_some_iff] at hmem
  obtain ⟨_, ⟨rewind, _, checkpoint, hfound, rfl⟩, hchain⟩ := hmem
  have hrewind : rewind.chain = chain := (hkeyed _ _ hfound).symm.trans hchain
  rw [← hrewind, hfound] at hget
  cases hget

theorem exists_get?_putCheckpoints {chain : ChainId} {checkpoint : Checkpoint}
    (checkpoints : List Checkpoint) (hget : table.get? chain = some checkpoint) :
    ∃ stored, (putCheckpoints table checkpoints).get? chain = some stored := by
  rw [putCheckpoints, Table.get?_insertAll, hget]
  cases List.find? _ _ with
  | none => exact ⟨checkpoint, rfl⟩
  | some entry => exact ⟨entry.2, rfl⟩

end Store

/-! ### Targets of rewinds -/

theorem min_min_processed (processed block : Option Nat) :
    min processed (min processed block) = min processed block := by
  cases processed with
  | none => cases block <;> rfl
  | some processed =>
    cases block with
    | none => rfl
    | some block =>
      change some (min processed (min processed block)) = some (min processed block)
      rw [← Nat.min_assoc, Nat.min_self]

/-- A chain of the run that loses an event goes back to before it. -/
theorem Store.exists_rewind_of_deleted {mode : Mode} {reorg : Reorg} {store : Store}
    (tracker : Tracker)
    (hclock : ∀ event ∈ store.rawEvents, event.chain = reorg.chain →
      event.block ≤ reorg.safeBlock.number → event.timestamp ≤ reorg.safeBlock.timestamp)
    {event : Event} (hmem : event ∈ store.rawEvents)
    (hstale : (RollbackScope.ofReorg mode reorg).invalidatesEvent event = true) :
    ∃ rewind ∈ store.rewinds (.ofReorg mode reorg) reorg tracker, rewind.chain = event.chain ∧
      min (tracker.processed event.chain) rewind.block = rewind.block ∧
      ∀ target, rewind.block = some target → target < event.block := by
  by_cases hchain : event.chain = reorg.chain
  · have habove : reorg.safeBlock.number < event.block := by
      cases mode with
      | unordered =>
        exact (of_decide_eq_true hstale).2
      | ordered =>
        have hafter : reorg.safeBlock.timestamp < event.timestamp ∨
            reorg.safeBlock.timestamp = event.timestamp ∧
              (reorg.chain < event.chain ∨
                reorg.chain = event.chain ∧ reorg.safeBlock.number < event.block) :=
          of_decide_eq_true hstale
        rw [hchain] at hafter
        rcases Nat.lt_or_ge reorg.safeBlock.number event.block with habove | hle
        · exact habove
        · have htime := hclock event hmem hchain hle
          rcases hafter with hlt | ⟨_, hlt | ⟨_, hlt⟩⟩
          · omega
          · exact absurd hlt (Nat.lt_irrefl _)
          · exact hlt
    refine ⟨_, List.mem_cons_self, hchain.symm, ?_, fun target htarget => ?_⟩
    · rw [hchain]
      exact min_min_processed _ _
    · obtain ⟨processed, safe, _, hsafe, hmin⟩ := Option.min_eq_some_iff.1 htarget
      cases hsafe
      omega
  · cases mode with
    | unordered =>
      have hsame := (of_decide_eq_true hstale).1
      exact absurd hsame hchain
    | ordered =>
      obtain ⟨lowest, hlowest, hle⟩ := firstInvalidatedBlocks_le hmem hstale
      have hentry := Table.mem_entries_iff.2 hlowest
      refine ⟨_, List.mem_cons_of_mem _ (List.mem_map.2 ⟨(event.chain, lowest),
        List.mem_filter.2 ⟨hentry, decide_eq_true hchain⟩, rfl⟩), rfl, min_min_processed _ _,
        fun target htarget => ?_⟩
      obtain ⟨processed, below, _, hbelow, hmin⟩ := Option.min_eq_some_iff.1 htarget
      rw [Word.checkedSub] at hbelow
      split at hbelow
      next hpos =>
        cases hbelow
        omega
      next => cases hbelow

/-! ### Samples -/

/-- The checkpoint of a chain that is indexed from block zero on. -/
def Checkpoint.placed (chain : ChainId) (processed : Nat) (position : Position) : Checkpoint :=
  { Checkpoint.fresh ⟨chain, 0, none⟩ with
    fetched := some processed
    processed := some processed
    position := some position }

/-- The tracker of a run of one chain. -/
def Tracker.ofCheckpoint (checkpoint : Checkpoint) : Tracker :=
  ⟨.ofList [(checkpoint.chain, checkpoint)]⟩

theorem Tracker.eq_of_get?_ofCheckpoint {checkpoint found : Checkpoint} {chain : ChainId}
    (h : (Tracker.ofCheckpoint checkpoint).get? chain = some found) :
    chain = checkpoint.chain ∧ checkpoint = found := by
  have hget : (Tracker.ofCheckpoint checkpoint).get? chain =
      if chain = checkpoint.chain then some checkpoint else none :=
    Table.get?_insert .empty checkpoint.chain chain checkpoint
  rw [hget] at h
  split at h
  next hchain => exact ⟨hchain, Option.some.inj h⟩
  next => cases h

theorem Tracker.ofCheckpoint_keyed (checkpoint : Checkpoint) :
    (Tracker.ofCheckpoint checkpoint).Keyed := by
  intro chain found hfound
  obtain ⟨rfl, rfl⟩ := eq_of_get?_ofCheckpoint hfound
  rfl

/-! ### Events that go and events that stay -/

section Plan

variable {mode : Mode} {reorg : Reorg} {tracker : Tracker} {store after : Store}
  {plan : RollbackPlan}

theorem Store.mem_rawEvents_applyRollback {event : Event} :
    event ∈ (store.applyRollback plan).rawEvents ↔
      event ∈ store.rawEvents ∧ plan.scope.invalidatesEvent event = false := by
  rw [Store.applyRollback, List.mem_filter, Bool.not_eq_true']

/-- After a rollback no deleted event of a chain is covered, exactly if the chain is part of the run
or none of these events was covered before. -/
theorem RollbackPlan.deleted_uncovered_iff
    (hmake : make Repo.inMemory mode reorg tracker store = (.ok plan, after))
    (hkeyed : tracker.Keyed)
    (hstart : ∀ event ∈ store.rawEvents, ∀ checkpoint,
      tracker.get? event.chain = some checkpoint → checkpoint.startBlock ≤ event.block)
    (hclock : ∀ event ∈ store.rawEvents, event.chain = reorg.chain →
      event.block ≤ reorg.safeBlock.number → event.timestamp ≤ reorg.safeBlock.timestamp)
    {chain : ChainId} {checkpoint : Checkpoint}
    (hstored : store.checkpoints.get? chain = some checkpoint) :
    ∃ rewound, (store.applyRollback plan).checkpoints.get? chain = some rewound ∧
      ((∀ event ∈ store.rawEvents, event.chain = chain →
          event ∉ (store.applyRollback plan).rawEvents → rewound.covers event.position = false) ↔
        (tracker.get? chain).isSome = true ∨
          ∀ event ∈ store.rawEvents, event.chain = chain →
            event ∉ (store.applyRollback plan).rawEvents →
              checkpoint.covers event.position = false) := by
  obtain ⟨hscope, hrewinds, hcheckpoints⟩ := eq_of_make hmake
  have htable : (store.applyRollback plan).checkpoints =
      Store.putCheckpoints store.checkpoints (tracker.rewound plan.rewinds) := by
    rw [← hcheckpoints]
    rfl
  cases htracked : tracker.get? chain with
  | none =>
    refine ⟨checkpoint, ?_, ⟨Or.inr, ?_⟩⟩
    · rw [htable, Store.get?_putRewound_of_none hkeyed htracked, hstored]
    · rintro (hsome | hnone)
      · cases hsome
      · exact hnone
  | some tracked =>
    obtain ⟨rewound, hrewound⟩ :=
      Store.exists_get?_putCheckpoints (tracker.rewound plan.rewinds) hstored
    rw [← htable] at hrewound
    refine ⟨rewound, hrewound, ⟨fun _ => Or.inl rfl, fun _ event hmem hchain hgone => ?_⟩⟩
    subst hchain
    have hstale : (RollbackScope.ofReorg mode reorg).invalidatesEvent event = true := by
      rw [Store.mem_rawEvents_applyRollback, hscope] at hgone
      exact Bool.of_not_eq_false fun hkept => hgone ⟨hmem, hkept⟩
    obtain ⟨rewind, hrewind, hchain, hmin, hbelow⟩ :=
      Store.exists_rewind_of_deleted tracker hclock hmem hstale
    rw [← hrewinds] at hrewind
    have hnodup : (plan.rewinds.map (·.chain)).Nodup := hrewinds ▸ Store.rewinds_nodup ..
    rw [← hchain] at htracked
    have hput : (Store.putCheckpoints store.checkpoints (tracker.rewound plan.rewinds)).get?
        rewind.chain = some (tracked.rewind rewind.block) :=
      Store.get?_putRewound hkeyed hnodup hrewind htracked
    rw [← htable, hchain, hrewound, Option.some.injEq] at hput
    have hprocessed : tracker.processed event.chain = tracked.processed := by
      rw [Tracker.processed, ← hchain, htracked]
      rfl
    rw [hprocessed] at hmin
    rw [← Bool.not_eq_true, hput, Checkpoint.covers_rewind hmin]
    rintro (hlt | ⟨target, htarget, hle⟩)
    · have hge := hstart event hmem tracked (hchain ▸ htracked)
      exact absurd hlt (Nat.not_lt.2 hge)
    · exact absurd hle (Nat.not_le.2 (hbelow target htarget))

/-- Two chains, each with an event above block forty. -/
def Store.twoChains : Store :=
  { Store.empty with
    rawEvents := [.placed 1 45 0, .placed 2 46 0]
    checkpoints := .ofList [(1, .placed 1 45 ⟨45, 0⟩), (2, .placed 2 46 ⟨46, 0⟩)] }

/-- What a run of the first chain alone plans when that chain forks above block forty. -/
def RollbackPlan.ofFirstChain : RollbackPlan where
  scope := .global 1 40 400
  restores := []
  rewinds := [⟨1, some 40⟩, ⟨2, none⟩]
  checkpoints := [(Checkpoint.placed 1 45 ⟨45, 0⟩).rewind (some 40)]

/-- A run of the first chain alone deletes the event of the second one, which stays covered. -/
theorem RollbackPlan.absent_chain_stays_covered :
    ∃ rewound,
      make Repo.inMemory .ordered (.placed 1 40) (.ofCheckpoint (.placed 1 45 ⟨45, 0⟩))
        Store.twoChains = (.ok ofFirstChain, Store.twoChains) ∧
      (Store.twoChains.applyRollback ofFirstChain).checkpoints.get? 2 = some rewound ∧
      ¬ ∀ event ∈ Store.twoChains.rawEvents, event.chain = 2 →
        event ∉ (Store.twoChains.applyRollback ofFirstChain).rawEvents →
          rewound.covers event.position = false := by
  have hmake : make Repo.inMemory .ordered (.placed 1 40) (.ofCheckpoint (.placed 1 45 ⟨45, 0⟩))
      Store.twoChains = (.ok ofFirstChain, Store.twoChains) := rfl
  have hstart : ∀ event ∈ Store.twoChains.rawEvents, ∀ checkpoint,
      (Tracker.ofCheckpoint (.placed 1 45 ⟨45, 0⟩)).get? event.chain = some checkpoint →
        checkpoint.startBlock ≤ event.block := by
    intro event _ checkpoint hget
    obtain ⟨_, rfl⟩ := Tracker.eq_of_get?_ofCheckpoint hget
    exact Nat.zero_le _
  have hstored : Store.twoChains.checkpoints.get? 2 = some (.placed 2 46 ⟨46, 0⟩) := rfl
  obtain ⟨rewound, hrewound, hiff⟩ :=
    deleted_uncovered_iff hmake (Tracker.ofCheckpoint_keyed _) hstart (by decide) hstored
  refine ⟨rewound, hmake, hrewound, fun hall => ?_⟩
  have huncovered := hiff.1 hall
  revert huncovered
  decide

/-- After a rollback the events that stay on the reorged chain are covered, exactly if none of them
lies above the processed block: a checkpoint that skips within a later block forgets that. -/
theorem RollbackPlan.survivors_covered_iff
    (hmake : make Repo.inMemory mode reorg tracker store = (.ok plan, after))
    (hkeyed : tracker.Keyed) {checkpoint : Checkpoint}
    (htracked : tracker.get? reorg.chain = some checkpoint) :
    ∃ rewound, (store.applyRollback plan).checkpoints.get? reorg.chain = some rewound ∧
      ((∀ event ∈ (store.applyRollback plan).rawEvents, event.chain = reorg.chain →
          rewound.covers event.position = true) ↔
        ∀ event ∈ (store.applyRollback plan).rawEvents, event.chain = reorg.chain →
          event.block < checkpoint.startBlock ∨
            ∃ processed, checkpoint.processed = some processed ∧ event.block ≤ processed ∧
              event.block ≤ reorg.safeBlock.number) := by
  obtain ⟨hscope, hrewinds, hcheckpoints⟩ := eq_of_make hmake
  have hprocessed : tracker.processed reorg.chain = checkpoint.processed := by
    rw [Tracker.processed, htracked]
    rfl
  have hrewind : (⟨reorg.chain, min checkpoint.processed (some reorg.safeBlock.number)⟩ : Rewind) ∈
      plan.rewinds := by
    rw [hrewinds, ← hprocessed]
    exact List.mem_cons_self
  have hnodup : (plan.rewinds.map (·.chain)).Nodup := hrewinds ▸ Store.rewinds_nodup ..
  have hput : (store.applyRollback plan).checkpoints.get? reorg.chain =
      some (checkpoint.rewind (min checkpoint.processed (some reorg.safeBlock.number))) := by
    rw [Store.applyRollback, hcheckpoints]
    exact Store.get?_putRewound hkeyed hnodup hrewind htracked
  refine ⟨_, hput, forall₃_congr fun event _ _ => ?_⟩
  rw [Checkpoint.covers_rewind (min_min_processed _ _)]
  refine or_congr_right ?_
  constructor
  · rintro ⟨target, htarget, hle⟩
    obtain ⟨processed, safe, hprocessed, hsafe, hmin⟩ := Option.min_eq_some_iff.1 htarget
    cases hsafe
    have hblock : event.block ≤ min processed reorg.safeBlock.number := hmin ▸ hle
    exact ⟨processed, hprocessed, Nat.le_min.1 hblock⟩
  · rintro ⟨processed, hprocessed, hle⟩
    exact ⟨min processed reorg.safeBlock.number,
      Option.min_eq_some_iff.2 ⟨processed, _, hprocessed, rfl, rfl⟩, Nat.le_min.2 hle⟩

/-- A chain that stopped within block ten, after two events of it. -/
def Store.begunBlock : Store :=
  { Store.empty with
    rawEvents := [.placed 1 10 0, .placed 1 10 1]
    checkpoints := .ofList [(1, .placed 1 9 ⟨10, 1⟩)] }

/-- What is planned when that chain forks above block fifteen. -/
def RollbackPlan.ofBegunBlock : RollbackPlan where
  scope := .chain 1 15
  restores := []
  rewinds := [⟨1, some 9⟩]
  checkpoints := [(Checkpoint.placed 1 9 ⟨10, 1⟩).rewind (some 9)]

/-- A reorg far above a block that was only begun uncovers the events of it that stay. -/
theorem RollbackPlan.begun_block_uncovered :
    ∃ rewound,
      make Repo.inMemory .unordered (.placed 1 15) (.ofCheckpoint (.placed 1 9 ⟨10, 1⟩))
        Store.begunBlock = (.ok ofBegunBlock, Store.begunBlock) ∧
      (Store.begunBlock.applyRollback ofBegunBlock).checkpoints.get? 1 = some rewound ∧
      ¬ ∀ event ∈ (Store.begunBlock.applyRollback ofBegunBlock).rawEvents, event.chain = 1 →
        rewound.covers event.position = true := by
  have hmake : make Repo.inMemory .unordered (.placed 1 15) (.ofCheckpoint (.placed 1 9 ⟨10, 1⟩))
      Store.begunBlock = (.ok ofBegunBlock, Store.begunBlock) := rfl
  have htracked : (Tracker.ofCheckpoint (.placed 1 9 ⟨10, 1⟩)).get? 1 =
      some (.placed 1 9 ⟨10, 1⟩) := rfl
  obtain ⟨rewound, hrewound, hiff⟩ :=
    survivors_covered_iff hmake (Tracker.ofCheckpoint_keyed _) htracked
  refine ⟨rewound, hmake, hrewound, fun hall => ?_⟩
  have hkept : Event.placed 1 10 0 ∈ (Store.begunBlock.applyRollback ofBegunBlock).rawEvents := by
    decide
  rcases hiff.1 hall _ hkept rfl with hlt | ⟨processed, hprocessed, hle, _⟩
  · exact absurd hlt (Nat.not_lt_zero _)
  · cases hprocessed
    exact absurd hle (by decide)

end Plan

end ChainIndexer
