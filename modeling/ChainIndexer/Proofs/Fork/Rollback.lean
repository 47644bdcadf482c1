import ChainIndexer.Proofs.Fork.Store
import ChainIndexer.Proofs.Rollback.Resumption

/-!
# Rolling back chains that may be forked

A rollback moves a chain back to a block that is on record, or to the first block that it lost an
event of. The block before is known either way, so the chain can be resumed there.
-/

namespace ChainIndexer

/-- What comes behind a stale row of a chain is stale. -/
theorem RollbackScope.invalidates_mono {scope : RollbackScope} {chain : ChainId}
    {block block' timestamp timestamp' : Nat} (hblock : block ≤ block')
    (htimestamp : timestamp ≤ timestamp') (h : scope.invalidates chain block timestamp = true) :
    scope.invalidates chain block' timestamp' = true := by
  cases scope with
  | chain reorged safeBlock =>
    simp only [invalidates, decide_eq_true_eq] at h ⊢
    exact ⟨h.1, by omega⟩
  | global reorged safeBlock safeTimestamp =>
    simp only [invalidates, decide_eq_true_eq] at h ⊢
    unfold ChainId at *
    omega

theorem RollbackScope.invalidates_of_safeBlock_lt {mode : Mode} {reorg : Reorg}
    {block timestamp : Nat} (hblock : reorg.safeBlock.number < block)
    (htimestamp : reorg.safeBlock.timestamp ≤ timestamp) :
    (ofReorg mode reorg).invalidates reorg.chain block timestamp = true := by
  cases mode with
  | unordered => exact decide_eq_true ⟨rfl, hblock⟩
  | ordered =>
    refine decide_eq_true ?_
    rcases Nat.lt_or_eq_of_le htimestamp with hlt | heq
    · exact Or.inl hlt
    · exact Or.inr ⟨heq, Or.inr ⟨rfl, hblock⟩⟩

namespace Store

variable {store : Store} {chain : Chain} {scope : RollbackScope} {reorg : Reorg} {mode : Mode}
  {tracker : Tracker} {rewinds : List Rewind}

theorem noteLowest_foldl_mem {events : List Event} {table : Table ChainId Nat} {id : ChainId}
    {block : Nat} (h : (events.foldl noteLowest table).get? id = some block) :
    table.get? id = some block ∨ ∃ event ∈ events, event.chain = id ∧ event.block = block := by
  induction events generalizing table with
  | nil => exact Or.inl h
  | cons event rest ih =>
    rcases ih h with hnoted | ⟨later, hlater, hsame⟩
    · rw [get?_noteLowest] at hnoted
      split at hnoted
      next hid =>
        cases hold : table.get? event.chain with
        | none =>
          rw [hid, hold] at hnoted
          exact Or.inr ⟨event, List.mem_cons_self, hid.symm, Option.some.inj hnoted⟩
        | some lowest =>
          rw [hid, hold] at hnoted
          have hmin : min lowest event.block = block := Option.some.inj hnoted
          rcases Nat.le_total lowest event.block with hle | hle
          · rw [Nat.min_eq_left hle] at hmin
            exact Or.inl (by rw [hid, hold, hmin])
          · rw [Nat.min_eq_right hle] at hmin
            exact Or.inr ⟨event, List.mem_cons_self, hid.symm, hmin⟩
      next => exact Or.inl hnoted
    · exact Or.inr ⟨later, List.mem_cons_of_mem _ hlater, hsame⟩

/-- The lowest stale block of a chain is the block of a stale event. -/
theorem exists_of_firstInvalidatedBlocks {id : ChainId} {block : Nat}
    (h : (store.firstInvalidatedBlocks scope).get? id = some block) :
    ∃ event ∈ store.eventsOf id, scope.invalidatesEvent event = true ∧ event.block = block := by
  obtain ⟨event, hevent, hid, hblock⟩ :=
    (noteLowest_foldl_mem h).resolve_left (fun hnone => nomatch hnone)
  obtain ⟨hmem, hstale⟩ := List.mem_filter.1 hevent
  exact ⟨event, List.mem_filter.2 ⟨hmem, decide_eq_true hid⟩, hstale, hblock⟩

theorem putRewound_of_not_mem {table : Table ChainId Checkpoint} (hkeyed : tracker.Keyed)
    {id : ChainId} (h : ∀ rewind ∈ rewinds, rewind.chain ≠ id) :
    (putCheckpoints table (tracker.rewound rewinds)).get? id = table.get? id := by
  refine Table.get?_insertAll_of_not_mem fun hmem => ?_
  rw [List.map_map] at hmem
  obtain ⟨rewind, hrewind, hid⟩ :=
    List.mem_map.1 ((Tracker.rewound_chains_sublist hkeyed rewinds).subset hmem)
  exact h rewind hrewind hid

/-- A store that was moved back can be resumed there, if the block before is known and no event
beyond it stays. -/
theorem Traces.rewind {after : Store} (h : store.Traces chain) {checkpoint : Checkpoint}
    (hagrees : checkpoint.AgreesWith (store.checkpointOf chain)) {target : Option Nat}
    (htarget : min checkpoint.processed target = target)
    (hcheckpoint : after.checkpointOf chain = checkpoint.rewind target)
    (hblocks : ∀ number, after.blocks.get? ⟨chain.id, number⟩ =
      (store.blocks.get? ⟨chain.id, number⟩).filter fun _ => target.any (number ≤ ·))
    (hevents : ∀ event ∈ after.eventsOf chain.id, event ∈ store.eventsOf chain.id ∧
      event.block ≤ max chain.startBlock (openAfter target))
    (hground : Grounded chain.startBlock (store.blocksOf chain.id)
      (max chain.startBlock (openAfter target))) : after.Traces chain := by
  have hstart : checkpoint.startBlock = chain.startBlock := hagrees.startBlock.trans h.startBlock
  have hopen : (after.checkpointOf chain).openBlock = max chain.startBlock (openAfter target) := by
    rw [hcheckpoint, Checkpoint.openBlock_rewind htarget, hstart]
  have hnumbered : ∀ number block, after.blocks.get? ⟨chain.id, number⟩ = some block →
      block.number = number := by
    intro number block hget
    rw [hblocks] at hget
    exact h.numbered number block (Option.filter_eq_some_iff.1 hget).1
  have hmem : ∀ block, block ∈ after.blocksOf chain.id ↔
      block ∈ store.blocksOf chain.id ∧ block.number < openAfter target := by
    intro block
    rw [mem_blocksOf, h.mem_blocksOf_iff, ← lt_openAfter_iff]
    constructor
    · rintro ⟨⟨id, number⟩, hget, rfl⟩
      have hnumber := hnumbered number block hget
      rw [hblocks, Option.filter_eq_some_iff, ← hnumber] at hget
      exact hget
    · rintro ⟨hget, hkept⟩
      exact ⟨_, (hblocks _).trans (Option.filter_eq_some_iff.2 ⟨hget, hkept⟩), rfl⟩
  have hkept : ∀ number ≤ max chain.startBlock (openAfter target),
      Grounded chain.startBlock (store.blocksOf chain.id) number →
        Grounded chain.startBlock (after.blocksOf chain.id) number := by
    intro number hnumber hgrounded
    by_cases hbelow : number ≤ chain.startBlock
    · exact Or.inl hbelow
    · obtain ⟨block, hblock, hsame⟩ := hgrounded.resolve_left hbelow
      exact Or.inr ⟨block, (hmem block).2 ⟨hblock, by omega⟩, hsame⟩
  refine ⟨?_, fun last hlast => ?_, hnumbered, fun event hevent => ?_, fun block hblock => ?_, ?_,
    fun event hevent => ?_⟩
  · rw [hcheckpoint]
    exact hstart
  · rw [hopen]
    rw [hcheckpoint, Checkpoint.rewind, Option.filter_eq_some_iff] at hlast
    obtain ⟨hposition, hle⟩ := hlast
    have hrange := h.position last (hagrees.position ▸ hposition)
    refine ⟨hrange.1, ?_⟩
    cases target with
    | none => cases hle
    | some block =>
      have hlast : last.block ≤ block := of_decide_eq_true hle
      change last.block ≤ max chain.startBlock (block + 1)
      omega
  · rw [hopen]
    obtain ⟨hold, hle⟩ := hevents event hevent
    exact ⟨(h.events event hold).1, hle⟩
  · rw [hopen]
    obtain ⟨hold, hlt⟩ := (hmem block).1 hblock
    have hrange := h.blocks block hold
    omega
  · rw [hopen]
    exact hkept _ (Nat.le_refl _) hground
  · obtain ⟨hold, hle⟩ := hevents event hevent
    exact hkept _ hle (h.grounded event hold)

/-- Whether a reorg takes the last events of a chain: those from some block on, and of the forked
chain all beyond the safe block. -/
structure Splits (store : Store) (chain : Chain) (mode : Mode) (reorg : Reorg) : Prop where
  tail : ∀ stale ∈ store.eventsOf chain.id, ∀ kept ∈ store.eventsOf chain.id,
    (RollbackScope.ofReorg mode reorg).invalidatesEvent stale = true →
    (RollbackScope.ofReorg mode reorg).invalidatesEvent kept = false → kept.block ≤ stale.block
  safe : chain.id = reorg.chain → ∀ kept ∈ store.eventsOf chain.id,
    (RollbackScope.ofReorg mode reorg).invalidatesEvent kept = false →
      kept.block ≤ reorg.safeBlock.number

theorem chain_of_mem_eventsOf {id : ChainId} {event : Event} (h : event ∈ store.eventsOf id) :
    event.chain = id := of_decide_eq_true (List.mem_filter.1 h).2

/-- A reorg takes the last events of a chain whose timestamps go on with its blocks. -/
theorem Splits.of_clocked
    (hclocked : ∀ first ∈ store.eventsOf chain.id, ∀ later ∈ store.eventsOf chain.id,
      first.block ≤ later.block → first.timestamp ≤ later.timestamp)
    (hsafe : chain.id = reorg.chain → ∀ event ∈ store.eventsOf chain.id,
      reorg.safeBlock.number < event.block → reorg.safeBlock.timestamp ≤ event.timestamp) :
    store.Splits chain mode reorg where
  tail := by
    intro stale hstale kept hkept htaken hstays
    refine Nat.not_lt.1 fun hlt => ?_
    rw [RollbackScope.invalidatesEvent, chain_of_mem_eventsOf hstale] at htaken
    rw [RollbackScope.invalidatesEvent, chain_of_mem_eventsOf hkept,
      RollbackScope.invalidates_mono hlt.le (hclocked stale hstale kept hkept hlt.le) htaken]
      at hstays
    cases hstays
  safe := by
    intro hid kept hkept hstays
    refine Nat.not_lt.1 fun hlt => ?_
    rw [RollbackScope.invalidatesEvent, chain_of_mem_eventsOf hkept, hid,
      RollbackScope.invalidates_of_safeBlock_lt hlt (hsafe hid kept hkept hlt)] at hstays
    cases hstays

/-- Without a common order of the chains a reorg takes just the events beyond the safe block. -/
theorem Splits.of_unordered : store.Splits chain .unordered reorg where
  tail := by
    intro stale hstale kept hkept htaken hstays
    obtain ⟨hid, hbeyond⟩ := of_decide_eq_true htaken
    have hkeptChain : kept.chain = reorg.chain :=
      (chain_of_mem_eventsOf hkept).trans ((chain_of_mem_eventsOf hstale).symm.trans hid)
    have hbelow := not_and.1 (of_decide_eq_false hstays) hkeptChain
    omega
  safe := by
    intro hid kept hkept hstays
    have hkeptChain : kept.chain = reorg.chain := (chain_of_mem_eventsOf hkept).trans hid
    have hbelow := not_and.1 (of_decide_eq_false hstays) hkeptChain
    omega

section Rollback

variable {checkpoint : Checkpoint} {plan : RollbackPlan}

/-- How far a chain is moved back: to a known block, with nothing behind it left. -/
theorem Traces.rewind_spec (h : store.Traces chain) (hsplits : store.Splits chain mode reorg)
    (hget : tracker.get? chain.id = some checkpoint)
    (hagrees : checkpoint.AgreesWith (store.checkpointOf chain))
    (hsafe : chain.id = reorg.chain →
      reorg.safeBlock.number < (store.checkpointOf chain).openBlock →
        ∃ block ∈ store.blocksOf chain.id, block.number = reorg.safeBlock.number)
    {rewind : Rewind} (hrewind : rewind ∈ store.rewinds (.ofReorg mode reorg) reorg tracker)
    (hchain : rewind.chain = chain.id) :
    min checkpoint.processed rewind.block = rewind.block ∧
      (∀ event ∈ store.eventsOf chain.id,
        (RollbackScope.ofReorg mode reorg).invalidatesEvent event = false →
          event.block ≤ max chain.startBlock (openAfter rewind.block)) ∧
      Grounded chain.startBlock (store.blocksOf chain.id)
        (max chain.startBlock (openAfter rewind.block)) := by
  have hprocessed : tracker.processed chain.id = checkpoint.processed := by
    rw [Tracker.processed, hget, Option.bind_some]
  have hopen : (store.checkpointOf chain).openBlock =
      max chain.startBlock (openAfter checkpoint.processed) := by
    rw [Checkpoint.openBlock, h.startBlock, hagrees.processed]
  have hresumable := h.resumable
  have hevents := fun event hevent => (h.events event hevent).2
  rw [hopen] at hsafe hresumable
  simp only [hopen] at hevents
  rcases List.mem_cons.1 hrewind with rfl | hother
  · -- The forked chain goes back to the safe block, if it is not at most there.
    have hid : chain.id = reorg.chain := hchain.symm
    rw [← hid, hprocessed]
    refine ⟨min_min_processed _ _, ?_, ?_⟩ <;> rw [openAfter_min]
    · intro event hevent hstays
      have hrange := hevents event hevent
      have hbelow := hsplits.safe hid event hevent hstays
      have hsafeBlock : openAfter (some reorg.safeBlock.number) = reorg.safeBlock.number + 1 := rfl
      omega
    · have hsafeBlock : openAfter (some reorg.safeBlock.number) = reorg.safeBlock.number + 1 := rfl
      rcases Nat.le_total (openAfter checkpoint.processed) (reorg.safeBlock.number + 1) with
        hle | hle
      · rwa [hsafeBlock, Nat.min_eq_left hle]
      · rw [hsafeBlock, Nat.min_eq_right hle]
        by_cases hstart : reorg.safeBlock.number + 1 ≤ chain.startBlock
        · rw [Nat.max_eq_left hstart]
          exact Or.inl (Nat.le_refl _)
        · rw [Nat.max_eq_right (by omega)]
          obtain ⟨block, hblock, hnumber⟩ := hsafe hid (by omega)
          exact Or.inr ⟨block, hblock, congrArg (· + 1) hnumber⟩
  · cases mode with
    | unordered => cases hother
    | ordered =>
      obtain ⟨⟨id, lowest⟩, hentry, rfl⟩ := List.mem_map.1 hother
      obtain rfl : id = chain.id := hchain
      obtain ⟨first, hfirst, hstale, rfl⟩ := exists_of_firstInvalidatedBlocks
        (Table.mem_entries_iff.1 (List.mem_of_mem_filter hentry))
      dsimp only
      rw [hprocessed]
      refine ⟨min_min_processed _ _, ?_, ?_⟩ <;> rw [openAfter_min, openAfter_checkedSub]
      · intro event hevent hstays
        have hrange := hevents event hevent
        have hbelow := hsplits.tail first hfirst event hevent hstale hstays
        omega
      · have hlow := (h.events first hfirst).1
        rcases Nat.le_total (openAfter checkpoint.processed) first.block with hle | hle
        · rwa [Nat.min_eq_left hle]
        · rw [Nat.min_eq_right hle, Nat.max_eq_right hlow]
          exact h.grounded first hfirst

/-- A chain that is not moved back has no stale event. -/
theorem invalidatesEvent_of_no_rewind
    (hnone : ∀ rewind ∈ store.rewinds (.ofReorg mode reorg) reorg tracker, rewind.chain ≠ chain.id)
    {event : Event} (hevent : event ∈ store.eventsOf chain.id) :
    (RollbackScope.ofReorg mode reorg).invalidatesEvent event = false := by
  obtain ⟨hmem, hown⟩ := List.mem_filter.1 hevent
  have hid : event.chain = chain.id := of_decide_eq_true hown
  have hreorg : reorg.chain ≠ chain.id := hnone _ List.mem_cons_self
  refine Bool.eq_false_iff.2 fun hstale => ?_
  cases mode with
  | unordered => exact hreorg ((of_decide_eq_true hstale).1.symm.trans hid)
  | ordered =>
    obtain ⟨lowest, hlowest, -⟩ := firstInvalidatedBlocks_le hmem hstale
    rw [hid] at hlowest
    refine hnone _ (List.mem_cons_of_mem _ (List.mem_map.2 ⟨(chain.id, lowest),
      List.mem_filter.2 ⟨Table.mem_entries_iff.2 hlowest, decide_eq_true (Ne.symm hreorg)⟩,
      rfl⟩)) rfl

/-- Nor is a chain moved back that has no stale event, unless it is the forked one. -/
theorem no_rewind_of_stays (hforked : reorg.chain ≠ chain.id)
    (hstays : ∀ event ∈ store.eventsOf chain.id,
      (RollbackScope.ofReorg mode reorg).invalidatesEvent event = false) :
    ∀ rewind ∈ store.rewinds (.ofReorg mode reorg) reorg tracker, rewind.chain ≠ chain.id := by
  intro rewind hrewind hid
  rcases List.mem_cons.1 hrewind with rfl | hother
  · exact hforked hid
  · cases mode with
    | unordered => cases hother
    | ordered =>
      obtain ⟨⟨other, lowest⟩, hentry, rfl⟩ := List.mem_map.1 hother
      obtain rfl : other = chain.id := hid
      obtain ⟨event, hevent, hstale, -⟩ := exists_of_firstInvalidatedBlocks
        (Table.mem_entries_iff.1 (List.mem_of_mem_filter hentry))
      rw [hstays event hevent] at hstale
      cases hstale

theorem eventsOf_applyRollback (store : Store) (plan : RollbackPlan) (id : ChainId) :
    (store.applyRollback plan).eventsOf id =
      (store.eventsOf id).filter fun event => !plan.scope.invalidatesEvent event := by
  rw [eventsOf, eventsOf, List.filter_filter]
  change (store.rawEvents.filter _).filter _ = _
  rw [List.filter_filter]
  exact List.filter_congr fun event _ => Bool.and_comm ..

theorem blocksOf_applyRollback_subset (store : Store) (plan : RollbackPlan) (id : ChainId) :
    (store.applyRollback plan).blocksOf id ⊆ store.blocksOf id := by
  intro block hblock
  obtain ⟨key, hget, hid⟩ := mem_blocksOf.1 hblock
  change (plan.rewinds.foldl dropRewound store.blocks).get? key = some block at hget
  rw [get?_foldl_dropRewound, Option.filter_eq_some_iff] at hget
  exact mem_blocksOf.2 ⟨key, hget.1, hid⟩

/-- What a plan for a reorg holds. -/
structure PlansFor (plan : RollbackPlan) (store : Store) (mode : Mode) (reorg : Reorg)
    (tracker : Tracker) : Prop where
  scope : plan.scope = .ofReorg mode reorg
  rewinds : plan.rewinds = store.rewinds (.ofReorg mode reorg) reorg tracker
  checkpoints : plan.checkpoints = tracker.rewound plan.rewinds

/-- A chain that is not moved back keeps all it has. -/
theorem applyRollback_of_no_rewind (hplan : PlansFor plan store mode reorg tracker)
    (hkeyed : tracker.Keyed) (hnone : ∀ rewind ∈ plan.rewinds, rewind.chain ≠ chain.id) :
    (store.applyRollback plan).eventsOf chain.id = store.eventsOf chain.id ∧
      (∀ number, (store.applyRollback plan).blocks.get? ⟨chain.id, number⟩ =
        store.blocks.get? ⟨chain.id, number⟩) ∧
      (store.applyRollback plan).checkpointOf chain = store.checkpointOf chain ∧
      (tracker.replace plan.checkpoints).get? chain.id = tracker.get? chain.id := by
  refine ⟨?_, fun number => ?_, ?_, ?_⟩
  · rw [eventsOf_applyRollback, hplan.scope]
    refine List.filter_eq_self.2 fun event hevent => ?_
    rw [hplan.rewinds] at hnone
    rw [invalidatesEvent_of_no_rewind hnone hevent, Bool.not_false]
  · have hkept : (plan.rewinds.all fun rewind =>
        chain.id ≠ rewind.chain ∨ rewind.block.any (number ≤ ·)) = true :=
      List.all_eq_true.2 fun rewind hrewind =>
        decide_eq_true (Or.inl (Ne.symm (hnone rewind hrewind)))
    refine (get?_foldl_dropRewound plan.rewinds store.blocks _).trans ?_
    dsimp only
    rw [hkept]
    cases store.blocks.get? ⟨chain.id, number⟩ <;> rfl
  · have hsame : (store.applyRollback plan).checkpoints.get? chain.id =
        store.checkpoints.get? chain.id := by
      change (putCheckpoints _ plan.checkpoints).get? _ = _
      rw [hplan.checkpoints]
      exact putRewound_of_not_mem hkeyed hnone
    rw [checkpointOf, checkpointOf, hsame]
  · change (putCheckpoints tracker.checkpoints plan.checkpoints).get? _ = _
    rw [hplan.checkpoints]
    exact putRewound_of_not_mem hkeyed hnone

theorem applyRollback_of_rewind (hplan : PlansFor plan store mode reorg tracker)
    (hkeyed : tracker.Keyed) (hget : tracker.get? chain.id = some checkpoint) {rewind : Rewind}
    (hrewind : rewind ∈ plan.rewinds) (hchain : rewind.chain = chain.id) :
    (∀ number, (store.applyRollback plan).blocks.get? ⟨chain.id, number⟩ =
        (store.blocks.get? ⟨chain.id, number⟩).filter fun _ => rewind.block.any (number ≤ ·)) ∧
      (store.applyRollback plan).checkpointOf chain = checkpoint.rewind rewind.block ∧
      (tracker.replace plan.checkpoints).get? chain.id = some (checkpoint.rewind rewind.block) := by
  have hnodup : (plan.rewinds.map (·.chain)).Nodup := by
    rw [hplan.rewinds]
    exact store.rewinds_nodup _ _ _
  have hput : ∀ table : Table ChainId Checkpoint,
      (putCheckpoints table plan.checkpoints).get? chain.id =
        some (checkpoint.rewind rewind.block) := by
    intro table
    rw [hplan.checkpoints, ← hchain]
    exact get?_putRewound hkeyed hnodup hrewind (hchain ▸ hget)
  refine ⟨fun number => ?_, ?_, hput _⟩
  · have hkept : (plan.rewinds.all fun other =>
        chain.id ≠ other.chain ∨ other.block.any (number ≤ ·)) =
          rewind.block.any (number ≤ ·) := by
      rw [Bool.eq_iff_iff, List.all_eq_true]
      refine ⟨fun hall => ?_, fun hany other hother => decide_eq_true ?_⟩
      · exact (of_decide_eq_true (hall rewind hrewind)).resolve_left fun hne => hne hchain.symm
      · by_cases hid : chain.id = other.chain
        · obtain rfl : rewind = other :=
            List.inj_on_of_nodup_map hnodup hrewind hother (hchain.trans hid)
          exact Or.inr hany
        · exact Or.inl hid
    refine (get?_foldl_dropRewound plan.rewinds store.blocks _).trans ?_
    dsimp only
    rw [hkept]
  · have hstored : (store.applyRollback plan).checkpoints.get? chain.id =
        some (checkpoint.rewind rewind.block) := hput _
    rw [checkpointOf, hstored, Option.getD_some]

theorem Traces.congr {after : Store} (h : store.Traces chain)
    (hevents : after.eventsOf chain.id = store.eventsOf chain.id)
    (hblocks : ∀ number, after.blocks.get? ⟨chain.id, number⟩ =
      store.blocks.get? ⟨chain.id, number⟩)
    (hcheckpoint : after.checkpointOf chain = store.checkpointOf chain) :
    after.Traces chain ∧ after.blocksOf chain.id ⊆ store.blocksOf chain.id ∧
      store.blocksOf chain.id ⊆ after.blocksOf chain.id := by
  have hmem : ∀ block, block ∈ after.blocksOf chain.id ↔ block ∈ store.blocksOf chain.id := by
    intro block
    rw [mem_blocksOf, mem_blocksOf]
    constructor
    · rintro ⟨⟨id, number⟩, hget, rfl⟩
      exact ⟨_, (hblocks number).symm.trans hget, rfl⟩
    · rintro ⟨⟨id, number⟩, hget, rfl⟩
      exact ⟨_, (hblocks number).trans hget, rfl⟩
  have hsubset : store.blocksOf chain.id ⊆ after.blocksOf chain.id := fun block hblock =>
    (hmem block).2 hblock
  refine ⟨⟨?_, ?_, fun number block hget => ?_, ?_, fun block hblock => ?_, ?_, ?_⟩,
    fun block hblock => (hmem block).1 hblock, hsubset⟩
  · rw [hcheckpoint]
    exact h.startBlock
  · rw [hcheckpoint]
    exact h.position
  · exact h.numbered number block ((hblocks number).symm.trans hget)
  · rw [hevents, hcheckpoint]
    exact h.events
  · rw [hcheckpoint]
    exact h.blocks block ((hmem block).1 hblock)
  · rw [hcheckpoint]
    exact h.resumable.mono hsubset
  · rw [hevents]
    exact fun event hevent => (h.grounded event hevent).mono hsubset

/-- A rollback leaves a store that can be resumed, whatever chain was forked. -/
theorem Traces.applyRollback (h : store.Traces chain) (hsplits : store.Splits chain mode reorg)
    (hkeyed : tracker.Keyed) (hget : tracker.get? chain.id = some checkpoint)
    (hagrees : checkpoint.AgreesWith (store.checkpointOf chain))
    (hsafe : chain.id = reorg.chain →
      reorg.safeBlock.number < (store.checkpointOf chain).openBlock →
        ∃ block ∈ store.blocksOf chain.id, block.number = reorg.safeBlock.number)
    (hplan : PlansFor plan store mode reorg tracker) :
    (store.applyRollback plan).Traces chain ∧
      ∃ checkpoint, (tracker.replace plan.checkpoints).get? chain.id = some checkpoint ∧
        checkpoint.AgreesWith ((store.applyRollback plan).checkpointOf chain) := by
  by_cases hnone : ∀ rewind ∈ plan.rewinds, rewind.chain ≠ chain.id
  · obtain ⟨hevents, hblocks, hcheckpoint, htracker⟩ :=
      applyRollback_of_no_rewind hplan hkeyed hnone
    refine ⟨(h.congr hevents hblocks hcheckpoint).1, checkpoint, htracker.trans hget, ?_⟩
    rwa [hcheckpoint]
  · push Not at hnone
    obtain ⟨rewind, hrewind, hchain⟩ := hnone
    obtain ⟨hblocks, hcheckpoint, htracker⟩ :=
      applyRollback_of_rewind hplan hkeyed hget hrewind hchain
    obtain ⟨htarget, hbound, hground⟩ := h.rewind_spec hsplits hget hagrees hsafe
      (hplan.rewinds ▸ hrewind) hchain
    refine ⟨h.rewind hagrees htarget hcheckpoint hblocks (fun event hevent => ?_) hground,
      _, htracker, hcheckpoint ▸ ⟨rfl, rfl, rfl, rfl, rfl⟩⟩
    rw [eventsOf_applyRollback, hplan.scope, List.mem_filter, Bool.not_eq_true'] at hevent
    exact ⟨hevent.1, hbound event hevent.1 hevent.2⟩

end Rollback

end Store

end ChainIndexer
