import ChainIndexer.Proofs.History
import ChainIndexer.Proofs.Rollback.Resumption

/-!
# Rolling back once more

A rollback that is applied again changes nothing: each filter has dropped what it drops, and each
table holds what is put into it. The same reorg that is planned again, from where the rollback led
to, finds nothing stale, so it asks for no more than that the reorged chain goes back to where it
already is.
-/

namespace ChainIndexer

/-! ### Parts of a rollback, twice -/

namespace Store

theorem filter_filter_self {α : Type} (keep : α → Bool) (items : List α) :
    (items.filter keep).filter keep = items.filter keep :=
  List.filter_eq_self.2 fun _ hitem => (List.mem_filter.1 hitem).2

theorem filter_filter_not {α : Type} (stale : α → Bool) (items : List α) :
    (items.filter fun item => !stale item).filter stale = [] := by
  refine List.filter_eq_nil_iff.2 fun item hitem hstale => ?_
  rw [List.mem_filter, hstale] at hitem
  cases hitem.2

theorem applyChanges_applyChanges (entities : Table EntityKey Json) (changes : List EntityChange) :
    applyChanges (applyChanges entities changes) changes = applyChanges entities changes := by
  have hchanges : changes = (changes.map fun change => (change, Origin.genesis)).map (·.1) := by
    rw [List.map_map]
    exact (List.map_id _).symm
  refine Table.ext_get? fun key => ?_
  rw [hchanges, get?_applyChanges, get?_applyChanges]
  cases lastWrite? (changes.map fun change => (change, Origin.genesis)) key <;> rfl

theorem putCheckpoints_putCheckpoints (table : Table ChainId Checkpoint)
    (checkpoints : List Checkpoint) :
    putCheckpoints (putCheckpoints table checkpoints) checkpoints =
      putCheckpoints table checkpoints := by
  refine Table.ext_get? fun chain => ?_
  rw [putCheckpoints, putCheckpoints, Table.get?_insertAll, Table.get?_insertAll, ← Option.or_assoc,
    Option.or_self]

/-- Checkpoints that are stored already can be stored again. -/
theorem putCheckpoints_eq_self {table : Table ChainId Checkpoint} {checkpoints : List Checkpoint}
    (h : ∀ checkpoint ∈ checkpoints, table.get? checkpoint.chain = some checkpoint) :
    putCheckpoints table checkpoints = table := by
  refine Table.ext_get? fun chain => ?_
  rw [putCheckpoints, Table.get?_insertAll]
  cases hfound : (checkpoints.map fun checkpoint => (checkpoint.chain, checkpoint)).reverse.find?
      (·.1 = chain) with
  | none => rfl
  | some entry =>
    obtain ⟨checkpoint, hmem, rfl⟩ :=
      List.mem_map.1 (List.mem_reverse.1 (List.mem_of_find?_eq_some hfound))
    have hchain : checkpoint.chain = chain := by simpa using List.find?_some hfound
    rw [← hchain, h checkpoint hmem]
    rfl

/-- Blocks that a rewind would drop are gone after rewinds of which it is one. -/
theorem foldl_dropRewound_of_subset {again rewinds : List Rewind} (hsubset : again ⊆ rewinds)
    (blocks : Table BlockKey Block) :
    again.foldl dropRewound (rewinds.foldl dropRewound blocks) =
      rewinds.foldl dropRewound blocks := by
  refine Table.ext_get? fun key => ?_
  rw [get?_foldl_dropRewound, get?_foldl_dropRewound, Option.filter_filter]
  congr 1
  funext _
  rw [Bool.and_eq_left_iff_imp, List.all_eq_true, List.all_eq_true]
  exact fun hall rewind hrewind => hall rewind (hsubset hrewind)

variable {store : Store} {plan again : RollbackPlan}

/-- What a rollback leaves alone it leaves alone again. A plan of the same scope that puts nothing
new and goes back no further changes nothing. -/
theorem applyRollback_again (hscope : again.scope = plan.scope)
    (hrestores : applyChanges (store.applyRollback plan).entities again.restores =
      (store.applyRollback plan).entities)
    (hcheckpoints : putCheckpoints (store.applyRollback plan).checkpoints again.checkpoints =
      (store.applyRollback plan).checkpoints)
    (hrewinds : again.rewinds ⊆ plan.rewinds) :
    (store.applyRollback plan).applyRollback again = store.applyRollback plan := by
  have hregistrations (table : Table ChainAddress Registration)
      (keep : ChainAddress → Registration → Bool) : (table.filter keep).filter keep =
        table.filter keep := by
    refine Table.ext_get? fun key => ?_
    rw [Table.get?_filter, Table.get?_filter, Option.filter_filter]
    simp only [Bool.and_self]
  rw [applyRollback, hscope, hrestores, hcheckpoints]
  simp only [applyRollback, filter_filter_self, hregistrations,
    foldl_dropRewound_of_subset hrewinds]

/-- Applying a plan twice is applying it once. -/
theorem applyRollback_applyRollback (store : Store) (plan : RollbackPlan) :
    (store.applyRollback plan).applyRollback plan = store.applyRollback plan :=
  applyRollback_again rfl (applyChanges_applyChanges _ _) (putCheckpoints_putCheckpoints _ _)
    (List.Subset.refl _)

/-- After a rollback no record and no raw event in its scope is left. -/
theorem historyIn_applyRollback (store : Store) (plan : RollbackPlan) :
    (store.applyRollback plan).historyIn plan.scope = [] :=
  filter_filter_not (fun record : HistoryRecord => plan.scope.invalidatesOrigin record.origin)
    store.history

theorem firstInvalidatedBlocks_applyRollback (store : Store) (plan : RollbackPlan) :
    (store.applyRollback plan).firstInvalidatedBlocks plan.scope = .empty := by
  have hnone := filter_filter_not plan.scope.invalidatesEvent store.rawEvents
  rw [firstInvalidatedBlocks, applyRollback]
  exact congrArg (·.foldl noteLowest .empty) hnone

end Store

/-! ### Trackers that were rewound -/

theorem min_min_block (processed block : Option Nat) :
    min (min processed block) block = min processed block := by
  cases processed with
  | none => cases block <;> rfl
  | some processed =>
    cases block with
    | none => rfl
    | some block =>
      change some (min (min processed block) block) = some (min processed block)
      rw [Nat.min_assoc, Nat.min_self]

namespace Checkpoint

theorem rewind_rewind (checkpoint : Checkpoint) (block : Option Nat) :
    (checkpoint.rewind block).rewind block = checkpoint.rewind block := by
  have hfilter (position : Option Position) (keep : Position → Bool) :
      (position.filter keep).filter keep = position.filter keep := by
    rw [Option.filter_filter]
    simp only [Bool.and_self]
  simp only [rewind, min_min_block, hfilter]

end Checkpoint

namespace Tracker

/-- How far a reorg takes its own chain back. -/
def rewindOf (tracker : Tracker) (reorg : Reorg) : Rewind :=
  ⟨reorg.chain, min (tracker.processed reorg.chain) (some reorg.safeBlock.number)⟩

variable {tracker : Tracker} {rewinds : List Rewind} {rewind : Rewind}

/-- A tracker has a rewound chain where its rewind took it. -/
theorem get?_replace_rewound (hkeyed : tracker.Keyed) (hnodup : (rewinds.map (·.chain)).Nodup)
    (hmem : rewind ∈ rewinds) :
    (tracker.replace (tracker.rewound rewinds)).get? rewind.chain =
      (tracker.get? rewind.chain).map (·.rewind rewind.block) := by
  cases hget : tracker.get? rewind.chain with
  | none => exact (Store.get?_putRewound_of_none hkeyed hget).trans hget
  | some checkpoint => exact Store.get?_putRewound hkeyed hnodup hmem hget

/-- A chain that was taken back by a reorg is taken back to the same block again. -/
theorem rewindOf_replace_rewound (hkeyed : tracker.Keyed)
    (hnodup : (rewinds.map (·.chain)).Nodup) {reorg : Reorg}
    (hmem : tracker.rewindOf reorg ∈ rewinds) :
    (tracker.replace (tracker.rewound rewinds)).rewindOf reorg = tracker.rewindOf reorg := by
  have hget : (tracker.replace (tracker.rewound rewinds)).get? reorg.chain =
      (tracker.get? reorg.chain).map (·.rewind (tracker.rewindOf reorg).block) :=
    get?_replace_rewound hkeyed hnodup hmem
  refine congrArg (Rewind.mk reorg.chain) ?_
  rw [rewindOf, processed] at hget
  rw [processed, processed, hget]
  cases tracker.get? reorg.chain with
  | none => rfl
  | some checkpoint =>
    change min (min checkpoint.processed (min checkpoint.processed _)) _ = _
    rw [min_min_processed, min_min_block]
    rfl

theorem rewound_replace_rewound (hkeyed : tracker.Keyed)
    (hnodup : (rewinds.map (·.chain)).Nodup) (hmem : rewind ∈ rewinds) :
    (tracker.replace (tracker.rewound rewinds)).rewound [rewind] =
      ((tracker.get? rewind.chain).map (·.rewind rewind.block)).toList := by
  rw [rewound, List.filterMap_cons, get?_replace_rewound hkeyed hnodup hmem]
  cases tracker.get? rewind.chain with
  | none => rfl
  | some checkpoint => simp only [Option.map_some, Checkpoint.rewind_rewind, List.filterMap_nil,
      Option.toList_some]

end Tracker

/-! ### The same reorg again -/

namespace RollbackPlan

variable {mode : Mode} {reorg : Reorg} {tracker : Tracker} {store after : Store}
  {plan : RollbackPlan}

/-- Without stale raw events only the reorged chain goes back. -/
theorem rewinds_applyRollback (hscope : plan.scope = .ofReorg mode reorg) (tracker' : Tracker) :
    (store.applyRollback plan).rewinds (.ofReorg mode reorg) reorg tracker' =
      [tracker'.rewindOf reorg] := by
  have hblocks := store.firstInvalidatedBlocks_applyRollback plan
  rw [hscope] at hblocks
  cases mode with
  | unordered => rfl
  | ordered =>
    unfold Store.rewinds RollbackScope.ofReorg at *
    rw [hblocks]
    rfl

/-- Once a plan is applied the same reorg finds nothing to restore. -/
theorem make_again (hscope : plan.scope = .ofReorg mode reorg) (tracker : Tracker) :
    make Repo.inMemory mode reorg tracker (store.applyRollback plan) =
      (.ok
        { scope := .ofReorg mode reorg
          restores := []
          rewinds := [tracker.rewindOf reorg]
          checkpoints := tracker.rewound [tracker.rewindOf reorg] },
        store.applyRollback plan) := by
  have hhistory : (store.applyRollback plan).historyIn (.ofReorg mode reorg) = [] :=
    hscope ▸ store.historyIn_applyRollback plan
  have hnone : ∀ entry ∈ (earliest ((store.applyRollback plan).historyIn
      (.ofReorg mode reorg))).entries, entry.2.key = entry.1 ∧
        (store.applyRollback plan).restore? entry.2 = some (.delete entry.1) := by
    intro entry hentry
    rw [hhistory] at hentry
    cases hentry
  rw [make_inMemory hnone, hhistory, rewinds_applyRollback hscope]
  rfl

/-- Applying a plan twice is applying it once. The same reorg, planned again with the store and the
tracker that the plan leads to, restores nothing and takes the reorged chain alone to the same
block, with the checkpoint that is stored, if the run has that chain. To apply this changes
nothing. -/
theorem replan_settled (hkeyed : tracker.Keyed)
    (hmake : make Repo.inMemory mode reorg tracker store = (.ok plan, after)) :
    (store.applyRollback plan).applyRollback plan = store.applyRollback plan ∧
      ∃ own others again,
        plan.rewinds = own :: others ∧ own.chain = reorg.chain ∧
        make Repo.inMemory mode reorg (tracker.replace plan.checkpoints)
          (store.applyRollback plan) = (.ok again, store.applyRollback plan) ∧
        again.restores = [] ∧ again.rewinds = [own] ∧
        (∀ checkpoint, tracker.get? reorg.chain = some checkpoint →
          ∃ stored, (store.applyRollback plan).checkpoints.get? reorg.chain = some stored ∧
            again.checkpoints = [stored]) ∧
        (tracker.get? reorg.chain = none → again.checkpoints = []) ∧
        (store.applyRollback plan).applyRollback again = store.applyRollback plan := by
  refine ⟨store.applyRollback_applyRollback plan, ?_⟩
  obtain ⟨hscope, hrewinds, hcheckpoints⟩ := eq_of_make hmake
  have hnodup : (plan.rewinds.map (·.chain)).Nodup := hrewinds ▸ Store.rewinds_nodup ..
  have hmem : tracker.rewindOf reorg ∈ plan.rewinds := hrewinds ▸ List.mem_cons_self
  have hremake : make Repo.inMemory mode reorg (tracker.replace plan.checkpoints)
      (store.applyRollback plan) = _ := make_again hscope _
  rw [hcheckpoints, Tracker.rewindOf_replace_rewound hkeyed hnodup hmem,
    Tracker.rewound_replace_rewound hkeyed hnodup hmem, ← hcheckpoints] at hremake
  have hstored : ∀ checkpoint, tracker.get? reorg.chain = some checkpoint →
      (store.applyRollback plan).checkpoints.get? reorg.chain =
        some (checkpoint.rewind (tracker.rewindOf reorg).block) := by
    intro checkpoint hget
    rw [Store.applyRollback, hcheckpoints]
    exact Store.get?_putRewound hkeyed hnodup hmem hget
  have hagain {found : Option Checkpoint} (hget : tracker.get? reorg.chain = found) :=
    congrArg (fun found => (found.map (·.rewind (tracker.rewindOf reorg).block)).toList) hget
  refine ⟨_, _, _, hrewinds, rfl, hremake, rfl, rfl, fun checkpoint hget => ?_, hagain,
    Store.applyRollback_again hscope.symm rfl ?_ (List.forall_mem_singleton.2 hmem)⟩
  · exact ⟨_, hstored checkpoint hget, hagain hget⟩
  · refine Store.putCheckpoints_eq_self fun stored hstoredAgain => ?_
    obtain ⟨checkpoint, hget, rfl⟩ := Option.map_eq_some_iff.1 (Option.mem_toList.1 hstoredAgain)
    have hkey : checkpoint.chain = reorg.chain := hkeyed _ _ hget
    exact (congrArg _ hkey).trans (hstored checkpoint hget)

end RollbackPlan

/-! ### Samples -/

/-- Two chains, of which the first one wrote an entity at block thirty and again at block fifty. -/
def Store.overwritten : Store :=
  { Store.empty with
    entities := .ofList [(⟨"Account", "0xA"⟩, .int 15)]
    history :=
      [⟨.ofChange (.set ⟨"Account", "0xA"⟩ (.int 5)) ⟨1, 30, 300, 0⟩ .genesis, 1⟩,
        ⟨.ofChange (.set ⟨"Account", "0xA"⟩ (.int 15)) ⟨1, 50, 500, 0⟩ ⟨1, 30, 300, 0⟩, 2⟩]
    lastSerial := 2
    rawEvents := [.placed 1 30 0, .placed 1 50 0, .placed 2 52 0]
    checkpoints := .ofList [(1, .placed 1 50 ⟨50, 0⟩), (2, .placed 2 52 ⟨52, 0⟩)] }

/-- The tracker of a run of both chains. -/
def Tracker.overwritten : Tracker :=
  .start [⟨1, 0, none⟩, ⟨2, 0, none⟩] Store.overwritten.checkpoints.values

/-- What is planned when the first chain forks above block forty. -/
def RollbackPlan.ofOverwritten : RollbackPlan where
  scope := .global 1 40 400
  restores := [.set ⟨"Account", "0xA"⟩ (.int 5)]
  rewinds := [⟨1, some 40⟩, ⟨2, some 51⟩]
  checkpoints :=
    [(Checkpoint.placed 1 50 ⟨50, 0⟩).rewind (some 40),
      (Checkpoint.placed 2 52 ⟨52, 0⟩).rewind (some 51)]

/-- The entity goes back to its first value. When the fork is planned again only the first chain is
taken back, to where it is. -/
theorem RollbackPlan.overwritten_settled :
    make Repo.inMemory .ordered (.placed 1 40) .overwritten .overwritten =
        (.ok ofOverwritten, .overwritten) ∧
      ∃ again, make Repo.inMemory .ordered (.placed 1 40)
          (Tracker.overwritten.replace ofOverwritten.checkpoints)
          (Store.overwritten.applyRollback ofOverwritten) =
            (.ok again, Store.overwritten.applyRollback ofOverwritten) ∧
        again.rewinds = [⟨1, some 40⟩] ∧
        (Store.overwritten.applyRollback ofOverwritten).applyRollback again =
          Store.overwritten.applyRollback ofOverwritten := by
  have hmake : make Repo.inMemory .ordered (.placed 1 40) .overwritten .overwritten =
      (.ok ofOverwritten, .overwritten) := rfl
  obtain ⟨-, own, others, again, hown, -, hagain, -, hrewinds, -, -, hsettled⟩ :=
    replan_settled (Tracker.start_keyed _ _) hmake
  cases hown
  exact ⟨hmake, again, hagain, hrewinds, hsettled⟩

end ChainIndexer
