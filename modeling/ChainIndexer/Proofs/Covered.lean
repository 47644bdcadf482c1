import ChainIndexer.Proofs.Coverage
import ChainIndexer.Proofs.Pipeline.Boot
import Mathlib.Data.Set.Insert

/-!
# How updates and rewinds change what is covered

The positions that a checkpoint covers form a set. An update unites it with what the progress
reaches; a rewind cuts it at a block, and leaves the blocks before the start of the chain in it,
which no checkpoint ever uncovers. When a chain caught up is no part of this: it is set once.
-/

namespace ChainIndexer

namespace Checkpoint

/-- The positions that indexing does not come back to. -/
def covered (checkpoint : Checkpoint) : Set Position :=
  {position | position.block < checkpoint.resumeBlock ∨
    ∃ through ∈ checkpoint.skipThrough, position ≤ through}

theorem mem_covered {checkpoint : Checkpoint} {position : Position} :
    position ∈ checkpoint.covered ↔ checkpoint.covers position = true := by
  simp only [covered, Set.mem_ofPred_eq, covers, Bool.or_eq_true, decide_eq_true_eq,
    Option.any_eq_true, Option.mem_def]

/-- A last position where the events of a run leave it: in the block after the processed one at the
highest, and in the first block if none is processed. -/
structure Anchored (checkpoint : Checkpoint) : Prop where
  start : ∀ last ∈ checkpoint.position, checkpoint.startBlock ≤ last.block
  next : ∀ last ∈ checkpoint.position, ∀ processed ∈ checkpoint.processed,
    last.block ≤ processed + 1
  first : checkpoint.processed = none →
    ∀ last ∈ checkpoint.position, last.block = checkpoint.startBlock

/-- A last position that a rewind drops leaves nothing behind that the processed blocks did not
cover already. -/
theorem Anchored.reaches_of_dropped {checkpoint : Checkpoint} (h : checkpoint.Anchored)
    {last position : Position} {target : Nat} (hlast : checkpoint.position = some last)
    (hdropped : target < last.block) (htarget : position.block ≤ target) :
    position.block < checkpoint.startBlock ∨
      ∃ processed, checkpoint.processed = some processed ∧ position.block ≤ processed := by
  cases hprocessed : checkpoint.processed with
  | none =>
    have hfirst := h.first hprocessed last hlast
    exact Or.inl (by omega)
  | some processed =>
    have hnext := h.next last hlast processed hprocessed
    exact Or.inr ⟨processed, rfl, by omega⟩

theorem rewind_position_eq_some {checkpoint : Checkpoint} {target : Option Nat} {last : Position} :
    (checkpoint.rewind target).position = some last ↔
      checkpoint.position = some last ∧ ∃ block ∈ target, last.block ≤ block := by
  rw [rewind, Option.filter_eq_some_iff]
  cases target <;> simp

theorem rewind_processed_reaches {checkpoint : Checkpoint} {target : Option Nat} {block : Nat} :
    (∃ processed, (checkpoint.rewind target).processed = some processed ∧ block ≤ processed) ↔
      (∃ processed, checkpoint.processed = some processed ∧ block ≤ processed) ∧
        ∃ through ∈ target, block ≤ through := by
  have hmin : (checkpoint.rewind target).processed = min checkpoint.processed target := rfl
  rw [hmin]
  cases checkpoint.processed <;> cases target <;> simp

/-- A rewind keeps what is covered up to its block, and the blocks before the start. -/
theorem Anchored.covers_rewind {checkpoint : Checkpoint} (h : checkpoint.Anchored)
    (target : Option Nat) (position : Position) :
    (checkpoint.rewind target).covers position = true ↔
      checkpoint.covers position = true ∧ (∃ block ∈ target, position.block ≤ block) ∨
        position.block < checkpoint.startBlock := by
  have hstart : ∀ last, (checkpoint.rewind target).position = some last →
      checkpoint.startBlock ≤ last.block := fun last hlast =>
    h.start last (rewind_position_eq_some.1 hlast).1
  rw [covers_iff h.start]
  refine (covers_iff hstart position).trans ?_
  rw [rewind_processed_reaches]
  constructor
  · rintro (hbefore | ⟨hprocessed, htarget⟩ | ⟨last, hlast, hle⟩)
    · exact Or.inr hbefore
    · exact Or.inl ⟨Or.inr (Or.inl hprocessed), htarget⟩
    · obtain ⟨hlast, block, hblock, hkept⟩ := rewind_position_eq_some.1 hlast
      have hposition := Position.block_le_of_le hle
      exact Or.inl ⟨Or.inr (Or.inr ⟨last, hlast, hle⟩), block, hblock, by omega⟩
  · rintro (⟨hcovered, block, hblock, hle⟩ | hbefore)
    · rcases hcovered with hbefore | hprocessed | ⟨last, hlast, hthrough⟩
      · exact Or.inl hbefore
      · exact Or.inr (Or.inl ⟨hprocessed, block, hblock, hle⟩)
      · -- The last position stays unless its block is undone.
        rcases Nat.lt_or_ge block last.block with hdropped | hkept
        · refine (h.reaches_of_dropped hlast hdropped hle).imp_right fun hprocessed => ?_
          exact Or.inl ⟨hprocessed, block, hblock, hle⟩
        · have hposition := rewind_position_eq_some.2 ⟨hlast, block, hblock, hkept⟩
          exact Or.inr (Or.inr ⟨last, hposition, hthrough⟩)
    · exact Or.inl hbefore

theorem covered_update {checkpoint : Checkpoint} {progress : Progress} (now : Int)
    (hstart : ∀ last ∈ checkpoint.position, checkpoint.startBlock ≤ last.block)
    (hposition : ∀ last ∈ progress.position, checkpoint.startBlock ≤ last.block) :
    (checkpoint.update progress now).covered =
      checkpoint.covered
        ∪ {position | ∃ processed ∈ progress.processed, position.block ≤ processed}
        ∪ {position | ∃ last ∈ progress.position, position ≤ last} := by
  ext position
  rw [mem_covered, covers_update now hstart hposition, Set.union_assoc, Set.mem_union, mem_covered,
    Bool.or_eq_true, Progress.reaches, Bool.or_eq_true, Option.any_eq_true, Option.any_eq_true]
  simp only [decide_eq_true_eq]
  exact Iff.rfl

theorem Anchored.covered_rewind {checkpoint : Checkpoint} (h : checkpoint.Anchored)
    (target : Option Nat) :
    (checkpoint.rewind target).covered =
      {position ∈ checkpoint.covered | ∃ block ∈ target, position.block ≤ block}
        ∪ {position | position.block < checkpoint.startBlock} := by
  ext position
  rw [mem_covered, h.covers_rewind, Set.mem_union, Set.mem_sep_iff, mem_covered, Set.mem_ofPred_eq]

end Checkpoint

/-! ### When chains caught up -/

namespace Tracker

variable {tracker : Tracker} {chain : ChainId} {time : Int}

/-- When a chain was first live or finished, in seconds. -/
def caughtUpAt (tracker : Tracker) (chain : ChainId) : Option Int :=
  (tracker.get? chain).bind (·.caughtUpAt)

theorem caughtUpAt_replace {checkpoints : List Checkpoint}
    (h : ∀ after ∈ checkpoints, ∃ before, tracker.get? after.chain = some before ∧
      (before.caughtUpAt = some time → after.caughtUpAt = some time))
    (htime : tracker.caughtUpAt chain = some time) :
    (tracker.replace checkpoints).caughtUpAt chain = some time := by
  rw [caughtUpAt, get?, replace, Table.get?_insertAll]
  cases hfind : (checkpoints.map fun checkpoint => (checkpoint.chain, checkpoint)).reverse.find?
      (·.1 = chain) with
  | none => exact htime
  | some entry =>
    have hmem := List.mem_reverse.1 (List.mem_of_find?_eq_some hfind)
    have hchain : entry.1 = chain := by simpa using List.find?_some hfind
    obtain ⟨after, hafter, rfl⟩ := List.mem_map.1 hmem
    obtain ⟨before, hbefore, hkept⟩ := h after hafter
    rw [caughtUpAt, ← hchain, hbefore] at htime
    exact hkept htime

theorem caughtUpAt_updated (hkeyed : tracker.Keyed) (progress : List Progress) (now : Int)
    (htime : tracker.caughtUpAt chain = some time) :
    (tracker.replace (tracker.updated progress now)).caughtUpAt chain = some time := by
  refine caughtUpAt_replace (fun after hafter => ?_) htime
  obtain ⟨entry, -, hentry⟩ := List.mem_filterMap.1 hafter
  obtain ⟨before, hbefore, rfl⟩ := Option.map_eq_some_iff.1 hentry
  refine ⟨before, ?_, fun hset => ?_⟩
  · change tracker.get? before.chain = some before
    rw [hkeyed entry.chain before hbefore]
    exact hbefore
  · change before.caughtUpAt.or _ = some time
    rw [hset, Option.some_or]

theorem caughtUpAt_rewound (hkeyed : tracker.Keyed) (rewinds : List Rewind)
    (htime : tracker.caughtUpAt chain = some time) :
    (tracker.replace (tracker.rewound rewinds)).caughtUpAt chain = some time := by
  refine caughtUpAt_replace (fun after hafter => ?_) htime
  obtain ⟨rewind, -, hrewind⟩ := List.mem_filterMap.1 hafter
  obtain ⟨before, hbefore, rfl⟩ := Option.map_eq_some_iff.1 hrewind
  refine ⟨before, ?_, id⟩
  change tracker.get? before.chain = some before
  rw [hkeyed rewind.chain before hbefore]
  exact hbefore

/-- A run goes on with the time that is stored. -/
theorem caughtUpAt_start {chains : List Chain} (hchains : (chains.map (·.id)).Nodup)
    {stored : List Checkpoint} (hstored : (stored.map (·.chain)).Nodup) {checkpoint : Checkpoint}
    (hmem : checkpoint ∈ stored) (hchain : checkpoint.chain ∈ chains.map (·.id)) :
    (start chains stored).caughtUpAt checkpoint.chain = checkpoint.caughtUpAt := by
  obtain ⟨chain, hmem_chain, hid⟩ := List.mem_map.1 hchain
  have hread : (Table.ofList (stored.map fun checkpoint => (checkpoint.chain, checkpoint))).get?
      chain.id = some checkpoint := by
    refine Table.get?_insertAll_of_mem ?_ (List.mem_map.2 ⟨checkpoint, hmem, by rw [hid]⟩)
    rwa [List.map_map]
  have hget : (start chains stored).get? chain.id = some (checkpoint.resume chain) := by
    rw [start, startAll_eq hchains, get?]
    refine Table.get?_insertAll_of_mem ?_ (List.mem_map.2 ⟨chain, hmem_chain, ?_⟩)
    · rwa [List.map_map]
    · rw [resumed, hread]
  rw [caughtUpAt, ← hid, hget]
  rfl

end Tracker

/-- An update unites what a checkpoint covers with what its progress reaches, so it uncovers
nothing; a rewind keeps of it the blocks up to its target and those before the start, so it covers
nothing more. The time at which a chain caught up outlasts updates, rewinds and restarts. -/
theorem Checkpoint.Anchored.covered_laws {checkpoint : Checkpoint} (h : checkpoint.Anchored) :
    (∀ (progress : Progress) (now : Int),
      (∀ last ∈ progress.position, checkpoint.startBlock ≤ last.block) →
        (checkpoint.update progress now).covered =
            checkpoint.covered
              ∪ {position | ∃ processed ∈ progress.processed, position.block ≤ processed}
              ∪ {position | ∃ last ∈ progress.position, position ≤ last} ∧
          checkpoint.covered ⊆ (checkpoint.update progress now).covered) ∧
      (∀ target : Option Nat,
        (checkpoint.rewind target).covered =
            {position ∈ checkpoint.covered | ∃ block ∈ target, position.block ≤ block}
              ∪ {position | position.block < checkpoint.startBlock} ∧
          (checkpoint.rewind target).covered ⊆ checkpoint.covered) ∧
      (∀ (tracker : Tracker) (chain : ChainId) (time : Int), tracker.Keyed →
        tracker.caughtUpAt chain = some time →
          (∀ progress now,
            (tracker.replace (tracker.updated progress now)).caughtUpAt chain = some time) ∧
          ∀ rewinds, (tracker.replace (tracker.rewound rewinds)).caughtUpAt chain = some time) ∧
      ∀ (chains : List Chain) (stored : List Checkpoint), (chains.map (·.id)).Nodup →
        (stored.map (·.chain)).Nodup → ∀ before ∈ stored, before.chain ∈ chains.map (·.id) →
          (Tracker.start chains stored).caughtUpAt before.chain = before.caughtUpAt := by
  refine ⟨fun progress now hposition => ?_, fun target => ?_,
    fun tracker chain time hkeyed htime => ?_,
    fun chains stored hchains hstored before hmem hchain =>
      Tracker.caughtUpAt_start hchains hstored hmem hchain⟩
  · have hupdate := covered_update now h.start hposition
    refine ⟨hupdate, ?_⟩
    rw [hupdate, Set.union_assoc]
    exact Set.subset_union_left
  · have hrewind := h.covered_rewind target
    refine ⟨hrewind, ?_⟩
    rw [hrewind]
    refine Set.union_subset (Set.sep_subset ..) fun position hbefore => ?_
    exact mem_covered.2 (covers_of_block_lt_start h.start hbefore)
  · exact ⟨fun progress now => Tracker.caughtUpAt_updated hkeyed progress now htime,
      fun rewinds => Tracker.caughtUpAt_rewound hkeyed rewinds htime⟩

/-- What a chain does after a unit that ended within block 5. -/
def Progress.furtherOn : Progress :=
  { Progress.none 1 with processed := some 6, position := some ⟨7, 0⟩, events := 3 }

namespace Checkpoint

/-- A checkpoint within block 5: two events of it are committed, and blocks 3 and 4 are
processed. -/
def partway : Checkpoint :=
  { (default : Checkpoint) with
    chain := 1
    startBlock := 3
    fetched := some 9
    processed := some 4
    position := some ⟨5, 1⟩
    events := 2
    caughtUpAt := some 50 }

theorem covered_laws_partway :
    partway.Anchored ∧
      (partway.update .furtherOn 60).covered =
        partway.covered
          ∪ {position | ∃ processed ∈ Progress.furtherOn.processed, position.block ≤ processed}
          ∪ {position | ∃ last ∈ Progress.furtherOn.position, position ≤ last} ∧
      (partway.rewind (some 4)).covered =
        {position ∈ partway.covered | ∃ block ∈ some 4, position.block ≤ block}
          ∪ {position | position.block < partway.startBlock} ∧
      (Tracker.replace ⟨.ofList [(1, partway)]⟩
        (Tracker.rewound ⟨.ofList [(1, partway)]⟩ [⟨1, some 4⟩])).caughtUpAt 1 = some 50 ∧
      (Tracker.start [{ (default : Chain) with id := 1 }] [partway]).caughtUpAt 1 = some 50 := by
  have hlast : ∀ last ∈ partway.position, last = ⟨5, 1⟩ := fun last h => (Option.some.inj h).symm
  have hanchored : partway.Anchored := by
    refine ⟨fun last h => ?_, fun last h processed hprocessed => ?_, fun h => nomatch h⟩
    · rw [hlast last h]
      decide
    · rw [hlast last h, ← Option.some.inj hprocessed]
  have hkeyed : Tracker.Keyed ⟨.ofList [(1, partway)]⟩ := by
    intro chain checkpoint hget
    obtain ⟨rfl, rfl⟩ : chain = 1 ∧ checkpoint = partway := by
      have hmem := (Table.mem_of_get?_insertAll hget).resolve_right (fun hnone => nomatch hnone)
      simpa using hmem
    rfl
  obtain ⟨hupdate, hrewind, htracked, hstart⟩ := hanchored.covered_laws
  refine ⟨hanchored, (hupdate .furtherOn 60 fun last h => ?_).1, (hrewind (some 4)).1,
    (htracked _ 1 50 hkeyed rfl).2 [⟨1, some 4⟩], ?_⟩
  · rw [← Option.some.inj h]
    decide
  · exact hstart _ [partway] (by decide) (by decide) partway List.mem_cons_self (by decide)

end Checkpoint

end ChainIndexer
