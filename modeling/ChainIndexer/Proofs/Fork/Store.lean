import ChainIndexer.Proofs.Fork.Fetch
import ChainIndexer.Proofs.Pipeline.Sound

/-!
# Stores of chains that may be forked

A store knows the block before the one where a checkpoint resumes, and before each event, so a
fetcher that starts from it remembers that block.
-/

namespace ChainIndexer

/-! ### Checkpoints -/

namespace Checkpoint

/-- The first block that may still have events to commit. -/
def openBlock (checkpoint : Checkpoint) : Nat :=
  max checkpoint.startBlock (openAfter checkpoint.processed)

theorem startBlock_le_openBlock (checkpoint : Checkpoint) :
    checkpoint.startBlock ≤ checkpoint.openBlock := Nat.le_max_left ..

/-- A chain is resumed at its first open block, if the last position is not beyond it. -/
theorem resumeBlock_eq_openBlock {checkpoint : Checkpoint}
    (h : ∀ last, checkpoint.position = some last →
      checkpoint.startBlock ≤ last.block ∧ last.block ≤ checkpoint.openBlock) :
    checkpoint.resumeBlock = checkpoint.openBlock := by
  rw [resumeBlock]
  cases hskip : checkpoint.skipThrough with
  | some through =>
    obtain ⟨hposition, hprocessed⟩ := skipThrough_eq_some_iff.1 hskip
    obtain ⟨hstart, hopen⟩ := h through hposition
    refine Nat.le_antisymm hopen (Nat.max_le.2 ⟨hstart, ?_⟩)
    cases hlast : checkpoint.processed with
    | none => exact Nat.zero_le _
    | some processed => exact hprocessed processed hlast
  | none =>
    rw [openBlock]
    cases checkpoint.processed with
    | none => exact (Nat.max_zero _).symm
    | some processed => exact Nat.max_comm ..

theorem AgreesWith.openBlock {a b : Checkpoint} (h : a.AgreesWith b) :
    a.openBlock = b.openBlock := by
  rw [Checkpoint.openBlock, Checkpoint.openBlock, h.startBlock, h.processed]

theorem AgreesWith.resumeBlock {a b : Checkpoint} (h : a.AgreesWith b) :
    a.resumeBlock = b.resumeBlock := by
  rw [Checkpoint.resumeBlock, Checkpoint.resumeBlock, skipThrough, skipThrough, h.position,
    h.processed, h.startBlock]

theorem openBlock_update (checkpoint : Checkpoint) (progress : Progress) (now : Int) :
    (checkpoint.update progress now).openBlock =
      max checkpoint.openBlock (openAfter progress.processed) := by
  rw [openBlock, openBlock, Nat.max_assoc, ← openAfter_max]
  rfl

theorem openBlock_rewind {checkpoint : Checkpoint} {block : Option Nat}
    (h : min checkpoint.processed block = block) :
    (checkpoint.rewind block).openBlock = max checkpoint.startBlock (openAfter block) := by
  have hprocessed : (checkpoint.rewind block).processed = block := h
  rw [openBlock, hprocessed]
  rfl

end Checkpoint

theorem Progress.openAfter_held {registering : Option Event} {progress : Progress} :
    openAfter (progress.held registering).processed =
      match registering with
      | some event =>
        if progress.chain = event.chain then min (openAfter progress.processed) event.block
        else openAfter progress.processed
      | .none => openAfter progress.processed := by
  cases registering with
  | none => rfl
  | some event =>
    rw [held, Option.elim_some, holdBefore]
    dsimp only
    split
    · rw [openAfter_min, openAfter_checkedSub]
    · rfl

/-! ### Stores -/

namespace Store

variable {store : Store} {chain : Chain} {unit : WriteUnit}

/-- Whether a store knows the blocks that tell whether a chain was forked below its first open
block. -/
structure Traces (store : Store) (chain : Chain) : Prop where
  startBlock : (store.checkpointOf chain).startBlock = chain.startBlock
  position : ∀ last, (store.checkpointOf chain).position = some last →
    chain.startBlock ≤ last.block ∧ last.block ≤ (store.checkpointOf chain).openBlock
  numbered : ∀ number block, store.blocks.get? ⟨chain.id, number⟩ = some block →
    block.number = number
  events : ∀ event ∈ store.eventsOf chain.id,
    chain.startBlock ≤ event.block ∧ event.block ≤ (store.checkpointOf chain).openBlock
  blocks : ∀ block ∈ store.blocksOf chain.id,
    chain.startBlock ≤ block.number ∧ block.number < (store.checkpointOf chain).openBlock
  resumable : Grounded chain.startBlock (store.blocksOf chain.id)
    (store.checkpointOf chain).openBlock
  grounded : ∀ event ∈ store.eventsOf chain.id,
    Grounded chain.startBlock (store.blocksOf chain.id) event.block

theorem Traces.empty (chain : Chain) (resetCount : Nat) :
    { Store.empty with resetCount := resetCount }.Traces chain where
  startBlock := rfl
  position := fun _ h => nomatch h
  numbered := fun _ _ h => nomatch h
  events := fun _ hmem => absurd hmem List.not_mem_nil
  blocks := fun _ hmem => absurd hmem List.not_mem_nil
  resumable := Or.inl (Nat.le_of_eq (Nat.max_zero _))
  grounded := fun _ hmem => absurd hmem List.not_mem_nil

theorem Traces.mem_blocksOf_iff (h : store.Traces chain) {block : Block} :
    block ∈ store.blocksOf chain.id ↔
      store.blocks.get? ⟨chain.id, block.number⟩ = some block := by
  rw [mem_blocksOf]
  constructor
  · rintro ⟨⟨id, number⟩, hget, rfl⟩
    rwa [h.numbered number block hget]
  · exact fun hget => ⟨_, hget, rfl⟩

/-- The blocks of a chain stand in the order of their numbers. -/
theorem Traces.blocksOf_pairwise (h : store.Traces chain) :
    (store.blocksOf chain.id).Pairwise fun a b => a.number < b.number := by
  rw [blocksOf, List.pairwise_map]
  refine (store.blocks.ordered.filter _).imp_of_mem fun {a b} ha hb hlt => ?_
  obtain ⟨⟨aid, anumber⟩, ablock⟩ := a
  obtain ⟨⟨bid, bnumber⟩, bblock⟩ := b
  obtain ⟨haentry, haid⟩ := List.mem_filter.1 ha
  obtain ⟨hbentry, hbid⟩ := List.mem_filter.1 hb
  obtain rfl := of_decide_eq_true haid
  obtain rfl := of_decide_eq_true hbid
  have hanumber := h.numbered _ _ (Table.mem_entries_iff.1 haentry)
  have hbnumber := h.numbered _ _ (Table.mem_entries_iff.1 hbentry)
  change compareLex (compareOn BlockKey.chain) (compareOn BlockKey.number) _ _ = _ at hlt
  simp only [compareLex, compareOn, Std.ReflOrd.compare_self, Ordering.eq_then,
    Nat.compare_eq_lt] at hlt
  dsimp only at hanumber hbnumber ⊢
  omega

/-- The highest block of a chain is among its recent ones. -/
theorem Traces.mem_recentBlocks (h : store.Traces chain) {block : Block}
    (hblock : block ∈ store.blocksOf chain.id)
    (hlast : ∀ other ∈ store.blocksOf chain.id, other.number ≤ block.number) {limit : Nat}
    (hlimit : 1 ≤ limit) : block ∈ store.recentBlocks chain.id limit := by
  have hsorted := h.blocksOf_pairwise
  rw [recentBlocks]
  obtain ⟨before, last, heq⟩ :=
    (List.eq_nil_or_concat' _).resolve_left (List.ne_nil_of_mem hblock)
  rw [heq] at hblock hlast hsorted ⊢
  have hsame : block = last := by
    rcases List.mem_append.1 hblock with hearlier | hsingle
    · have hlt := (List.pairwise_append.1 hsorted).2.2 block hearlier last
        (List.mem_singleton_self last)
      have hle := hlast last (List.mem_append_right _ (List.mem_singleton_self last))
      omega
    · exact List.mem_singleton.1 hsingle
  obtain ⟨count, rfl⟩ := Nat.exists_eq_add_of_le hlimit
  rw [hsame, List.reverse_append, List.reverse_singleton, List.singleton_append, Nat.add_comm,
    List.take_succ_cons]
  exact List.mem_cons_self

/-- A fetcher that starts from a store remembers the block before the one where it resumes. -/
theorem Traces.remembers (h : store.Traces chain) {settings : FetchSettings}
    (hpositive : settings.batchSize.Positive) (hlimit : 1 ≤ settings.maxRecordedBlocks)
    {checkpoint : Checkpoint} (hagrees : checkpoint.AgreesWith (store.checkpointOf chain)) :
    (Fetcher.start chain checkpoint
      (.start settings.maxRecordedBlocks
        (store.recentBlocks chain.id settings.maxRecordedBlocks)) settings).Remembers chain
          (store.blocksOf chain.id) (store.checkpointOf chain).openBlock := by
  have hrecent : store.recentBlocks chain.id settings.maxRecordedBlocks ⊆
      store.blocksOf chain.id := fun block hblock =>
    List.mem_reverse.1 (List.mem_of_mem_take hblock)
  have hresume : checkpoint.resumeBlock = (store.checkpointOf chain).openBlock := by
    rw [hagrees.resumeBlock]
    refine Checkpoint.resumeBlock_eq_openBlock fun last hlast => ?_
    rw [h.startBlock]
    exact h.position last hlast
  refine ⟨rfl, hpositive, hresume, BlockWindow.one_le_start_capacity _ _,
    (BlockWindow.Within.start _ _).mono hrecent, ?_⟩
  refine h.resumable.imp_right fun ⟨block, hblock, hnumber⟩ => ?_
  have hlast : ∀ other ∈ store.blocksOf chain.id, other.number ≤ block.number := by
    intro other hother
    have hlt := (h.blocks other hother).2
    omega
  have hends := BlockWindow.endsAt_start settings.maxRecordedBlocks
    (h.mem_recentBlocks hblock hlast hlimit) fun other hother => hlast other (hrecent hother)
  rw [← hnumber, Nat.add_sub_cancel]
  exact hends.highest

/-- What a unit records of a chain is added to the blocks of the chain, if it is of different
numbers above them. -/
theorem Traces.mem_blocksOf_write_iff (h : store.Traces chain)
    (hopen : ∀ block, ⟨chain.id, block⟩ ∈ unit.blocks →
      (store.checkpointOf chain).openBlock ≤ block.number)
    (hdistinct : ∀ block other, ⟨chain.id, block⟩ ∈ unit.blocks → ⟨chain.id, other⟩ ∈ unit.blocks →
      block.number = other.number → block = other) {block : Block} :
    block ∈ (store.write unit).blocksOf chain.id ↔
      block ∈ store.blocksOf chain.id ∨ ⟨chain.id, block⟩ ∈ unit.blocks := by
  refine ⟨fun hmem => ?_, fun hor => ?_⟩
  · refine (mem_blocksOf_write hmem).imp_right fun ⟨recorded, hrecorded, hid, hblock⟩ => ?_
    rw [← hid, ← hblock]
    exact hrecorded
  · refine mem_blocksOf.2 ⟨⟨chain.id, block.number⟩, ?_, rfl⟩
    change (store.blocks.insertAll _).get? _ = some block
    rw [Table.get?_insertAll]
    cases hfind : (unit.blocks.map fun recorded =>
        (BlockKey.mk recorded.chain recorded.block.number, recorded.block)).reverse.find?
          (·.1 = ⟨chain.id, block.number⟩) with
    | none =>
      refine h.mem_blocksOf_iff.1 (hor.resolve_right fun hmem => ?_)
      have hentry := List.mem_reverse.2 (List.mem_map_of_mem
        (f := fun recorded : RecordedBlock =>
          (BlockKey.mk recorded.chain recorded.block.number, recorded.block)) hmem)
      exact List.find?_eq_none.1 hfind _ hentry (decide_eq_true rfl)
    | some entry =>
      have hkey : entry.1 = ⟨chain.id, block.number⟩ := by simpa using List.find?_some hfind
      obtain ⟨recorded, hrecorded, rfl⟩ :=
        List.mem_map.1 (List.mem_reverse.1 (List.mem_of_find?_eq_some hfind))
      obtain ⟨hid, hnumber⟩ := BlockKey.mk.inj hkey
      have hfound : ⟨chain.id, recorded.block⟩ ∈ unit.blocks := hid ▸ hrecorded
      refine congrArg some ?_
      rcases hor with hold | hnew
      · -- A block that is stored lies below those of the unit.
        have hbelow := (h.blocks block hold).2
        have habove := hopen _ hfound
        omega
      · exact hdistinct _ _ hfound hnew hnumber

end Store

end ChainIndexer
