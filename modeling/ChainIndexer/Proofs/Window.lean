import ChainIndexer.Fetch.Fetcher
import ChainIndexer.Proofs.Log
import ChainIndexer.Proofs.Table

/-!
# What fetchers remember

A window that records only blocks of one chain holds only blocks of that chain, so a page of the
chain always follows on it.
-/

namespace ChainIndexer

variable {chain : ChainId} {log : ChainLog chain}

namespace BlockWindow

/-- Whether a window holds only blocks of a chain, each under its number. -/
def Follows (window : BlockWindow) (log : ChainLog chain) : Prop :=
  ∀ number block, window.get? number = some block → block = log.block number

variable {window : BlockWindow} {block : Block} {blocks : List Block}

theorem Follows.record (h : window.Follows log) (hblock : log.Has block) :
    (window.record block).Follows log := by
  intro number found hget
  have hinserted := Table.get?_of_get?_drop hget
  rw [Table.get?_insert] at hinserted
  split at hinserted
  next heq =>
    cases hinserted
    rw [heq]
    exact hblock
  next => exact h number found hinserted

theorem Follows.recordAll (h : window.Follows log) (hblocks : ∀ block ∈ blocks, log.Has block) :
    (window.recordAll blocks).Follows log := by
  induction blocks generalizing window with
  | nil => exact h
  | cons first rest ih =>
    obtain ⟨hfirst, hrest⟩ := List.forall_mem_cons.1 hblocks
    exact ih (h.record hfirst) hrest

theorem Follows.start (capacity : Nat) (hblocks : ∀ block ∈ blocks, log.Has block) :
    (BlockWindow.start capacity blocks).Follows log := by
  refine Follows.recordAll ?_ hblocks
  intro number found hget
  cases hget

/-- Whether a window holds only known blocks, each under its number. -/
def Within (window : BlockWindow) (known : List Block) : Prop :=
  ∀ number block, window.get? number = some block → block.number = number ∧ block ∈ known

variable {known known' : List Block}

theorem Within.mono (h : window.Within known) (hknown : known ⊆ known') : window.Within known' :=
  fun number block hget => (h number block hget).imp_right fun hmem => hknown hmem

theorem Within.record (h : window.Within known) (hblock : block ∈ known) :
    (window.record block).Within known := by
  intro number found hget
  have hinserted := Table.get?_of_get?_drop hget
  rw [Table.get?_insert] at hinserted
  split at hinserted
  next heq =>
    cases hinserted
    exact ⟨heq.symm, hblock⟩
  next => exact h number found hinserted

theorem Within.recordAll (h : window.Within known) (hblocks : blocks ⊆ known) :
    (window.recordAll blocks).Within known := by
  induction blocks generalizing window with
  | nil => exact h
  | cons first rest ih =>
    rw [List.cons_subset] at hblocks
    exact ih (h.record hblocks.1) hblocks.2

theorem Within.start (capacity : Nat) (blocks : List Block) :
    (BlockWindow.start capacity blocks).Within blocks := by
  refine Within.recordAll ?_ (List.Subset.refl _)
  intro number found hget
  cases hget

theorem mem_descending : block ∈ window.descending ↔ ∃ number, window.get? number = some block :=
  List.mem_reverse.trans Table.mem_values_iff

theorem descending_pairwise
    (h : ∀ number block, window.get? number = some block → block.number = number) :
    window.descending.Pairwise fun a b => b.number < a.number := by
  rw [descending, List.pairwise_reverse, Table.values, List.pairwise_map]
  refine window.blocks.ordered.imp_of_mem fun {a b} ha hb hlt => ?_
  rw [h a.1 a.2 (Table.mem_entries_iff.1 ha), h b.1 b.2 (Table.mem_entries_iff.1 hb)]
  exact Nat.compare_eq_lt.1 hlt

theorem get?_truncateAbove {top number : Nat} :
    (window.truncateAbove top).get? number =
      (window.get? number).filter fun _ => number ≤ top :=
  Table.get?_filter ..

/-- Whether the highest block of a window has some number. -/
structure EndsAt (window : BlockWindow) (top : Nat) : Prop where
  capacity : 1 ≤ window.capacity
  highest : ∃ block, window.get? top = some block
  below : ∀ number block, window.get? number = some block → number ≤ top

theorem endsAt_record {top : Nat} (hcapacity : 1 ≤ window.capacity)
    (hbelow : ∀ number block, window.get? number = some block → number ≤ top)
    (hblock : block.number ≤ top)
    (htop : (∃ block, window.get? top = some block) ∨ block.number = top) :
    (window.record block).EndsAt top := by
  have hinserted : ∀ number found,
      (window.blocks.insert block.number block).get? number = some found → number ≤ top := by
    intro number found hget
    rw [Table.get?_insert] at hget
    split at hget
    next heq => exact heq ▸ hblock
    next => exact hbelow number found hget
  obtain ⟨highest, hhighest⟩ :
      ∃ found, (window.blocks.insert block.number block).get? top = some found := by
    rw [Table.get?_insert]
    split
    next => exact ⟨block, rfl⟩
    next hne => exact htop.resolve_right (Ne.symm hne)
  have hlength := List.length_pos_of_mem (Table.mem_entries_iff.2 hhighest)
  have hkept := Table.get?_drop_of_le hhighest hinserted
    (Nat.sub_lt hlength (Nat.lt_of_lt_of_le Nat.zero_lt_one hcapacity))
  exact ⟨hcapacity, ⟨highest, hkept⟩, fun number found hget =>
    hinserted number found (Table.get?_of_get?_drop hget)⟩

/-- After blocks up to a number were recorded the window ends there, if the block of the number is
among them or was there before. -/
theorem endsAt_recordAll {top : Nat} (hcapacity : 1 ≤ window.capacity)
    (hbelow : ∀ number block, window.get? number = some block → number ≤ top)
    (hblocks : ∀ block ∈ blocks, block.number ≤ top)
    (htop : (∃ block, window.get? top = some block) ∨ ∃ block ∈ blocks, block.number = top) :
    (window.recordAll blocks).EndsAt top := by
  induction blocks generalizing window with
  | nil => exact ⟨hcapacity, htop.resolve_right fun ⟨_, hmem, _⟩ => (List.not_mem_nil hmem), hbelow⟩
  | cons first rest ih =>
    obtain ⟨hfirst, hrest⟩ := List.forall_mem_cons.1 hblocks
    have hrecorded : ∀ number block, (window.record first).get? number = some block →
        number ≤ top := by
      intro number block hget
      have hinserted := Table.get?_of_get?_drop hget
      rw [Table.get?_insert] at hinserted
      split at hinserted
      next heq => exact heq ▸ hfirst
      next => exact hbelow number block hinserted
    refine ih hcapacity hrecorded hrest ?_
    by_cases hlast : (∃ block, window.get? top = some block) ∨ first.number = top
    · exact Or.inl (endsAt_record hcapacity hbelow hfirst hlast).highest
    · rw [not_or] at hlast
      obtain ⟨block, hmem, hnumber⟩ := htop.resolve_left hlast.1
      rcases List.mem_cons.1 hmem with rfl | hlater
      · exact absurd hnumber hlast.2
      · exact Or.inr ⟨block, hlater, hnumber⟩

theorem recordAll_capacity (window : BlockWindow) (blocks : List Block) :
    (window.recordAll blocks).capacity = window.capacity := by
  induction blocks generalizing window with
  | nil => rfl
  | cons first rest ih => exact ih (window.record first)

theorem one_le_start_capacity (capacity : Nat) (blocks : List Block) :
    1 ≤ (start capacity blocks).capacity := by
  rw [start, recordAll_capacity]
  exact Nat.le_max_right ..

/-- A window ends at the highest of the blocks that it starts with. -/
theorem endsAt_start (capacity : Nat) (hmem : block ∈ blocks)
    (hlast : ∀ other ∈ blocks, other.number ≤ block.number) :
    (start capacity blocks).EndsAt block.number :=
  endsAt_recordAll (Nat.le_max_right ..) (fun _ _ hget => nomatch hget) hlast
    (Or.inr ⟨block, hmem, rfl⟩)

end BlockWindow

namespace Fetcher

/-- The blocks to remember of a page are of different numbers. -/
theorem blocksToRecord_nodup (maxRecorded : Nat) (page : EventPage) (events : List Event) :
    ((blocksToRecord maxRecorded page events).map (·.number)).Nodup := by
  refine Table.values_map_nodup fun number block hget => ?_
  rw [Table.get?_insert, Table.get?_insert] at hget
  split at hget
  next hlast => exact (Option.some.inj hget) ▸ hlast.symm
  next =>
    split at hget
    next hfirst => exact (Option.some.inj hget) ▸ hfirst.symm
    next =>
      rw [Table.ofList, Table.get?_insertAll, Table.get?_empty, Option.or_none,
        Option.map_eq_some_iff] at hget
      obtain ⟨entry, hfind, rfl⟩ := hget
      have hkey : entry.1 = number := by simpa using List.find?_some hfind
      have hmem := List.mem_reverse.1 (List.mem_of_find?_eq_some hfind)
      obtain ⟨kept, -, rfl⟩ := List.mem_map.1 hmem
      exact hkey

theorem mem_blocksToRecord_or {maxRecorded : Nat} {page : EventPage} {events : List Event}
    {block : Block} (h : block ∈ blocksToRecord maxRecorded page events) :
    block = page.firstBlock ∨ block = page.lastBlock ∨ block ∈ page.blocks ∧
      page.firstBlock.number ≤ block.number ∧ block.number ≤ page.lastBlock.number := by
  obtain ⟨number, hget⟩ := Table.mem_values_iff.1 h
  rw [Table.get?_insert, Table.get?_insert] at hget
  split at hget
  next => exact Or.inr (Or.inl (Option.some.inj hget).symm)
  next =>
    split at hget
    next => exact Or.inl (Option.some.inj hget).symm
    next =>
      rw [Table.ofList, Table.get?_insertAll, Table.get?_empty, Option.or_none,
        Option.map_eq_some_iff] at hget
      obtain ⟨entry, hfind, rfl⟩ := hget
      have hmem := List.mem_reverse.1 (List.mem_of_find?_eq_some hfind)
      obtain ⟨kept, hkept, rfl⟩ := List.mem_map.1 hmem
      obtain ⟨hpage, hkeep⟩ := List.mem_filter.1 hkept
      exact Or.inr (Or.inr ⟨hpage, of_decide_eq_true (Bool.and_eq_true_iff.1 hkeep).1⟩)

theorem mem_blocksToRecord {maxRecorded : Nat} {page : EventPage} {events : List Event}
    {block : Block} (h : block ∈ blocksToRecord maxRecorded page events) :
    block = page.firstBlock ∨ block = page.lastBlock ∨ block ∈ page.blocks :=
  (mem_blocksToRecord_or h).imp_right (Or.imp_right And.left)

theorem exists_get?_ofList {blocks : List Block} {number : Nat}
    (h : ∃ block ∈ blocks, block.number = number) :
    ∃ block, (Table.ofList (blocks.map fun block => (block.number, block))).get? number =
      some block ∧ block.number = number := by
  obtain ⟨block, hblock, rfl⟩ := h
  have hentry : (block.number, block) ∈ blocks.map fun block => (block.number, block) :=
    List.mem_map_of_mem hblock
  obtain ⟨entry, hfind⟩ := Option.isSome_iff_exists.1
    ((List.find?_isSome (p := fun entry => decide (entry.1 = block.number))).2
      ⟨_, List.mem_reverse.2 hentry, decide_eq_true rfl⟩)
  obtain ⟨found, -, rfl⟩ := List.mem_map.1 (List.mem_reverse.1 (List.mem_of_find?_eq_some hfind))
  refine ⟨found, ?_, by simpa using List.find?_some hfind⟩
  rw [Table.ofList, Table.get?_insertAll, hfind]
  rfl

/-- The ends of a page are remembered, and so is a block of it that is around an event. -/
theorem exists_mem_blocksToRecord {maxRecorded : Nat} {page : EventPage} {events : List Event}
    {number : Nat}
    (h : number = page.firstBlock.number ∨ number = page.lastBlock.number ∨
      (∃ block ∈ page.blocks, block.number = number) ∧
        (page.firstBlock.number ≤ number ∧ number ≤ page.lastBlock.number) ∧
        ∃ event ∈ events, event.block = number ∨ event.block = number + 1) :
    ∃ block ∈ blocksToRecord maxRecorded page events, block.number = number := by
  by_cases hlast : number = page.lastBlock.number
  · refine ⟨page.lastBlock, Table.mem_values_iff.2 ⟨number, ?_⟩, hlast.symm⟩
    rw [Table.get?_insert, if_pos hlast]
  by_cases hfirst : number = page.firstBlock.number
  · refine ⟨page.firstBlock, Table.mem_values_iff.2 ⟨number, ?_⟩, hfirst.symm⟩
    rw [Table.get?_insert, if_neg hlast, Table.get?_insert, if_pos hfirst]
  obtain ⟨⟨block, hblock, rfl⟩, hrange, haround⟩ := (h.resolve_left hfirst).resolve_left hlast
  have hkept : block ∈ page.blocks.filter fun block =>
      decide (page.firstBlock.number ≤ block.number ∧ block.number ≤ page.lastBlock.number)
        && (decide (page.lastBlock.number - maxRecorded < block.number)
          || events.any fun event => event.block = block.number ∨
            event.block = block.number + 1) := by
    obtain ⟨event, hevent, hnumber⟩ := haround
    rw [List.mem_filter, Bool.and_eq_true, Bool.or_eq_true, List.any_eq_true]
    exact ⟨hblock, decide_eq_true hrange, Or.inr ⟨event, hevent, decide_eq_true hnumber⟩⟩
  obtain ⟨found, hget, hnumber⟩ := exists_get?_ofList ⟨block, hkept, rfl⟩
  refine ⟨found, Table.mem_values_iff.2 ⟨block.number, ?_⟩, hnumber⟩
  rw [Table.get?_insert, if_neg hlast, Table.get?_insert, if_neg hfirst]
  exact hget

/-- The next page of a chain follows on what is on record. -/
theorem followsRecorded_of_follows {fetcher : Fetcher} {page : EventPage}
    (h : fetcher.window.Follows log) (hfirst : page.firstBlock = log.block fetcher.nextBlock) :
    fetcher.followsRecorded page = true := by
  rw [followsRecorded]
  cases hnext : fetcher.nextBlock with
  | zero => rfl
  | succ number =>
    rw [Nat.add_sub_cancel, Bool.or_eq_true, Option.all_eq_true]
    refine Or.inr fun block hget => ?_
    rw [h number block hget, hfirst, hnext, log.linked, decide_eq_true_eq]

end Fetcher

end ChainIndexer
