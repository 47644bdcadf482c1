import ChainIndexer.Proofs.Fork.Store

/-!
# Committing events of a chain that may be forked

A unit stores the events taken from a lane, and the blocks of the lane below a cut. Nothing open
lies below the cut, and the block before it is known, so the store can be resumed there.
-/

namespace ChainIndexer

variable {store : Store} {chain : Chain} {unit : WriteUnit} {lane : Lane} {task : FetcherTask}
  {next cut : Nat} {recorded : List Block} {taken : List Event}

/-- Whether the blocks below a cut are done with once the taken events of a lane are committed. -/
structure Lane.CutsAt (lane : Lane) (task : FetcherTask) (chain : Chain) (next : Nat)
    (recorded : List Block) (taken : List Event) (cut : Nat) : Prop where
  le : cut ≤ openAfter lane.processed
  taken : ∀ event ∈ taken, event.block ≤ max next cut
  grounded : Grounded chain.startBlock (recorded ++ lane.aheadBlocks task) (max next cut)

/-- Whether a unit stores of a chain the blocks that a lane has below a cut, and moves the first
open block there. -/
structure WriteUnit.Settles (unit : WriteUnit) (store : Store) (chain : Chain) (lane : Lane)
    (cut : Nat) : Prop where
  blocks : ∀ block, ⟨chain.id, block⟩ ∈ unit.blocks ↔
    block ∈ lane.unrecorded ∧ block.number < cut
  startBlock : ((store.write unit).checkpointOf chain).startBlock =
    (store.checkpointOf chain).startBlock
  openBlock : ((store.write unit).checkpointOf chain).openBlock =
    max (store.checkpointOf chain).openBlock cut
  position : ∀ last, ((store.write unit).checkpointOf chain).position = some last →
    (store.checkpointOf chain).position = some last ∨
      ∃ event ∈ unit.rawEvents.filter (·.chain = chain.id), event.position = last

namespace Lane.Traces

/-- What a lane calls processed is a cut. -/
theorem cutsAt_processed (h : lane.Traces task chain next recorded taken)
    (hground : Grounded chain.startBlock recorded next) :
    lane.CutsAt task chain next recorded taken (openAfter lane.processed) := by
  obtain ⟨first, stop, hleads, -, hfirst, -⟩ := h.stretches
  refine ⟨Nat.le_refl _, hleads.openAfter_processed.1, ?_⟩
  rcases Nat.le_total (openAfter lane.processed) next with hle | hle
  · rw [Nat.max_eq_left hle]
    exact hground.mono (List.subset_append_left _ _)
  · rw [Nat.max_eq_right hle]
    cases hpending : lane.pending with
    | cons head others =>
      rw [openAfter_of_pending hpending]
      refine h.grounded head (List.mem_append_right _ (List.mem_append_left _ ?_))
      rw [hpending]
      exact List.mem_cons_self
    | nil =>
      rw [openAfter_of_idle hpending] at hle ⊢
      cases hfetched : lane.fetchedThrough with
      | none => exact Or.inl (Nat.zero_le _)
      | some block =>
        have hopen : openAfter ((some block).map (·.number)) = first :=
          (hleads.fetched block hfetched).symm
        rwa [hopen]

/-- So is the block of the last event that was taken. -/
theorem cutsAt_last (h : lane.Traces task chain next recorded taken) {event : Event}
    (hlast : taken.getLast? = some event) :
    lane.CutsAt task chain next recorded taken (min (openAfter lane.processed) event.block) := by
  obtain ⟨first, stop, hleads, -⟩ := h.stretches
  have htaken := hleads.openAfter_processed.1
  have hevent := List.mem_of_getLast? hlast
  have hlow := (hleads.events event (List.mem_append_left _ hevent)).1
  have hhigh := htaken event hevent
  have hcut : max next (min (openAfter lane.processed) event.block) = event.block := by omega
  refine ⟨Nat.min_le_left .., fun other hother => ?_, ?_⟩
  · rw [hcut]
    obtain ⟨before, hbefore⟩ := List.getLast?_eq_some_iff.1 hlast
    have hsorted := (List.pairwise_append.1 hleads.sorted).1
    rw [hbefore] at hother hsorted
    rcases List.mem_append.1 hother with hearlier | hsame
    · exact (List.pairwise_append.1 hsorted).2.2 other hearlier event
        (List.mem_singleton_self event)
    · rw [List.mem_singleton.1 hsame]
  · rw [hcut]
    exact h.grounded event (List.mem_append_left _ hevent)

end Lane.Traces

namespace WriteUnit.Settles

theorem mem_blocksOf_iff (hsettles : unit.Settles store chain lane cut)
    (hstore : store.Traces chain)
    (hlane : lane.Traces task chain (store.checkpointOf chain).openBlock (store.blocksOf chain.id)
      taken) (block : Block) :
    block ∈ (store.write unit).blocksOf chain.id ↔
      block ∈ store.blocksOf chain.id ∨ block ∈ lane.unrecorded ∧ block.number < cut := by
  obtain ⟨first, stop, hleads, -⟩ := hlane.stretches
  rw [← hsettles.blocks]
  refine hstore.mem_blocksOf_write_iff (fun other hother => ?_) fun one other hone hother => ?_
  · exact (hleads.blocks other ((hsettles.blocks other).1 hother).1).1
  · exact List.inj_on_of_nodup_map hleads.distinct ((hsettles.blocks one).1 hone).1
      ((hsettles.blocks other).1 hother).1

/-- What is known below the cut is stored. -/
theorem grounded (hsettles : unit.Settles store chain lane cut) (hstore : store.Traces chain)
    (hlane : lane.Traces task chain (store.checkpointOf chain).openBlock (store.blocksOf chain.id)
      taken)
    (hcut : cut ≤ openAfter lane.processed)
    {number : Nat} (hnumber : number ≤ max (store.checkpointOf chain).openBlock cut)
    (h : Grounded chain.startBlock (store.blocksOf chain.id ++ lane.aheadBlocks task) number) :
    Grounded chain.startBlock ((store.write unit).blocksOf chain.id) number := by
  obtain ⟨first, stop, hleads, hascends, -⟩ := hlane.stretches
  have hfirst := hleads.openAfter_processed.2.2
  refine h.imp_right fun ⟨block, hblock, hsame⟩ => ⟨block, ?_, hsame⟩
  refine (hsettles.mem_blocksOf_iff hstore hlane block).2 ?_
  rcases List.mem_append.1 hblock with hold | hahead
  · exact Or.inl hold
  · rcases List.mem_append.1 hahead with hunrecorded | hincoming
    · have hrange := hleads.blocks block hunrecorded
      exact Or.inr ⟨hunrecorded, by omega⟩
    · have hrange := hascends.blocks block hincoming
      omega

end WriteUnit.Settles

theorem Store.eventsOf_write (store : Store) (unit : WriteUnit) (id : ChainId) :
    (store.write unit).eventsOf id =
      store.eventsOf id ++ unit.rawEvents.filter (·.chain = id) := List.filter_append ..

/-- A unit leaves a store that can be resumed at the cut. -/
theorem Store.Traces.write (hstore : store.Traces chain)
    (hlane : lane.Traces task chain (store.checkpointOf chain).openBlock (store.blocksOf chain.id)
      (unit.rawEvents.filter (·.chain = chain.id)))
    (hcut : lane.CutsAt task chain (store.checkpointOf chain).openBlock (store.blocksOf chain.id)
      (unit.rawEvents.filter (·.chain = chain.id)) cut)
    (hsettles : unit.Settles store chain lane cut) : (store.write unit).Traces chain := by
  obtain ⟨first, stop, hleads, -⟩ := hlane.stretches
  have hstart := (store.checkpointOf chain).startBlock_le_openBlock
  rw [hstore.startBlock] at hstart
  have htaken : ∀ event ∈ unit.rawEvents.filter (·.chain = chain.id),
      chain.startBlock ≤ event.block ∧
        event.block ≤ max (store.checkpointOf chain).openBlock cut := by
    intro event hevent
    have hrange := hleads.events event (List.mem_append_left _ hevent)
    exact ⟨by omega, hcut.taken event hevent⟩
  have hopen : (store.checkpointOf chain).openBlock ≤
      max (store.checkpointOf chain).openBlock cut := Nat.le_max_left ..
  have hground : ∀ number ≤ max (store.checkpointOf chain).openBlock cut,
      Grounded chain.startBlock (store.blocksOf chain.id ++ lane.aheadBlocks task) number →
        Grounded chain.startBlock ((store.write unit).blocksOf chain.id) number :=
    fun number hnumber => hsettles.grounded hstore hlane hcut.le hnumber
  refine ⟨hsettles.startBlock.trans hstore.startBlock, fun last hlast => ?_,
    fun number block hget => ?_, fun event hevent => ?_, fun block hblock => ?_, ?_,
    fun event hevent => ?_⟩
  · rw [hsettles.openBlock]
    rcases hsettles.position last hlast with hold | ⟨event, hevent, rfl⟩
    · have hrange := hstore.position last hold
      omega
    · exact htaken event hevent
  · change (store.blocks.insertAll _).get? _ = some block at hget
    rw [Table.get?_insertAll, Option.or_eq_some_iff] at hget
    rcases hget with hnew | ⟨-, hold⟩
    · obtain ⟨entry, hfind, rfl⟩ := Option.map_eq_some_iff.1 hnew
      have hkey : entry.1 = ⟨chain.id, number⟩ := by simpa using List.find?_some hfind
      obtain ⟨recorded, -, rfl⟩ :=
        List.mem_map.1 (List.mem_reverse.1 (List.mem_of_find?_eq_some hfind))
      exact (BlockKey.mk.inj hkey).2
    · exact hstore.numbered number block hold
  · rw [hsettles.openBlock]
    rw [eventsOf_write] at hevent
    rcases List.mem_append.1 hevent with hold | hnew
    · have hrange := hstore.events event hold
      omega
    · exact htaken event hnew
  · rw [hsettles.openBlock]
    rcases (hsettles.mem_blocksOf_iff hstore hlane block).1 hblock with hold | ⟨hnew, hlt⟩
    · have hrange := hstore.blocks block hold
      omega
    · have hrange := hleads.blocks block hnew
      omega
  · rw [hsettles.openBlock]
    exact hground _ (Nat.le_refl _) hcut.grounded
  · rw [eventsOf_write] at hevent
    rcases List.mem_append.1 hevent with hold | hnew
    · have hrange := hstore.events event hold
      exact hground _ (by omega) ((hstore.grounded event hold).mono (List.subset_append_left _ _))
    · exact hground _ (htaken event hnew).2
        (hlane.grounded event (List.mem_append_left _ hnew))

/-- A lane that reports goes on from what it has processed. -/
theorem Lane.Traces.settle {lane' : Lane} (hstore : store.Traces chain)
    (hlane : lane.Traces task chain (store.checkpointOf chain).openBlock (store.blocksOf chain.id)
      taken)
    (hsettles : unit.Settles store chain lane cut) (hcut : cut ≤ openAfter lane.processed)
    (hchain : lane'.chain = lane.chain) (hpending : lane'.pending = lane.pending)
    (hfetched : lane'.fetchedThrough = lane.fetchedThrough) (hreorg : lane'.reorg = lane.reorg)
    (hitems : lane'.queue.items = lane.queue.items)
    (hsublist : lane'.unrecorded.Sublist lane.unrecorded)
    (hunrecorded : ∀ block, block ∈ lane'.unrecorded ↔
      block ∈ lane.unrecorded ∧ ¬ block.number < cut) :
    lane'.Traces task chain ((store.write unit).checkpointOf chain).openBlock
        ((store.write unit).blocksOf chain.id) [] ∧
      lane'.ahead task = lane.ahead task ∧ lane'.aheadBlocks task ⊆ lane.aheadBlocks task := by
  have hincoming : lane'.incoming task = lane.incoming task := by
    rw [incoming, incoming, hitems]
  have hahead : lane'.ahead task = lane.ahead task := by
    rw [ahead, ahead, hincoming, hpending]
  have hknown : store.blocksOf chain.id ++ lane.aheadBlocks task ⊆
      (store.write unit).blocksOf chain.id ++ lane'.aheadBlocks task := by
    intro block hblock
    have hmem := hsettles.mem_blocksOf_iff hstore hlane block
    rcases List.mem_append.1 hblock with hold | hahead
    · exact List.mem_append_left _ (hmem.2 (Or.inl hold))
    · rcases List.mem_append.1 hahead with hlane | hcoming
      · by_cases hbelow : block.number < cut
        · exact List.mem_append_left _ (hmem.2 (Or.inr ⟨hlane, hbelow⟩))
        · exact List.mem_append_right _
            (List.mem_append_left _ ((hunrecorded block).2 ⟨hlane, hbelow⟩))
      · refine List.mem_append_right _ (List.mem_append_right _ ?_)
        rwa [hincoming]
  obtain ⟨first, stop, hleads, hascends, hground, hremembers⟩ := hlane.stretches
  obtain ⟨-, hopen, hfirst⟩ := hleads.openAfter_processed
  have hsorted := (List.pairwise_append.1 hleads.sorted).2.1
  refine ⟨⟨hchain.trans hlane.laneChain, ⟨first, stop, ⟨?_, ?_, fun event hevent => ?_,
    fun block hblock => ?_, ?_, ?_, fun hnone => ?_⟩, ?_, hground.mono hknown,
    fun hfetching => (hremembers hfetching).mono hknown⟩, fun event hevent => ?_,
    fun reorg hannounced => ?_⟩, hahead, fun block hblock => ?_⟩
  · rw [hsettles.openBlock]
    omega
  · rwa [hpending]
  · rw [hsettles.openBlock]
    rw [List.nil_append, hpending] at hevent
    have hlow := hopen event hevent
    have hhigh := (hleads.events event (List.mem_append_right _ hevent)).2
    omega
  · rw [hsettles.openBlock]
    obtain ⟨hold, hge⟩ := (hunrecorded block).1 hblock
    have hrange := hleads.blocks block hold
    omega
  · exact hleads.distinct.sublist (hsublist.map _)
  · rw [hfetched]
    exact hleads.fetched
  · rw [hfetched] at hnone
    rw [List.nil_append, hpending]
    exact (List.append_eq_nil_iff.1 (hleads.unfetched hnone)).2
  · rwa [hincoming]
  · rw [List.nil_append, hahead] at hevent
    exact (hlane.grounded event (List.mem_append_right _ hevent)).mono hknown
  · rw [Announces, hreorg, hincoming] at hannounced
    exact (hlane.announced reorg hannounced).imp_right
      (Exists.imp fun block => And.imp_left fun hblock => hknown hblock)
  · rcases List.mem_append.1 hblock with hlane' | hcoming
    · exact List.mem_append_left _ ((hunrecorded block).1 hlane').1
    · rw [hincoming] at hcoming
      exact List.mem_append_right _ hcoming

end ChainIndexer
