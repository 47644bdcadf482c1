import ChainIndexer.Proofs.Fetch
import Mathlib.Data.Set.Basic
import Mathlib.Order.Monotone.Defs

/-!
# Versions of a chain

A fork replaces the blocks of a chain from some number on. Each block names the one before it by
hash, so versions that share the hash of one block share everything below. What is known of a chain
at one time is then of one version, unless a fork went unnoticed.
-/

namespace ChainIndexer

/-- Whether an event tells what a chain has at its block. -/
structure ChainLog.Carries {chain : ChainId} (log : ChainLog chain) (event : Event) : Prop where
  chain : event.chain = chain
  hash : event.blockHash = (log.block event.block).hash
  timestamp : event.timestamp = (log.block event.block).timestamp

/-- What a chain is in the course of time. Each form of it may take the place of each other one. -/
structure ChainVersions (chain : ChainId) where
  logs : Set (ChainLog chain)
  nonempty : logs.Nonempty
  shared : ∀ log ∈ logs, ∀ log' ∈ logs, ∀ number,
    (log.block number).hash = (log'.block number).hash →
      ∀ below ≤ number, log.block below = log'.block below
  carried : ∀ log ∈ logs, ∀ event ∈ log.events, log.Carries event
  clocked : ∀ log ∈ logs, Monotone fun number => (log.block number).timestamp

/-- Whether the blocks that hold events of a page, and those before them, come with the page. -/
def EventPage.Surrounds (page : EventPage) : Prop :=
  ∀ event ∈ page.events, ∀ number, page.firstBlock.number ≤ number →
    number = event.block ∨ number + 1 = event.block →
      ∃ block ∈ page.firstBlock :: page.lastBlock :: page.blocks, block.number = number

/-- Whether a source always answers from one version of a chain, not always from the same one. -/
structure ChainSource.Presents {τ : Type} (source : ChainSource τ)
    (versions : (chain : ChainId) → ChainVersions chain) : Prop where
  events : ∀ chain fromBlock toBlock watched state page after, fromBlock ≤ toBlock →
    source.events chain fromBlock toBlock watched state = (.ok page, after) →
      ∃ log ∈ (versions chain).logs, page.Honest log watched fromBlock ∧ page.Surrounds
  block : ∀ chain number state block after,
    source.block chain number state = (.ok block, after) →
      ∃ log ∈ (versions chain).logs, block = log.block number

/-- Whether all of some events and blocks are those of a chain. -/
structure ChainLog.Tells {chain : ChainId} (log : ChainLog chain) (events : List Event)
    (blocks : List Block) : Prop where
  events : ∀ event ∈ events, log.Carries event
  blocks : ∀ block ∈ blocks, log.Has block

section

variable {chain : ChainId} {log log' : ChainLog chain} {versions : ChainVersions chain}
  {events events' : List Event} {blocks blocks' : List Block}

theorem ChainLog.Tells.mono (h : log.Tells events blocks) (hevents : events' ⊆ events)
    (hblocks : blocks' ⊆ blocks) : log.Tells events' blocks' :=
  ⟨fun event hevent => h.events event (hevents hevent),
    fun block hblock => h.blocks block (hblocks hblock)⟩

theorem ChainLog.Tells.append (h : log.Tells events blocks) (h' : log.Tells events' blocks') :
    log.Tells (events ++ events') (blocks ++ blocks') :=
  ⟨List.forall_mem_append.2 ⟨h.events, h'.events⟩, List.forall_mem_append.2 ⟨h.blocks, h'.blocks⟩⟩

/-- Whether some version of a chain has all of some events and blocks. -/
def ChainVersions.Tell (versions : ChainVersions chain) (events : List Event)
    (blocks : List Block) : Prop :=
  ∃ log ∈ versions.logs, log.Tells events blocks

theorem ChainVersions.Tell.mono (h : versions.Tell events blocks) (hevents : events' ⊆ events)
    (hblocks : blocks' ⊆ blocks) : versions.Tell events' blocks' :=
  h.imp fun _ ⟨hlog, htells⟩ => ⟨hlog, htells.mono hevents hblocks⟩

/-- A block that has the hash of a block of another version is that block. -/
theorem ChainVersions.has_of_hash (hlog : log ∈ versions.logs) (hlog' : log' ∈ versions.logs)
    {block : Block} (hblock : log.Has block) {number : Nat}
    (hhash : (log'.block number).hash = block.hash) (hnumber : block.number = number) :
    log'.block number = block := by
  subst hnumber
  rw [ChainLog.Has] at hblock
  rw [hblock] at hhash ⊢
  rw [log.numbered] at hhash ⊢
  exact versions.shared log' hlog' log hlog _ hhash _ (Nat.le_refl _)

/-- What is known below a block stays right in a version that has the same block before it. An event
in the block itself stays right if it carries the hash of the block. -/
theorem ChainVersions.kept_of_shared (hlog : log ∈ versions.logs) (hlog' : log' ∈ versions.logs)
    {start stop : Nat} (h : log.Tells events blocks)
    (hshared : start < stop → (log.block (stop - 1)).hash = (log'.block (stop - 1)).hash)
    (hblocks : ∀ block ∈ blocks, start ≤ block.number ∧ block.number < stop)
    (hevents : ∀ event ∈ events, start ≤ event.block ∧ event.block ≤ stop) :
    (∀ block ∈ blocks, log'.Has block) ∧
      ∀ event ∈ events, (event.block = stop → event.blockHash = (log'.block stop).hash) →
        log'.Carries event := by
  have hbelow : ∀ number, start ≤ number → number < stop →
      log'.block number = log.block number := by
    intro number hstart hstop
    exact (versions.shared log hlog log' hlog' _ (hshared (by omega)) number (by omega)).symm
  refine ⟨fun block hblock => ?_, fun event hevent hlast => ?_⟩
  · obtain ⟨hstart, hstop⟩ := hblocks block hblock
    rw [ChainLog.Has, hbelow block.number hstart hstop]
    exact h.blocks block hblock
  · obtain ⟨hstart, hstop⟩ := hevents event hevent
    have hcarries := h.events event hevent
    have hsame : log'.block event.block = log.block event.block := by
      rcases Nat.lt_or_eq_of_le hstop with hlt | heq
      · exact hbelow event.block hstart hlt
      · have hhash := hlast heq
        rw [← heq, hcarries.hash] at hhash
        exact (versions.shared log hlog log' hlog' _ hhash _ (Nat.le_refl _)).symm
    exact ⟨hcarries.chain, hsame ▸ hcarries.hash, hsame ▸ hcarries.timestamp⟩

end

/-! ### What is known together -/

/-- What has to hold of the events and blocks of a chain that are known at one time, and of a block
that is named as safe. -/
structure Testimony (chain : ChainId) where
  Tells : List Event → List Block → Prop
  Vouches : Block → Prop
  nil : Tells [] []
  mono : ∀ {events events' : List Event} {blocks blocks' : List Block}, Tells events blocks →
    events' ⊆ events → blocks' ⊆ blocks → Tells events' blocks'
  own : ∀ {events : List Event} {blocks : List Block}, Tells events blocks →
    ∀ event ∈ events, event.chain = chain

/-- All that is known of a chain at one time is of one of its versions. -/
def ChainVersions.testimony {chain : ChainId} (versions : ChainVersions chain) :
    Testimony chain where
  Tells := versions.Tell
  Vouches block := ∃ log ∈ versions.logs, log.Has block
  nil := versions.nonempty.imp fun _ hlog =>
    ⟨hlog, fun _ hmem => absurd hmem List.not_mem_nil, fun _ hmem => absurd hmem List.not_mem_nil⟩
  mono := .mono
  own := fun ⟨_, _, htells⟩ event hevent => (htells.events event hevent).chain

end ChainIndexer
