import ChainIndexer.Proofs.Call
import ChainIndexer.Proofs.Fetch
import Mathlib.Data.Set.Insert
import Mathlib.Tactic.IntervalCases

/-!
# What a fetcher remembers of a chain that changes

Only the parent of the first block of a page is compared with what is on record. Since blocks name
their parents by hash, everything on record is then on the chain that the page is from. If it is
not, the highest block on record that is still there is the one below which nothing has changed.
-/

namespace ChainIndexer

/-- The blocks that a source has of a chain at some time. Each of them names the one before it. -/
structure ChainView where
  block? : Nat → Option Block
  numbered : ∀ number block, block? number = some block → block.number = number
  linked : ∀ number block, block? (number + 1) = some block →
    ∃ parent, block? number = some parent ∧ block.parentHash = parent.hash

/-- Chains of which each may take the place of each other one. The hash of a block tells which block
it is. -/
structure ForkFamily where
  views : Set ChainView
  hashed : ∀ view ∈ views, ∀ view' ∈ views, ∀ number block block',
    view.block? number = some block → view'.block? number = some block' →
      block.hash = block'.hash → block = block'

/-- Whether a page holds blocks of a chain, from its first one through its last one. -/
structure EventPage.Covers (page : EventPage) (view : ChainView) (fromBlock : Nat) : Prop where
  range : fromBlock ≤ page.lastBlock.number
  first : view.block? fromBlock = some page.firstBlock
  last : view.block? page.lastBlock.number = some page.lastBlock
  blocks : ∀ block ∈ page.blocks, view.block? block.number = some block

/-- Whether a source always answers from one chain. A page may cover less than was asked for. -/
structure ChainSource.Shows {τ : Type} (source : ChainSource τ) (chain : ChainId)
    (view : ChainView) : Prop where
  events : ∀ fromBlock toBlock watched state page after, fromBlock ≤ toBlock →
    source.events chain fromBlock toBlock watched state = (.ok page, after) →
      page.Covers view fromBlock
  block : ∀ number state block after,
    source.block chain number state = (.ok block, after) → view.block? number = some block

theorem EventPage.Covers.has {page : EventPage} {view : ChainView} {fromBlock : Nat}
    (h : page.Covers view fromBlock) {block : Block}
    (hblock : block = page.firstBlock ∨ block = page.lastBlock ∨ block ∈ page.blocks) :
    view.block? block.number = some block := by
  rcases hblock with rfl | rfl | hmem
  · rw [view.numbered _ _ h.first]
    exact h.first
  · exact h.last
  · exact h.blocks block hmem

/-- Chains that have a block in common have all blocks below it in common. -/
theorem ForkFamily.shared {family : ForkFamily} {view view' : ChainView}
    (hview : view ∈ family.views) (hview' : view' ∈ family.views) {number : Nat}
    {block block' : Block} (h : view.block? number = some block)
    (h' : view'.block? number = some block') (hhash : block.hash = block'.hash) :
    ∀ below ≤ number, view.block? below = view'.block? below := by
  induction number generalizing block block' with
  | zero =>
    intro below hbelow
    obtain rfl := Nat.le_zero.1 hbelow
    rw [h, h', family.hashed view hview view' hview' 0 block block' h h' hhash]
  | succ number ih =>
    obtain rfl := family.hashed view hview view' hview' _ block block' h h' hhash
    intro below hbelow
    rcases Nat.le_succ_iff.1 hbelow with hlower | rfl
    · obtain ⟨parent, hparent, hlink⟩ := view.linked number block h
      obtain ⟨parent', hparent', hlink'⟩ := view'.linked number block h'
      exact ih hparent hparent' (hlink.symm.trans hlink') below hlower
    · exact h.trans h'.symm

namespace Fetcher

variable {τ : Type} {context : FetchContext τ} {state after : FetchState τ}

theorem ofOutcome_ne_beyond {α : Type} (operation : FetchOperation)
    (outcome : Outcome SourceError α) (lowest : Nat) :
    ofOutcome operation outcome ≠ .error (.reorgBeyondWindow lowest) := by
  cases outcome with
  | done value => nofun
  | fatal error => cases error <;> nofun
  | exhausted attempts error => nofun

/-- Whether the source may answer another block in place of one on record. -/
def Replaced (context : FetchContext τ) (chain : ChainId) (block : Block) : Prop :=
  ∃ source current last,
    context.source.block chain block.number source = (.ok current, last) ∧
      current.hash ≠ block.hash

/-- What the search for a safe block finds: the first block that is still there. The fetcher goes on
behind it. -/
theorem locateSafeBlock_found {recorded : List Block} {reorg : Reorg}
    (h : locateSafeBlock context recorded state = (.ok reorg, after)) :
    ∃ above block below source last, recorded = above ++ block :: below ∧
      (∀ other ∈ above, Replaced context state.fetcher.chain other) ∧
      context.source.block state.fetcher.chain block.number source =
        (.ok reorg.safeBlock, last) ∧
      reorg.safeBlock.hash = block.hash ∧
      after.fetcher.window = state.fetcher.window.truncateAbove block.number ∧
      after.fetcher.nextBlock = block.number + 1 ∧
      (state.fetcher.batchSize.Positive → after.fetcher.batchSize.Positive) := by
  induction recorded generalizing state with
  | nil => cases h
  | cons first rest ih =>
    cases search_of_locateSafeBlock h with
    | @found _ _ _ source asked hstays hblock hhash =>
      refine ⟨[], first, rest, source, asked.source, rfl, List.forall_mem_nil _, hblock, hhash,
        ?_, rfl, hstays.positive⟩
      exact congrArg (BlockWindow.truncateAbove · _) hstays.window
    | replaced hstays hblock hhash hrest =>
      obtain ⟨above, block, below, source, last, rfl, habove, hsafe, hsame, hwindow, hnext,
        hpositive⟩ := ih hrest
      rw [hstays.chain] at habove hsafe
      refine ⟨first :: above, block, below, source, last, rfl, ?_, hsafe, hsame,
        hstays.window ▸ hwindow, hnext, hpositive ∘ hstays.positive⟩
      exact List.forall_mem_cons.2 ⟨⟨_, _, _, hblock, hhash⟩, habove⟩

/-- If the search ends without a safe block, all blocks on record were replaced. -/
theorem locateSafeBlock_beyond {recorded : List Block} {lowest : Nat}
    (h : locateSafeBlock context recorded state = (.error (.reorgBeyondWindow lowest), after)) :
    ∀ block ∈ recorded, Replaced context state.fetcher.chain block := by
  induction recorded generalizing state with
  | nil => exact List.forall_mem_nil _
  | cons first rest ih =>
    cases search_of_locateSafeBlock h with
    | failed _ hblock => exact absurd (congrArg Prod.fst hblock) (ofOutcome_ne_beyond _ _ _)
    | replaced hstays hblock hhash hrest =>
      have hreplaced := ih hrest
      rw [hstays.chain] at hreplaced
      exact List.forall_mem_cons.2 ⟨⟨_, _, _, hblock, hhash⟩, hreplaced⟩

theorem findHead_ne_beyond (lowest : Nat) :
    (findHead context state).1 ≠ .error (.reorgBeyondWindow lowest) := by
  rw [findHead]
  split
  next => rintro ⟨⟩
  next =>
    split
    next heq =>
      rintro ⟨⟩
      exact ofOutcome_ne_beyond _ _ _ (congrArg Prod.fst heq)
    next => rintro ⟨⟩

theorem requestEvents_ne_beyond (head lowest : Nat) :
    (requestEvents context head state).1 ≠ .error (.reorgBeyondWindow lowest) :=
  ofOutcome_ne_beyond _ _ _

/-- Whether what a fetcher has on record is of one chain, ends before the block where it goes on,
and has the block before that one, if it has any. -/
structure Canonical (fetcher : Fetcher) (family : ForkFamily) : Prop where
  positive : fetcher.batchSize.Positive
  capacity : 1 ≤ fetcher.window.capacity
  view : ∃ view ∈ family.views, ∀ number block,
    fetcher.window.get? number = some block → view.block? number = some block
  below : ∀ number block, fetcher.window.get? number = some block → number < fetcher.nextBlock
  before : (∀ number, fetcher.window.get? number = none) ∨
    ∃ block, fetcher.window.get? (fetcher.nextBlock - 1) = some block

/-- Whether a fetcher starts with blocks of one chain on record that lie before the block where it
goes on, and with the block before that one, if there are any. -/
structure StartsOn (fetcher : Fetcher) (family : ForkFamily) (recorded : List Block) : Prop where
  positive : fetcher.batchSize.Positive
  window : ∃ capacity, fetcher.window = .start capacity recorded
  view : ∃ view ∈ family.views, ∀ block ∈ recorded, view.block? block.number = some block
  below : ∀ block ∈ recorded, block.number < fetcher.nextBlock
  before : recorded = [] ∨ ∃ block ∈ recorded, block.number + 1 = fetcher.nextBlock

variable {fetcher fetcher' : Fetcher} {family : ForkFamily} {view : ChainView}
  {recorded : List Block}

theorem StartsOn.canonical (h : fetcher.StartsOn family recorded) : fetcher.Canonical family := by
  obtain ⟨capacity, hwindow⟩ := h.window
  obtain ⟨view, hview, hrecorded⟩ := h.view
  have hwithin : fetcher.window.Within recorded := hwindow ▸ .start capacity recorded
  have hcapacity : 1 ≤ fetcher.window.capacity := hwindow ▸ BlockWindow.one_le_start_capacity _ _
  refine ⟨h.positive, hcapacity, ⟨view, hview, fun number block hget => ?_⟩,
    fun number block hget => ?_, ?_⟩
  · obtain ⟨rfl, hmem⟩ := hwithin number block hget
    exact hrecorded block hmem
  · obtain ⟨rfl, hmem⟩ := hwithin number block hget
    exact h.below block hmem
  · rcases h.before with rfl | ⟨block, hblock, hnext⟩
    · refine Or.inl fun number => ?_
      rw [hwindow]
      rfl
    · have hlast : ∀ other ∈ recorded, other.number ≤ block.number := by
        intro other hother
        have hlt := h.below other hother
        omega
      have hends := BlockWindow.endsAt_start capacity hblock hlast
      rw [← hnext, Nat.add_sub_cancel, hwindow]
      exact Or.inr hends.highest

theorem Canonical.of_stays (h : fetcher.Canonical family) (hstays : fetcher.Stays fetcher') :
    fetcher'.Canonical family := by
  refine ⟨hstays.positive h.positive, hstays.window ▸ h.capacity, hstays.window ▸ h.view,
    fun number block hget => ?_, ?_⟩
  · rw [hstays.nextBlock]
    exact h.below number block (hstays.window ▸ hget)
  · rw [hstays.nextBlock, hstays.window]
    exact h.before

/-- If a page of a chain follows on what is on record, all that is on record is on the chain. -/
theorem Canonical.kept (h : fetcher.Canonical family) (hview : view ∈ family.views)
    {page : EventPage} (hcovers : page.Covers view fetcher.nextBlock)
    (hfollows : fetcher.followsRecorded page = true) :
    ∀ number block, fetcher.window.get? number = some block → view.block? number = some block := by
  obtain ⟨old, hold, hrecorded⟩ := h.view
  intro number block hget
  have hlt := h.below number block hget
  obtain ⟨last, hlast⟩ := h.before.resolve_left fun hnone => by
    rw [hnone number] at hget
    cases hget
  obtain ⟨top, htop⟩ : ∃ top, fetcher.nextBlock = top + 1 := ⟨fetcher.nextBlock - 1, by omega⟩
  have hfirst := hcovers.first
  rw [htop] at hfirst
  obtain ⟨parent, hparent, hlink⟩ := view.linked top page.firstBlock hfirst
  rw [htop, Nat.add_sub_cancel] at hlast
  rw [followsRecorded, htop, Nat.add_sub_cancel, hlast, Bool.or_eq_true, Option.all_some,
    decide_eq_true_eq, decide_eq_true_eq] at hfollows
  have hhash : last.hash = parent.hash :=
    (hfollows.resolve_left (Nat.succ_ne_zero top)).trans hlink
  rw [← ForkFamily.shared hold hview (hrecorded top last hlast) hparent hhash number (by omega)]
  exact hrecorded number block hget

/-- All that is on record after a batch that follows on the record is on the chain of the batch. -/
theorem Canonical.onView (h : fetcher.Canonical family) (hview : view ∈ family.views)
    {context : FetchContext τ} {batch : FetchedBatch} {page : EventPage}
    (hcovers : page.Covers view fetcher.nextBlock)
    (hmoves : MovesBy context fetcher fetcher' batch page)
    (hfollows : fetcher.followsRecorded page = true) :
    ∀ number block, fetcher'.window.get? number = some block →
      view.block? number = some block := by
  have hkept := h.kept hview hcovers hfollows
  have hwithin : fetcher.window.Within (fetcher.window.descending ++ batch.blocks) :=
    fun number block hget => ⟨view.numbered number block (hkept number block hget),
      List.mem_append_left _ (BlockWindow.mem_descending.2 ⟨number, hget⟩)⟩
  intro number block hget
  rw [hmoves.window] at hget
  obtain ⟨rfl, hmem⟩ := hwithin.recordAll (List.subset_append_right _ _) number block hget
  rcases List.mem_append.1 hmem with hold | hnew
  · obtain ⟨number, hold⟩ := BlockWindow.mem_descending.1 hold
    have hsame := hkept number block hold
    rwa [view.numbered number block hsame]
  · exact hcovers.has (hmoves.blocks block hnew)

/-- A batch that follows on what is on record leaves only blocks of its chain on record, the last
one among them. -/
theorem Canonical.moves (h : fetcher.Canonical family) (hview : view ∈ family.views)
    {context : FetchContext τ} {batch : FetchedBatch} {page : EventPage} {maxRecorded : Nat}
    (hcovers : page.Covers view fetcher.nextBlock)
    (hmoves : MovesBy context fetcher fetcher' batch page)
    (hfollows : fetcher.followsRecorded page = true)
    (hblocks : batch.blocks = blocksToRecord maxRecorded page batch.events) :
    fetcher'.Canonical family ∧
      (∃ block, fetcher'.window.get? (fetcher'.nextBlock - 1) = some block) ∧
        ∀ number block, fetcher'.window.get? number = some block →
          view.block? number = some block := by
  have hends := hmoves.endsAt h.capacity h.below (view.numbered _ _ hcovers.first) hcovers.range
    hblocks
  have hrecorded := h.onView hview hcovers hmoves hfollows
  have hlast : ∃ block, fetcher'.window.get? (fetcher'.nextBlock - 1) = some block := by
    rw [hmoves.nextBlock]
    exact hends.highest
  refine ⟨⟨hmoves.positive, hends.capacity, ⟨view, hview, hrecorded⟩, fun number block hget => ?_,
    Or.inr hlast⟩, hlast, hrecorded⟩
  rw [hmoves.nextBlock]
  exact Nat.lt_succ_of_le (hends.below number block hget)

theorem Replaced.not_on_view {context : FetchContext τ} {chain : ChainId}
    (hshows : context.source.Shows chain view) {block : Block} (h : Replaced context chain block) :
    view.block? block.number ≠ some block := by
  obtain ⟨source, current, last, hcall, hhash⟩ := h
  intro hsame
  rw [hshows.block _ _ _ _ hcall] at hsame
  exact hhash (congrArg Block.hash (Option.some.inj hsame))

/-- Whether a block is the highest one on record that is on a chain. -/
structure Safe (fetcher : Fetcher) (view : ChainView) (block : Block) : Prop where
  recorded : fetcher.window.get? block.number = some block
  current : view.block? block.number = some block
  highest : ∀ number other, fetcher.window.get? number = some other →
    view.block? number = some other → number ≤ block.number

/-- The search for a safe block finds the highest one on record that is on the chain of the source,
and leaves nothing above it on record. -/
theorem Canonical.located (h : fetcher.Canonical family) (hview : view ∈ family.views)
    {context : FetchContext τ} {asked after : FetchState τ} (hstays : fetcher.Stays asked.fetcher)
    (hshows : context.source.Shows fetcher.chain view) {reorg : Reorg}
    (hlocated : locateSafeBlock context asked.fetcher.window.descending asked =
      (.ok reorg, after)) :
    after.fetcher.Canonical family ∧ fetcher.Safe view reorg.safeBlock ∧
      after.fetcher.nextBlock = reorg.safeBlock.number + 1 := by
  obtain ⟨old, hold, hrecorded⟩ := h.view
  obtain ⟨above, block, below, source, last, hsplit, habove, hcall, hhash, hwindow, hnext,
    hpositive⟩ := locateSafeBlock_found hlocated
  rw [hstays.chain] at habove hcall
  rw [hstays.window] at hsplit hwindow
  have hnumbered : ∀ number block, fetcher.window.get? number = some block →
      block.number = number := fun number block hget =>
    old.numbered number block (hrecorded number block hget)
  have hmem : ∀ {other : Block}, other ∈ above ++ block :: below →
      fetcher.window.get? other.number = some other := fun hother => by
    rw [← hsplit] at hother
    obtain ⟨number, hget⟩ := BlockWindow.mem_descending.1 hother
    rwa [hnumbered number _ hget]
  have hblock := hmem (List.mem_append_right _ List.mem_cons_self)
  have hcurrent := hshows.block _ _ _ _ hcall
  have hsafe : reorg.safeBlock = block :=
    family.hashed view hview old hold _ _ _ hcurrent (hrecorded _ _ hblock) hhash
  rw [hsafe] at hcurrent ⊢
  refine ⟨⟨hpositive (hstays.positive h.positive), ?_, ⟨old, hold, fun number other hget => ?_⟩,
    fun number other hget => ?_, ?_⟩, ⟨hblock, hcurrent, fun number other hget hother => ?_⟩, hnext⟩
  · rw [hwindow]
    exact h.capacity
  · rw [hwindow, BlockWindow.get?_truncateAbove] at hget
    exact hrecorded number other (Option.filter_eq_some_iff.1 hget).1
  · rw [hwindow, BlockWindow.get?_truncateAbove, Option.filter_eq_some_iff] at hget
    rw [hnext]
    exact Nat.lt_succ_of_le (of_decide_eq_true hget.2)
  · refine Or.inr ⟨block, ?_⟩
    rw [hnext, Nat.add_sub_cancel, hwindow, BlockWindow.get?_truncateAbove, hblock,
      Option.filter_some, if_pos (decide_eq_true (Nat.le_refl _))]
  · obtain rfl := hnumbered number other hget
    have hin : other ∈ above ++ block :: below := by
      rw [← hsplit]
      exact BlockWindow.mem_descending.2 ⟨_, hget⟩
    rcases List.mem_append.1 hin with hhigher | hlower
    · exact absurd hother ((habove other hhigher).not_on_view hshows)
    · have hdescending := BlockWindow.descending_pairwise hnumbered
      rw [hsplit] at hdescending
      rcases List.mem_cons.1 hlower with rfl | hrest
      · exact Nat.le_refl _
      · exact Nat.le_of_lt ((List.pairwise_cons.1
          (List.pairwise_append.1 hdescending).2.1).1 other hrest)

/-- What a round does to a fetcher with a canonical record. -/
def Keeps (view : ChainView) (before after : Fetcher) : Except FetchError Fetched → Prop
  | .ok (.batch batch) =>
    batch.fromBlock = before.nextBlock ∧ after.nextBlock = batch.lastBlock.number + 1 ∧
      (∃ block, after.window.get? (after.nextBlock - 1) = some block) ∧
      ∀ number block, after.window.get? number = some block → view.block? number = some block
  | .ok (.reorg reorg) =>
    before.Safe view reorg.safeBlock ∧ after.nextBlock = reorg.safeBlock.number + 1 ∧
      ∀ number block, after.window.get? number = some block → number ≤ reorg.safeBlock.number
  | .ok .atHead => after.nextBlock = before.nextBlock
  | .ok .finished => after.nextBlock = before.nextBlock
  | .error error => after.nextBlock = before.nextBlock ∧
    ∀ lowest, error = .reorgBeyondWindow lowest →
      ∀ number block, before.window.get? number = some block → view.block? number ≠ some block

/-- A round keeps the record canonical. -/
theorem Canonical.fetchNext {context : FetchContext τ} {state after : FetchState τ}
    {result : Except FetchError Fetched} (h : state.fetcher.Canonical family)
    (hview : view ∈ family.views) (hshows : context.source.Shows state.fetcher.chain view)
    (hfetch : fetchNext context state = (result, after)) :
    after.fetcher.Canonical family ∧ Keeps view state.fetcher after.fetcher result := by
  have hchecked := fetchNext_checked h.positive hfetch
  cases round_of_fetchNext hfetch with
  | finished => exact ⟨h, rfl⟩
  | atHead hstays => exact ⟨h.of_stays hstays, hstays.nextBlock⟩
  | headFailed hstays hhead =>
    refine ⟨h.of_stays hstays, hstays.nextBlock, fun lowest herror => ?_⟩
    subst herror
    exact absurd (congrArg Prod.fst hhead) (findHead_ne_beyond lowest)
  | eventsFailed hstays hpage =>
    refine ⟨h.of_stays hstays, hstays.nextBlock, fun lowest herror => ?_⟩
    subst herror
    exact absurd (congrArg Prod.fst hpage) (requestEvents_ne_beyond _ lowest)
  | batch _ _ _ _ hstays =>
    obtain ⟨page, maxRecorded, ⟨toBlock, source, last, hrange, hanswer⟩, hmoves, hfollows,
      hblocks⟩ := hchecked
    have hcovers := hshows.events _ _ _ _ _ _ hrange hanswer
    obtain ⟨hcanonical, hlast, hall⟩ := h.moves hview hcovers hmoves hfollows hblocks
    exact ⟨hcanonical, hstays.nextBlock, rfl, hlast, hall⟩
  | @fork _ _ _ _ _ located _ _ _ hstays _ _ hlocated =>
    cases located with
    | ok reorg =>
      obtain ⟨hcanonical, hsafe, hnext⟩ := h.located hview hstays hshows hlocated
      refine ⟨hcanonical, hsafe, hnext, fun number block hget => ?_⟩
      have hlt := hcanonical.below number block hget
      omega
    | error error =>
      have hstay := hstays.trans (locateSafeBlock_stays_of_error hlocated)
      refine ⟨h.of_stays hstay, hstay.nextBlock, ?_⟩
      rintro lowest rfl number block hget
      obtain ⟨old, hold, hrecorded⟩ := h.view
      obtain rfl := old.numbered number block (hrecorded number block hget)
      have hreplaced := locateSafeBlock_beyond hlocated block
        (hstays.window ▸ BlockWindow.mem_descending.2 ⟨_, hget⟩)
      exact hreplaced.not_on_view (hstays.chain ▸ hshows)

/-- Where the next batch starts after some rounds, of which the last one comes first: behind the
last batch, or behind the safe block if a fork was found since. -/
def goesOn : List (Except FetchError Fetched) → Option Nat
  | [] => none
  | .ok (.batch batch) :: _ => some (batch.lastBlock.number + 1)
  | .ok (.reorg reorg) :: _ => some (reorg.safeBlock.number + 1)
  | _ :: earlier => goesOn earlier

/-- The rounds that a fetcher may come through, the last one first. During each of them the source
shows one chain, which may be another one each time. -/
inductive Ran (family : ForkFamily) (first : Fetcher) :
    List (Except FetchError Fetched) → Fetcher → Prop
  | start : Ran family first [] first
  | round {rounds : List (Except FetchError Fetched)} {τ : Type} {context : FetchContext τ}
      {state after : FetchState τ} {result : Except FetchError Fetched} {view : ChainView}
      (before : Ran family first rounds state.fetcher) (hview : view ∈ family.views)
      (hshows : context.source.Shows state.fetcher.chain view)
      (hfetch : Fetcher.fetchNext context state = (result, after)) :
      Ran family first (result :: rounds) after.fetcher

variable {first : Fetcher} {rounds : List (Except FetchError Fetched)}

theorem Ran.canonical (h : Ran family first rounds fetcher)
    (hstart : first.StartsOn family recorded) :
    fetcher.Canonical family ∧ ∀ number ∈ goesOn rounds, fetcher.nextBlock = number := by
  induction h with
  | start => exact ⟨hstart.canonical, nofun⟩
  | @round rounds τ context state after result view before hview hshows hfetch ih =>
    obtain ⟨hcanonical, hgoesOn⟩ := ih
    obtain ⟨hafter, hkeeps⟩ := hcanonical.fetchNext hview hshows hfetch
    refine ⟨hafter, fun number hnumber => ?_⟩
    match result, hkeeps with
    | .ok (.batch batch), ⟨_, hnext, _⟩ => exact hnext.trans (Option.mem_some.1 hnumber)
    | .ok (.reorg reorg), ⟨_, hnext, _⟩ => exact hnext.trans (Option.mem_some.1 hnumber)
    | .ok .atHead, hstays => exact hstays.trans (hgoesOn number hnumber)
    | .ok .finished, hstays => exact hstays.trans (hgoesOn number hnumber)
    | .error error, ⟨hstays, _⟩ => exact hstays.trans (hgoesOn number hnumber)

/-- In every round of a fetcher that starts with a canonical record the batch, if there is one, goes
on behind the last one, or behind the safe block of a later reorg, and then all that is on record is
on the chain of the source, with the last block among it. If a reorg is found its safe block is the
highest one on record on the chain of the source, nothing above it stays on record, and the fetcher
goes on behind it. Only if no block on record is on the chain does the search end without one. -/
theorem Ran.record_canonical (hstart : first.StartsOn family recorded) {context : FetchContext τ}
    {state after : FetchState τ} {result : Except FetchError Fetched}
    (h : Ran family first rounds state.fetcher) (hview : view ∈ family.views)
    (hshows : context.source.Shows state.fetcher.chain view)
    (hfetch : Fetcher.fetchNext context state = (result, after)) :
    Keeps view state.fetcher after.fetcher result ∧
      ∀ batch, result = .ok (.batch batch) →
        ∀ number ∈ goesOn rounds, batch.fromBlock = number := by
  obtain ⟨hcanonical, hgoesOn⟩ := h.canonical hstart
  obtain ⟨-, hkeeps⟩ := hcanonical.fetchNext hview hshows hfetch
  refine ⟨hkeeps, ?_⟩
  rintro batch rfl number hnumber
  exact hkeeps.1.trans (hgoesOn number hnumber)

end Fetcher

/-! ### A chain that changes -/

/-- A chain up to a head whose blocks from some number on are others than before. -/
def ChainView.forkedFrom (fork head : Nat) : ChainView where
  block? number :=
    if number ≤ head then some ⟨number, hash number, hash (number - 1), 10 * number⟩ else none
  numbered number block h := by
    obtain ⟨-, heq⟩ := Option.ite_none_right_eq_some.1 h
    cases heq
    rfl
  linked number block h := by
    obtain ⟨hle, heq⟩ := Option.ite_none_right_eq_some.1 h
    cases heq
    exact ⟨_, if_pos (Nat.le_of_succ_le hle), rfl⟩
where
  hash (number : Nat) : String := if number < fork then "old" else "new"

/-- A chain of six blocks, and the same chain with other blocks from block 2 on. -/
def ForkFamily.ofTwo : ForkFamily where
  views := {.forkedFrom 9 5, .forkedFrom 2 6}
  hashed := by
    rintro view (rfl | rfl) view' (rfl | rfl) number block block' h h' hhash
    all_goals
      obtain ⟨hle, heq⟩ := Option.ite_none_right_eq_some.1 h
      obtain ⟨hle', heq'⟩ := Option.ite_none_right_eq_some.1 h'
      cases heq
      cases heq'
    · rfl
    · interval_cases number <;> simp_all [ChainView.forkedFrom.hash]
    · interval_cases number <;> simp_all [ChainView.forkedFrom.hash]
    · rfl

/-- A source that answers from one chain. -/
def ChainSource.ofView (view : ChainView) (head : Nat) : ChainSource Unit where
  head _ := answer head
  block _ number := answer number
  events _ fromBlock toBlock _ := do
    let first ← answer fromBlock
    let last ← answer toBlock
    pure ⟨[], first, last, []⟩
where
  answer (number : Nat) : Call Unit SourceError Block :=
    match view.block? number with
    | some block => pure block
    | none => throw (.transient "no such block")

theorem ChainSource.answer_eq_ok {view : ChainView} {number : Nat} {block : Block} {after : Unit}
    (h : ofView.answer view number () = (.ok block, after)) : view.block? number = some block := by
  rw [ofView.answer] at h
  cases hget : view.block? number with
  | none =>
    rw [hget] at h
    cases h
  | some found =>
    rw [hget] at h
    cases h
    rfl

theorem ChainSource.shows_ofView (view : ChainView) (head : Nat) (chain : ChainId) :
    (ChainSource.ofView view head).Shows chain view where
  events fromBlock toBlock watched state page after hrange h := by
    obtain ⟨first, middle, hfirst, h⟩ := Call.bind_eq_ok h
    obtain ⟨last, middle', hlast, h⟩ := Call.bind_eq_ok h
    cases h
    have hnumber := view.numbered _ _ (answer_eq_ok hlast)
    refine ⟨?_, answer_eq_ok hfirst, ?_, List.forall_mem_nil _⟩
    · exact hnumber.symm ▸ hrange
    · exact hnumber.symm ▸ answer_eq_ok hlast
  block number state block after h := answer_eq_ok h

namespace Fetcher

/-- A fetcher that asks for two blocks at once. -/
def recording (recorded : List Block) (nextBlock : Nat) : Fetcher where
  chain := 1
  settings := ⟨.start 2 1 2 1000 100, ⟨0, 1⟩, 5, 10, 1⟩
  nextBlock := nextBlock
  endBlock := none
  head := none
  batchSize := .start 2 1 2 1000 100
  batches := 0
  window := .start 10 recorded
  skipThrough := none

/-- The chain of six blocks, or the one that takes its place. -/
def twoView (isForked : Bool) : ChainView := if isForked then .forkedFrom 2 6 else .forkedFrom 9 5

def twoContext (isForked : Bool) : FetchContext Unit where
  source := .ofView (twoView isForked) (if isForked then 6 else 5)
  handlers := ⟨[]⟩
  watched := []
  responseMicros := 0

/-- Rounds on one of the two chains each, the last one first. -/
def roundsOn (fetcher : Fetcher) : List Bool → List (Except FetchError Fetched) × Fetcher
  | [] => ([], fetcher)
  | isForked :: earlier =>
    let before := fetcher.roundsOn earlier
    let (result, after) := Fetcher.fetchNext (twoContext isForked) ⟨before.2, (), 0⟩
    (result :: before.1, after.fetcher)

theorem twoView_mem (isForked : Bool) : twoView isForked ∈ ForkFamily.ofTwo.views := by
  cases isForked with
  | false => exact Or.inl rfl
  | true => exact Or.inr rfl

theorem ran_roundsOn (fetcher : Fetcher) (forks : List Bool) :
    Ran .ofTwo fetcher (fetcher.roundsOn forks).1 (fetcher.roundsOn forks).2 := by
  induction forks with
  | nil => exact .start
  | cons isForked earlier ih =>
    have hfetch : Fetcher.fetchNext (twoContext isForked) ⟨(fetcher.roundsOn earlier).2, (), 0⟩ =
        (_, _) := rfl
    refine Ran.round ?_ (twoView_mem isForked) (ChainSource.shows_ofView ..) hfetch
    exact ih

theorem recording_startsOn : (recording [] 0).StartsOn .ofTwo [] :=
  ⟨⟨by decide, by decide⟩, ⟨10, rfl⟩, ⟨twoView false, twoView_mem false, nofun⟩, nofun, Or.inl rfl⟩

/-- After two batches the chain is replaced from block 2 on. Block 1 is safe then. -/
theorem fork_keeps :
    ∃ reorg after, Fetcher.fetchNext (twoContext true)
        ⟨((recording [] 0).roundsOn [false, false]).2, (), 0⟩ = (.ok (.reorg reorg), after) ∧
      reorg.safeBlock = ⟨1, "old", "old", 10⟩ ∧
      ((recording [] 0).roundsOn [false, false]).2.Safe (twoView true) reorg.safeBlock ∧
      after.fetcher.nextBlock = 2 := by
  have hreorg : (Fetcher.fetchNext (twoContext true)
      ⟨((recording [] 0).roundsOn [false, false]).2, (), 0⟩).1 =
        .ok (.reorg ⟨1, ⟨1, "old", "old", 10⟩⟩) := by decide +kernel
  obtain ⟨⟨hsafe, hnext, -⟩, -⟩ := Ran.record_canonical recording_startsOn
    (ran_roundsOn (recording [] 0) [false, false]) (twoView_mem true)
    (ChainSource.shows_ofView ..) (Prod.ext hreorg rfl)
  exact ⟨_, _, Prod.ext hreorg rfl, rfl, hsafe, hnext⟩

/-- A batch of two blocks without events. -/
def batchOfTwo (head batches : Nat) (first last : Block) : FetchedBatch :=
  ⟨1, first.number, last, head, [], batches, [first, last]⟩

/-- A fetcher with blocks of both chains on record. -/
def mixed : Fetcher := recording [⟨2, "new", "old", 20⟩, ⟨3, "old", "old", 30⟩] 4

/-- A fetcher with a block on record that lies above the block where it goes on. -/
def high : Fetcher := recording [⟨3, "old", "old", 30⟩, ⟨6, "new", "new", 60⟩] 4

/-- Behind a reorg a batch does not start behind the batch before. And a record that has the block
before the next one may hold blocks of two chains, or blocks that lie higher: such a block stays on
record when a batch of the other chain follows. -/
theorem batch_not_canonical :
    (∃ last batch earlier fetcher,
      Ran .ofTwo (recording [] 0)
        (.ok (.batch batch) :: .ok (.reorg ⟨1, ⟨1, "old", "old", 10⟩⟩) :: .ok (.batch last) ::
          earlier) fetcher ∧
      batch.fromBlock ≠ last.lastBlock.number + 1) ∧
    (∃ batch after,
      (twoContext false).source.Shows mixed.chain (twoView false) ∧
      Fetcher.fetchNext (twoContext false) ⟨mixed, (), 0⟩ = (.ok (.batch batch), after) ∧
      after.fetcher.window.get? 2 = some ⟨2, "new", "old", 20⟩ ∧
      (twoView false).block? 2 ≠ some ⟨2, "new", "old", 20⟩) ∧
    ∃ batch after,
      (twoContext false).source.Shows high.chain (twoView false) ∧
      Fetcher.fetchNext (twoContext false) ⟨high, (), 0⟩ = (.ok (.batch batch), after) ∧
      after.fetcher.window.get? 6 = some ⟨6, "new", "new", 60⟩ ∧
      (twoView false).block? 6 ≠ some ⟨6, "new", "new", 60⟩ := by
  have hrounds : ((recording [] 0).roundsOn [true, true, false, false]).1 =
      [.ok (.batch (batchOfTwo 6 3 ⟨2, "new", "old", 20⟩ ⟨3, "new", "new", 30⟩)),
        .ok (.reorg ⟨1, ⟨1, "old", "old", 10⟩⟩),
        .ok (.batch (batchOfTwo 5 2 ⟨2, "old", "old", 20⟩ ⟨3, "old", "old", 30⟩)),
        .ok (.batch (batchOfTwo 5 1 ⟨0, "old", "old", 0⟩ ⟨1, "old", "old", 10⟩))] := by
    decide +kernel
  have hmixed : (Fetcher.fetchNext (twoContext false) ⟨mixed, (), 0⟩).1 =
      .ok (.batch (batchOfTwo 5 1 ⟨4, "old", "old", 40⟩ ⟨5, "old", "old", 50⟩)) := by
    decide +kernel
  have hhigh : (Fetcher.fetchNext (twoContext false) ⟨high, (), 0⟩).1 =
      .ok (.batch (batchOfTwo 5 1 ⟨4, "old", "old", 40⟩ ⟨5, "old", "old", 50⟩)) := by
    decide +kernel
  refine ⟨⟨_, _, _, _, hrounds ▸ ran_roundsOn (recording [] 0) [true, true, false, false], ?_⟩,
    ⟨_, _, ChainSource.shows_ofView .., Prod.ext hmixed rfl, ?_, ?_⟩,
    ⟨_, _, ChainSource.shows_ofView .., Prod.ext hhigh rfl, ?_, ?_⟩⟩
  · decide
  · decide +kernel
  · decide
  · decide +kernel
  · decide

end Fetcher

end ChainIndexer
