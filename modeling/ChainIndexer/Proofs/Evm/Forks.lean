import ChainIndexer.Proofs.Evm.Pages

/-!
# Pages that mix forks

A node may change over to another fork between any two of the requests that a page takes. Logs name
their blocks by hash, but nothing holds those hashes against the blocks that come with the page. So
the events of a page are of the blocks on it exactly if the answers happen to agree.
-/

namespace ChainIndexer

/-- Whether the events of a page happened in the blocks that the page has under their numbers. -/
def EventPage.OfOneFork (page : EventPage) : Prop :=
  ∀ event ∈ page.events, ∃ block ∈ page.blocks,
    block.number = event.block ∧ block.hash = event.blockHash

end ChainIndexer

namespace ChainIndexer.Evm

/-- Whether an answer has the hashes that some fork has under its numbers. -/
def Exchange.IsFrom (fork : Nat → Hash) : Exchange → Prop
  | .block _ (.ok (some answer)) => ∀ number ∈ answer.number, answer.hash = some (fork number)
  | .logs _ (.ok answered) => ∀ log ∈ answered, ∀ number ∈ log.blockNumber,
      log.blockHash = some (fork number)
  | _ => True

namespace HeardPage

variable {heard : HeardPage}

/-- Whether logs that give events name the blocks that are kept under their numbers. -/
def Agrees (heard : HeardPage) : Prop :=
  ∀ answered ∈ heard.logs, ∀ log ∈ answered.logs, log.IsAskedFor answered.filter.topics →
    ∀ number kept, log.blockNumber = some number → heard.kept? number = some kept →
      log.blockHash = kept.answer.hash

theorem exchange_mem_of_kept? {number : Nat} {kept : HeardBlock}
    (h : heard.kept? number = some kept) : kept.exchange ∈ heard.exchanges := by
  have hmem := List.mem_of_find?_eq_some h
  refine block_mem_exchanges_iff.2 ⟨kept, ?_, rfl, rfl⟩
  simpa [or_left_comm] using hmem

theorem agrees_of_isFrom {fork : Nat → Hash}
    (h : ∀ exchange ∈ heard.exchanges, exchange.IsFrom fork) : heard.Agrees := by
  intro answered hanswered log hlog _ number kept hnumber hkept
  have hblock := h _ (exchange_mem_of_kept? hkept) number
    (by rw [kept.answer_number, number_of_kept? hkept]; rfl)
  have hlogs :=
    h _ (logs_mem_exchanges_iff.2 ⟨answered, hanswered, rfl, rfl⟩) log hlog number hnumber
  rw [hlogs, hblock]

theorem Makes.ofOneFork_iff_agrees {abis : EventAbis} {chain first last : Nat} {page : EventPage}
    (h : heard.Makes abis chain first last page) : page.OfOneFork ↔ heard.Agrees := by
  constructor
  · intro hfork answered hanswered log hlog hasked number kept hnumber hkept
    obtain ⟨place, _, hplace, -, hevents⟩ := h.of_log hanswered hlog
    obtain rfl : number = place := Option.some.inj (hnumber.symm.trans hplace)
    obtain ⟨event, hevent, rfl, logHash, hlogHash, heventHash⟩ := hevents hasked
    obtain ⟨block, hblock, hblockNumber, hblockHash⟩ := hfork event hevent
    obtain ⟨other, hother, rfl⟩ := h.mem_blocks_iff.1 hblock
    obtain rfl : kept = other :=
      Option.some.inj (hkept.symm.trans (hblockNumber ▸ hother))
    obtain ⟨hash, hhash, htext⟩ := kept.answer_hash
    rw [hlogHash, hhash, Hash.text_inj.1 (htext.symm.trans (hblockHash.trans heventHash))]
  · intro hagrees event hevent
    obtain ⟨answered, hanswered, log, hlog, kept, hasked, hplace, hkept, -, logHash, hlogHash,
      heventHash⟩ := h.of_event hevent
    obtain ⟨hash, hhash, htext⟩ := kept.answer_hash
    have hsame := hagrees answered hanswered log hlog hasked _ kept hplace hkept
    refine ⟨kept.block, h.kept_mem_blocks hkept, number_of_kept? hkept, ?_⟩
    rw [hlogHash, hhash, Option.some.injEq] at hsame
    rw [htext, heventHash, hsame]

end HeardPage

/-! ### Forks that go unnoticed -/

variable {σ : Type} {abis : EventAbis} {node : Node σ} {chain first last : Nat}
  {watched : List WatchedAddress} {state after : σ} {page : EventPage}

/-- A node whose blocks have other hashes, as they do if it changes over to another fork. -/
def Node.withHashes (node : Node σ) (hashes : σ → Nat → Hash) : Node σ where
  head := node.head
  block number := fun state =>
    let (answer, after) := node.block number state
    let answered := answer.map fun block => block.map fun block =>
      { block with hash := block.hash.map fun _ => hashes state number }
    (answered, after)
  logs := node.logs

variable {hashes : σ → Nat → Hash}

theorem fetchBlock_withHashes {number : Nat} {block : Block}
    (h : fetchBlock node number state = (.ok block, after)) :
    fetchBlock (node.withHashes hashes) number state =
      (.ok { block with hash := Hash.text (hashes state number) }, after) := by
  obtain ⟨answer, hanswer, hreads⟩ := fetchBlock_eq_ok_iff.1 h
  obtain ⟨place, hash, hplace, hhash, rfl⟩ := NodeBlock.toBlock_eq_ok_iff.1 hreads
  refine fetchBlock_eq_ok_iff.2
    ⟨{ answer with hash := some (hashes state number) }, ?_, ?_⟩
  · simp only [Node.withHashes, hanswer, Except.map, Option.map_some, hhash]
  · exact NodeBlock.toBlock_eq_ok_iff.2 ⟨place, hashes state number, hplace, rfl, rfl⟩

/-- Whether blocks are kept under the same numbers, with the same times. -/
def SameTimes (blocks others : Table Nat Block) : Prop :=
  ∀ number, (blocks.get? number).map (·.timestamp) = (others.get? number).map (·.timestamp)

theorem SameTimes.insert {blocks others : Table Nat Block} (h : SameTimes blocks others)
    (number : Nat) (block : Block) (hash : String) :
    SameTimes (blocks.insert number block) (others.insert number { block with hash := hash }) := by
  intro place
  rw [Table.get?_insert, Table.get?_insert]
  by_cases hplace : place = number
  · rw [if_pos hplace, if_pos hplace]
    rfl
  · rw [if_neg hplace, if_neg hplace]
    exact h place

theorem SameTimes.insertNew {blocks others : Table Nat Block} (h : SameTimes blocks others)
    (number : Nat) (block : Block) (hash : String) :
    SameTimes (blocks.insertNew number block)
      (others.insertNew number { block with hash := hash }) := by
  intro place
  rw [Table.get?_insertNew, Table.get?_insertNew, Option.map_or, Option.map_or, h place]
  by_cases hplace : place = number <;> simp [hplace]

theorem fetchBlocks_withHashes {numbers : List Nat} {blocks : Table Nat Block}
    (h : fetchBlocks node numbers state = (.ok blocks, after)) :
    ∃ others, fetchBlocks (node.withHashes hashes) numbers state = (.ok others, after) ∧
      SameTimes blocks others := by
  induction numbers generalizing state blocks with
  | nil =>
    cases h
    exact ⟨.empty, rfl, fun _ => rfl⟩
  | cons first rest ih =>
    obtain ⟨block, between, earlier, hblock, hearlier, rfl⟩ := fetchBlocks_cons_eq_ok_iff.1 h
    obtain ⟨others, hothers, htimes⟩ := ih hearlier
    exact ⟨_, fetchBlocks_cons_eq_ok_iff.2
      ⟨_, between, others, fetchBlock_withHashes hblock, hothers, rfl⟩, htimes.insertNew _ _ _⟩

theorem fetchLogs_withHashes (filters : List (WatchedAddress × LogFilter)) :
    fetchLogs (node.withHashes hashes) filters = fetchLogs node filters := by
  induction filters with
  | nil => rfl
  | cons first rest ih =>
    simp only [fetchLogs, ih]
    rfl

/-- Of the blocks only the times are looked at. -/
theorem decodeLogs_congr {blocks others : Table Nat Block} (h : SameTimes blocks others)
    (logs : List (WatchedAddress × Log)) :
    decodeLogs abis chain blocks logs = decodeLogs abis chain others logs := by
  induction logs with
  | nil => rfl
  | cons first rest ih =>
    obtain ⟨watched, log⟩ := first
    simp only [decodeLogs, ih]
    refine bind_congr fun number => ?_
    have htime := h number
    cases hblock : blocks.get? number with
    | none =>
      rw [hblock, Option.map_none, eq_comm, Option.map_eq_none_iff] at htime
      rw [htime]
    | some block =>
      rw [hblock, Option.map_some, eq_comm, Option.map_eq_some_iff] at htime
      obtain ⟨other, hother, htime⟩ := htime
      rw [hother]
      simp only [htime]

/-- Blocks with other hashes than those of the logs do not keep a page from being returned. -/
theorem fetchPage_withHashes
    (h : fetchPage abis node chain first last watched state = (.ok page, after)) :
    ∃ other, fetchPage abis (node.withHashes hashes) chain first last watched state =
      (.ok other, after) ∧ other.events = page.events := by
  obtain ⟨firstBlock, afterFirst, lastBlock, afterLast, filters, logs, afterLogs, between, events,
    hfirst, hlast, hfilters, hlogs, hbetween, hevents, rfl⟩ := fetchPage_eq_ok_iff.1 h
  obtain ⟨others, hothers, htimes⟩ := fetchBlocks_withHashes hbetween
  rw [decodeLogs_congr ((htimes.insert _ _ _).insert _ _ _)] at hevents
  rw [← fetchLogs_withHashes] at hlogs
  exact ⟨_, fetchPage_eq_ok_iff.2 ⟨_, _, _, _, filters, logs, afterLogs, others, events,
    fetchBlock_withHashes hfirst, fetchBlock_withHashes hlast, hfilters, hlogs, hothers, hevents,
    rfl⟩, rfl⟩

/-- No fork keeps a page from being returned: with blocks of any other hashes it has the same events.
So a page is of one fork where all answers are, and in general exactly if its logs name the blocks
that are kept. -/
theorem fetchPage_ofOneFork_iff
    (h : fetchPage abis node chain first last watched state = (.ok page, after)) :
    (∀ hashes, ∃ other,
        fetchPage abis (node.withHashes hashes) chain first last watched state =
          (.ok other, after) ∧ other.events = page.events) ∧
      (∀ fork, (∀ exchange ∈ pageExchanges abis node chain first last watched state,
        exchange.IsFrom fork) → page.OfOneFork) ∧
      ∃ heard : HeardPage,
        pageExchanges abis node chain first last watched state = heard.exchanges ∧
        (page.OfOneFork ↔ heard.Agrees) := by
  obtain ⟨heard, hmakes, hheard⟩ := makes_of_fetchPage h
  refine ⟨fun hashes => fetchPage_withHashes h, fun fork hfrom => ?_,
    heard, hheard, hmakes.ofOneFork_iff_agrees⟩
  rw [hheard] at hfrom
  exact hmakes.ofOneFork_iff_agrees.2 (HeardPage.agrees_of_isFrom hfrom)

/-- Without a fork the page is of one; with one after the logs, before the block that has them is
asked for, it is not. -/
theorem forkingNode_mixes_forks :
    (∃ page after,
      fetchPage [("Token", pingAbi)] (forkingNode (fun _ => 0) 2) 1 1 3 [pingAddress] 0 =
        (.ok page, after) ∧ page.events ≠ [] ∧ page.OfOneFork) ∧
      ∃ page after,
        fetchPage [("Token", pingAbi)] (forkingNode (· / 3) 2) 1 1 3 [pingAddress] 0 =
          (.ok page, after) ∧ ¬ page.OfOneFork := by
  have hpage := fetchPage_forkingNode fun _ => 0
  refine ⟨⟨_, 4, hpage, nofun, (fetchPage_ofOneFork_iff hpage).2.1 (forkHash 0) ?_⟩,
    _, 4, fetchPage_forkingNode (· / 3), fun hfork => ?_⟩
  · intro exchange hexchange
    have hgives := gives_of_mem_pageExchanges hexchange
    cases exchange with
    | head answer => trivial
    | block number answer =>
      obtain ⟨count, rfl⟩ := hgives
      intro place hplace
      cases hplace
      rfl
    | logs filter answer =>
      obtain ⟨count, rfl⟩ := hgives
      intro log hlog place hplace
      obtain rfl := List.mem_singleton.1 hlog
      cases hplace
      rfl
  · obtain ⟨block, hblock, hnumber, hhash⟩ := hfork _ List.mem_cons_self
    rcases hblock with _ | ⟨_, _ | ⟨_, _ | ⟨_, hnone⟩⟩⟩
    · cases hnumber
    · exact absurd (Hash.text_inj.1 hhash) (by decide)
    · cases hnumber
    · cases hnone

end ChainIndexer.Evm
