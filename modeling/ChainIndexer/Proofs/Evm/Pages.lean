import ChainIndexer.Proofs.Evm.Answers
import ChainIndexer.Proofs.Fork.Fetch
import ChainIndexer.Proofs.Numerals

/-!
# What a page promises

The blocks on a page are there to find forks by: the ends of the range, and the block of each event
with the one before it. A node keeps that promise if it answers a request for a block with a block
of that number. The two ends are asked for one by one, so where they are the same block the page has
only the answer that came for the last one.
-/

namespace ChainIndexer

/-- What is promised of a page of the events from one block through another. -/
structure EventPage.KeepsContract (page : EventPage) (first last : Nat) : Prop where
  sorted : page.events.Pairwise fun a b => a.position ≤ b.position
  ascending : page.blocks.Pairwise fun a b => a.number < b.number
  events_inRange : first ≤ last → ∀ event ∈ page.events,
    first ≤ event.block ∧ event.block ≤ page.lastBlock.number
  blocks_inRange : first ≤ last → ∀ block ∈ page.blocks,
    first ≤ block.number ∧ block.number ≤ page.lastBlock.number
  holds_last : page.lastBlock ∈ page.blocks
  holds_first : page.firstBlock.number ≠ page.lastBlock.number → page.firstBlock ∈ page.blocks
  holds_event : ∀ event ∈ page.events, ∃ block ∈ page.blocks,
    block.number = event.block ∧ block.timestamp = event.timestamp
  holds_parent : ∀ event ∈ page.events, ∀ number, number + 1 = event.block →
    page.firstBlock.number ≤ number → ∃ block ∈ page.blocks, block.number = number

/-- Fork detection may rely on pages that keep their promise. -/
theorem EventPage.KeepsContract.spans {page : EventPage} {first last : Nat}
    (h : page.KeepsContract first last) (hfirst : page.firstBlock.number = first)
    (hlast : page.lastBlock.number = last) (hrange : first ≤ last) : page.Spans first where
  first := hfirst
  range := hlast ▸ hrange
  events := h.events_inRange hrange
  surrounds := by
    rintro event hevent number hnumber (rfl | hparent)
    · obtain ⟨block, hblock, hplace, -⟩ := h.holds_event event hevent
      exact ⟨block, List.mem_cons_of_mem _ (List.mem_cons_of_mem _ hblock), hplace⟩
    · obtain ⟨block, hblock, hplace⟩ := h.holds_parent event hevent number hparent hnumber
      exact ⟨block, List.mem_cons_of_mem _ (List.mem_cons_of_mem _ hblock), hplace⟩

end ChainIndexer

namespace ChainIndexer.Evm

variable {σ : Type}

/-- Whether blocks that were answered have the numbers that they were asked for by. -/
def AnsweredByNumber (exchanges : List Exchange) : Prop :=
  ∀ number answer, .block number (.ok (some answer)) ∈ exchanges → answer.number = some number

theorem mem_blocksBetween_iff {first last number : Nat} {logs : List Log} :
    number ∈ blocksBetween first last logs ↔ first < number ∧ number < last ∧
      ∃ log ∈ logs, ∃ place, log.blockNumber = some place ∧
        (number = place ∨ number + 1 = place) := by
  have hnear : ∀ log : Log,
      (number ∈ log.blockNumber.elim []
          fun place => if place = 0 then [0] else [place - 1, place]) ↔
        ∃ place, log.blockNumber = some place ∧ (number = place ∨ number + 1 = place) := by
    intro log
    cases log.blockNumber with
    | none => simp
    | some place =>
      by_cases hplace : place = 0
      · simp [hplace]
      · simp only [Option.elim_some, if_neg hplace, List.mem_cons, List.not_mem_nil, or_false,
          Option.some.injEq, exists_eq_left']
        omega
  simp only [blocksBetween, List.mem_eraseDups, List.mem_mergeSort, List.mem_filter,
    List.mem_flatMap, hnear, decide_eq_true_eq]
  constructor
  · rintro ⟨hlog, hfirst, hlast⟩
    exact ⟨hfirst, hlast, hlog⟩
  · rintro ⟨hfirst, hlast, hlog⟩
    exact ⟨hlog, hfirst, hlast⟩

theorem HeardBlock.number_eq {heard : HeardBlock} {exchanges : List Exchange}
    (h : AnsweredByNumber exchanges) (hheard : heard.exchange ∈ exchanges) :
    heard.block.number = heard.asked :=
  Option.some.inj (heard.answer_number.symm.trans (h _ _ hheard))

namespace HeardPage.Makes

variable {heard : HeardPage} {abis : EventAbis} {chain first last : Nat} {page : EventPage}

section Numbered

variable (h : heard.Makes abis chain first last page) (hnumbered : AnsweredByNumber heard.exchanges)
include h hnumbered

theorem first_number : page.firstBlock.number = first := by
  rw [h.firstBlock, HeardBlock.number_eq hnumbered List.mem_cons_self, h.asked_first]

theorem last_number : page.lastBlock.number = last := by
  rw [h.lastBlock, HeardBlock.number_eq hnumbered (by simp [exchanges]), h.asked_last]

theorem between_numbers :
    heard.between.map (·.block.number) =
      blocksBetween first last (heard.watchedLogs.map (·.2)) := by
  have hlast : heard.last.block.number = last := h.lastBlock ▸ h.last_number hnumbered
  rw [← hlast, ← h.asked_between]
  refine List.map_congr_left fun block hblock => HeardBlock.number_eq hnumbered ?_
  simp only [exchanges, List.mem_cons, List.mem_append]
  exact .inr (.inr (.inr (List.mem_map_of_mem hblock)))

/-- The numbers under which blocks are kept: the ends of the range, and around logs within it. -/
theorem kept?_isSome_iff_near {number : Nat} :
    (heard.kept? number).isSome ↔ number = first ∨ number = last ∨
      first < number ∧ number < last ∧ ∃ log ∈ heard.watchedLogs.map (·.2), ∃ place,
        log.blockNumber = some place ∧ (number = place ∨ number + 1 = place) := by
  have hfirst : heard.first.block.number = first := h.firstBlock ▸ h.first_number hnumbered
  have hlast : heard.last.block.number = last := h.lastBlock ▸ h.last_number hnumbered
  rw [kept?_isSome_iff, h.between_numbers hnumbered, mem_blocksBetween_iff, hfirst, hlast,
    eq_comm (a := first), eq_comm (a := last)]
  exact or_left_comm

theorem inRange_of_kept? {number : Nat} (hrange : first ≤ last)
    (hkept : (heard.kept? number).isSome) : first ≤ number ∧ number ≤ last := by
  rcases (h.kept?_isSome_iff_near hnumbered).1 hkept with rfl | rfl | ⟨hfirst, hlast, -⟩ <;> omega

/-- The block before an event is an end of the range, or was asked for, or lies below the range. -/
theorem kept?_parent {event : Event} (hevent : event ∈ page.events) {number : Nat}
    (hparent : number + 1 = event.block) (hnumber : first ≤ number) :
    (heard.kept? number).isSome := by
  obtain ⟨answered, hanswered, log, hlog, kept, -, hplace, hkept, -⟩ := h.of_event hevent
  have hmem : log ∈ heard.watchedLogs.map (·.2) :=
    List.mem_map.2 ⟨(answered.watched, log),
      mem_watchedLogs_iff.2 ⟨answered, hanswered, rfl, hlog⟩, rfl⟩
  have hblock := (h.kept?_isSome_iff_near hnumbered).1 (Option.isSome_of_eq_some hkept)
  refine (h.kept?_isSome_iff_near hnumbered).2 ?_
  by_cases hfirst : number = first
  · exact .inl hfirst
  · exact .inr (.inr ⟨by omega, by omega, log, hmem, _, hplace, .inr hparent⟩)

theorem keepsContract : page.KeepsContract first last where
  sorted := by
    obtain ⟨blocks, events, -, -, -, hevents⟩ := h.decodes
    rw [hevents]
    exact Event.sortByPosition_pairwise events
  ascending := by
    obtain ⟨blocks, -, hget, hblocks, -, -⟩ := h.decodes
    have hnumbers : ∀ number block, blocks.get? number = some block → block.number = number := by
      intro number block hblock
      obtain ⟨-, -, -, hnumber⟩ := kept?_of_get? hget hblock
      exact hnumber
    rw [hblocks]
    exact (Table.values_ordered hnumbers).imp fun hlt => Nat.compare_eq_lt.1 hlt
  events_inRange := by
    intro hrange event hevent
    obtain ⟨-, -, -, -, kept, -, -, hkept, -⟩ := h.of_event hevent
    rw [h.last_number hnumbered]
    exact h.inRange_of_kept? hnumbered hrange (Option.isSome_of_eq_some hkept)
  blocks_inRange := by
    intro hrange block hblock
    obtain ⟨kept, hkept, rfl⟩ := h.mem_blocks_iff.1 hblock
    rw [h.last_number hnumbered]
    exact h.inRange_of_kept? hnumbered hrange (Option.isSome_of_eq_some hkept)
  holds_last := by
    have hkept : heard.kept? heard.last.block.number = some heard.last := by simp [kept?]
    exact h.lastBlock ▸ h.kept_mem_blocks hkept
  holds_first := by
    rw [h.firstBlock, h.lastBlock]
    intro hne
    have hkept : heard.kept? heard.first.block.number = some heard.first := by
      simp [kept?, Ne.symm hne]
    exact h.kept_mem_blocks hkept
  holds_event := by
    intro event hevent
    obtain ⟨-, -, -, -, kept, -, -, hkept, htime, -⟩ := h.of_event hevent
    exact ⟨kept.block, h.kept_mem_blocks hkept, number_of_kept? hkept, htime.symm⟩
  holds_parent := by
    intro event hevent number hparent hnumber
    rw [h.first_number hnumbered] at hnumber
    obtain ⟨kept, hkept⟩ :=
      Option.isSome_iff_exists.1 (h.kept?_parent hnumbered hevent hparent hnumber)
    exact ⟨kept.block, h.kept_mem_blocks hkept, number_of_kept? hkept⟩

end Numbered

end HeardPage.Makes

/-! ### Nodes that answer by number -/

variable {abis : EventAbis} {node : Node σ} {chain first last : Nat}
  {watched : List WatchedAddress} {state : σ}

/-- Whether a node never answers with a block of another number than the one asked for. -/
def Node.AnswersByNumber (node : Node σ) : Prop :=
  ∀ number state answer, (node.block number state).1 = .ok (some answer) →
    answer.number = some number

theorem Node.AnswersByNumber.exchanges (h : node.AnswersByNumber) :
    AnsweredByNumber (pageExchanges abis node chain first last watched state) := by
  intro number answer hmem
  obtain ⟨before, hanswer⟩ := gives_of_mem_pageExchanges hmem
  exact h number before answer hanswer

/-- A node that answers by number is a source whose pages fork detection may rely on. -/
theorem spans_of_source_events (h : node.AnswersByNumber) (hrange : first ≤ last)
    {page : EventPage} {after : σ}
    (hpage : (source abis node).events chain first last watched state = (.ok page, after)) :
    page.Spans first := by
  obtain ⟨heard, hmakes, hheard⟩ := makes_of_fetchPage hpage
  have hnumbered : AnsweredByNumber heard.exchanges := hheard ▸ h.exchanges
  exact (hmakes.keepsContract hnumbered).spans (hmakes.first_number hnumbered)
    (hmakes.last_number hnumbered) hrange

/-! ### A node with forks -/

/-- An event without parameters. -/
def pingAbi : EventAbi := ⟨"Ping", [], false⟩

def pingAddress : WatchedAddress := ⟨"0x0000000000000000000000000000000000000001", "Token", 0⟩

def forkHash (fork number : Nat) : Hash := BitVec.ofNat 256 (2 * number + fork)

def pingLog (fork place : Nat) : Log :=
  ⟨1, [pingAbi.topic], [], some (forkHash fork place), some place, some 0, some 0, some 0, false⟩

/-- A node that answers each of its requests from another fork, by the number of requests before.
On every fork there is one log, in the same block. -/
def forkingNode (forks : Nat → Nat) (place : Nat) : Node Nat where
  head := fun count => (.ok place, count + 1)
  block number := fun count =>
    (.ok (some ⟨some number, some (forkHash (forks count) number),
      forkHash (forks count) (number - 1), number⟩), count + 1)
  logs _ := fun count => (.ok [pingLog (forks count) place], count + 1)

def forkBlock (fork number : Nat) : Block :=
  ⟨number, Hash.text (forkHash fork number), Hash.text (forkHash fork (number - 1)), lowWord number⟩

def pingEvent (fork place : Nat) : Event where
  chain := 1
  address := pingAddress.address
  contract := "Token"
  name := "Ping"
  params := .object []
  blockHash := Hash.text (forkHash fork place)
  block := place
  timestamp := lowWord place
  transactionHash := Hash.text 0
  transactionIndex := 0
  logIndex := 0

theorem forkingNode_answersByNumber (forks : Nat → Nat) (place : Nat) :
    (forkingNode forks place).AnswersByNumber := by
  intro number state answer h
  cases h
  rfl

theorem filtersFor_pingAddress (first last : Nat) :
    filtersFor [("Token", pingAbi)] first last [pingAddress] =
      .ok [(pingAddress, ⟨1, [pingAbi.topic], first, last⟩)] := by
  have haddress : Address.ofText? pingAddress.address = some 1 := by decide
  rw [filtersFor, haddress]
  rfl

theorem decodeLogs_single {blocks : Table Nat Block} {address : WatchedAddress} {log : Log}
    {place : Nat} {block : Block} {event : Event} (hplace : log.blockNumber = some place)
    (hblock : blocks.get? place = some block)
    (hdecoded : decodeLog abis chain address block.timestamp log = .ok (some event)) :
    decodeLogs abis chain blocks [(address, log)] = .ok [event] := by
  simp only [decodeLogs, hplace, required, bind, Except.bind, hblock, hdecoded]
  rfl

theorem decodeLog_of_readLog {address : WatchedAddress} {abi : EventAbi} {topic blockHash : Hash}
    {rest : List Hash} {data : List UInt8} {params : Json} {timestamp place : Nat}
    (hfind : abis.find? address.contract topic = some abi)
    (hread : abi.readLog (topic :: rest) data = some params) :
    decodeLog abis chain address timestamp
        ⟨1, topic :: rest, data, some blockHash, some place, some 0, some 0, some 0, false⟩ =
      .ok (some ⟨chain, address.address, address.contract, abi.name, params, Hash.text blockHash,
        place, timestamp, Hash.text 0, 0, lowWord 0⟩) := by
  simp only [decodeLog, hfind, hread]
  rfl

theorem decodeLogs_pingLog {blocks : Table Nat Block} {block : Block} {place : Nat} (fork : Nat)
    (h : blocks.get? place = some block) (htime : block.timestamp = lowWord place) :
    decodeLogs [("Token", pingAbi)] 1 blocks [(pingAddress, pingLog fork place)] =
      .ok [pingEvent fork place] := by
  have hfind : EventAbis.find? [("Token", pingAbi)] "Token" pingAbi.topic = some pingAbi := by
    simp [EventAbis.find?]
  have hread : pingAbi.readLog [pingAbi.topic] [] = some (.object []) := by
    simp [EventAbi.readLog, pingAbi, AbiType.decode, AbiType.readAll]
  refine decodeLogs_single rfl h ?_
  rw [htime]
  exact decodeLog_of_readLog hfind hread

/-- The ends of the range, the logs and the block between may each be of a fork of their own. -/
theorem fetchPage_forkingNode (forks : Nat → Nat) :
    fetchPage [("Token", pingAbi)] (forkingNode forks 2) 1 1 3 [pingAddress] 0 =
      (.ok ⟨[pingEvent (forks 2) 2], forkBlock (forks 0) 1, forkBlock (forks 1) 3,
        [forkBlock (forks 0) 1, forkBlock (forks 3) 2, forkBlock (forks 1) 3]⟩, 4) := by
  have hnear : blocksBetween 1 3 [pingLog (forks 2) 2] = [2] := by
    simp [blocksBetween, pingLog, List.eraseDups_cons]
  refine fetchPage_eq_ok_iff.2 ⟨_, 1, _, 2, _, [(pingAddress, pingLog (forks 2) 2)], 3,
    Table.empty.insert 2 (forkBlock (forks 3) 2), [pingEvent (forks 2) 2], rfl, rfl,
    filtersFor_pingAddress 1 3, rfl, congrArg (fetchBlocks _ · _) hnear,
    decodeLogs_pingLog (forks 2) (show Table.get? _ 2 = some (forkBlock (forks 3) 2) from rfl) rfl,
    ?_⟩
  rw [Event.sortByPosition, List.mergeSort_singleton]
  rfl

/-- The log of a range that ends where it begins, or before, is taken from its first block. -/
theorem fetchPage_forkingNode_of_le (forks : Nat → Nat) (h : last ≤ first) :
    fetchPage [("Token", pingAbi)] (forkingNode forks first) 1 first last [pingAddress] 0 =
      (.ok ⟨[pingEvent (forks 2) first], forkBlock (forks 0) first, forkBlock (forks 1) last,
        ((Table.empty.insert first (forkBlock (forks 0) first)).insert
          last (forkBlock (forks 1) last)).values⟩, 3) := by
  have hnear : blocksBetween first last [pingLog (forks 2) first] = [] := by
    refine List.eq_nil_iff_forall_not_mem.2 fun number hnumber => ?_
    have hplace := mem_blocksBetween_iff.1 hnumber
    omega
  have htime : ∃ block, ((Table.empty.insert first (forkBlock (forks 0) first)).insert
      last (forkBlock (forks 1) last)).get? first = some block ∧
        block.timestamp = lowWord first := by
    rw [Table.get?_insert, Table.get?_insert, if_pos rfl]
    by_cases hlast : first = last
    · exact ⟨_, if_pos hlast, hlast ▸ rfl⟩
    · exact ⟨_, if_neg hlast, rfl⟩
  obtain ⟨block, hblock, htime⟩ := htime
  refine fetchPage_eq_ok_iff.2 ⟨_, 1, _, 2, _, [(pingAddress, pingLog (forks 2) first)], 3, .empty,
    [pingEvent (forks 2) first], rfl, rfl, filtersFor_pingAddress first last, rfl,
    congrArg (fetchBlocks _ · _) hnear, decodeLogs_pingLog _ hblock htime, ?_⟩
  rw [Event.sortByPosition, List.mergeSort_singleton]
  rfl

/-! ### The promise kept and broken -/

/-- Where blocks are answered by number, a page that is returned keeps its promise, and a log that
is answered from outside the range lets no page be returned. -/
theorem fetchPage_keeps_contract
    (hnumbered : AnsweredByNumber (pageExchanges abis node chain first last watched state)) :
    (∀ page after, fetchPage abis node chain first last watched state = (.ok page, after) →
        page.KeepsContract first last) ∧
      (first ≤ last → ∀ filter logs,
        .logs filter (.ok logs) ∈ pageExchanges abis node chain first last watched state →
        ∀ log ∈ logs, (∀ number ∈ log.blockNumber, ¬ (first ≤ number ∧ number ≤ last)) →
          ∃ error after,
            fetchPage abis node chain first last watched state = (.error error, after)) := by
  constructor
  · intro page after hpage
    obtain ⟨heard, hmakes, hheard⟩ := makes_of_fetchPage hpage
    exact hmakes.keepsContract (hheard ▸ hnumbered)
  · intro hrange filter logs hanswer log hlog hplace
    cases hrun : fetchPage abis node chain first last watched state with
    | mk result after =>
      cases result with
      | error error => exact ⟨error, after, rfl⟩
      | ok page =>
        obtain ⟨heard, hmakes, hheard⟩ := makes_of_fetchPage hrun
        rw [hheard] at hnumbered hanswer
        obtain ⟨answered, hanswered, rfl, rfl⟩ := HeardPage.logs_mem_exchanges_iff.1 hanswer
        obtain ⟨number, kept, hnumber, hkept, -⟩ := hmakes.of_log hanswered hlog
        exact absurd (hmakes.inRange_of_kept? hnumbered hrange (Option.isSome_of_eq_some hkept))
          (hplace number hnumber)

theorem forkingNode_keeps_contract :
    AnsweredByNumber
        (pageExchanges [("Token", pingAbi)] (forkingNode id 2) 1 1 3 [pingAddress] 0) ∧
      (∃ page after,
        fetchPage [("Token", pingAbi)] (forkingNode id 2) 1 1 3 [pingAddress] 0 =
          (.ok page, after) ∧ page.events ≠ [] ∧ page.KeepsContract 1 3) ∧
      ∃ error after,
        fetchPage [("Token", pingAbi)] (forkingNode id 4) 1 1 3 [pingAddress] 0 =
          (.error error, after) := by
  have hnumbered : AnsweredByNumber
      (pageExchanges [("Token", pingAbi)] (forkingNode id 2) 1 1 3 [pingAddress] 0) :=
    (forkingNode_answersByNumber id 2).exchanges
  have hpage := fetchPage_forkingNode id
  refine ⟨hnumbered, ⟨_, 4, hpage, nofun, (fetchPage_keeps_contract hnumbered).1 _ 4 hpage⟩, ?_⟩
  have hfirst : fetchBlock (forkingNode id 4) 1 0 = (.ok (forkBlock 0 1), 1) := rfl
  have hlast : fetchBlock (forkingNode id 4) 3 1 = (.ok (forkBlock 1 3), 2) := rfl
  obtain ⟨filter, logs, hlogs, hlog⟩ := logs_mem_pageExchanges hfirst hlast
    (filtersFor_pingAddress 1 3) rfl (pingAddress, pingLog 2 4) List.mem_cons_self
  refine (fetchPage_keeps_contract (forkingNode_answersByNumber id 4).exchanges).2 (by omega)
    filter logs hlogs _ hlog fun number hnumber => ?_
  cases hnumber
  omega

/-- Where a range ends before it begins, its ends are on the page still, and so are their events;
and where it is one block that is answered from two forks, only the second answer is. -/
theorem forkingNode_breaks_contract :
    (AnsweredByNumber
        (pageExchanges [("Token", pingAbi)] (forkingNode id 5) 1 5 3 [pingAddress] 0) ∧
      ∃ page after,
        fetchPage [("Token", pingAbi)] (forkingNode id 5) 1 5 3 [pingAddress] 0 =
          (.ok page, after) ∧
        page.lastBlock.number = 3 ∧ ∃ event ∈ page.events, ∃ block ∈ page.blocks,
          event.block = 5 ∧ block.number = 5) ∧
    AnsweredByNumber
        (pageExchanges [("Token", pingAbi)] (forkingNode id 1) 1 1 1 [pingAddress] 0) ∧
      ∃ page after,
        fetchPage [("Token", pingAbi)] (forkingNode id 1) 1 1 1 [pingAddress] 0 =
          (.ok page, after) ∧ page.firstBlock ∉ page.blocks := by
  refine ⟨⟨(forkingNode_answersByNumber id 5).exchanges, _, 3,
      fetchPage_forkingNode_of_le id (show 3 ≤ 5 by omega), rfl, _, List.mem_cons_self, _,
      List.mem_cons_of_mem _ List.mem_cons_self, rfl, rfl⟩,
    (forkingNode_answersByNumber id 1).exchanges, _, 3,
    fetchPage_forkingNode_of_le id (Nat.le_refl 1), fun hmem => ?_⟩
  have hhash := congrArg Block.hash (List.mem_singleton.1 hmem)
  exact absurd (Hash.text_inj.1 hhash) (by decide)

end ChainIndexer.Evm
