import ChainIndexer.Proofs.Evm.Notes
import ChainIndexer.Proofs.Log
import ChainIndexer.Proofs.Table

/-!
# What a page is made of

Each of the requests for a page may be answered from another fork. A page that is returned is made
of the answers: the ends of the range, the logs, and the blocks around them.
-/

namespace ChainIndexer.Evm

variable {σ : Type}

/-! ### Answers that were taken -/

/-- A block that was asked for, as it was answered and as it was read. -/
structure HeardBlock where
  asked : Nat
  answer : NodeBlock
  block : Block
  reads : answer.toBlock = .ok block

/-- The logs that were answered to a filter. -/
structure HeardLogs where
  watched : WatchedAddress
  filter : LogFilter
  logs : List Log

def HeardBlock.exchange (heard : HeardBlock) : Exchange :=
  .block heard.asked (.ok (some heard.answer))

def HeardLogs.exchange (heard : HeardLogs) : Exchange := .logs heard.filter (.ok heard.logs)

def HeardLogs.watchedLogs (heard : HeardLogs) : List (WatchedAddress × Log) :=
  heard.logs.map fun log => (heard.watched, log)

theorem required_eq_ok {α : Type} {field : String} {value : Option α} {result : α}
    (h : required field value = .ok result) : value = some result := by
  cases value with
  | none => cases h
  | some value =>
    cases h
    rfl

/-- Blocks that are not pending can be read. -/
theorem NodeBlock.toBlock_eq_ok_iff {answer : NodeBlock} {block : Block} :
    answer.toBlock = .ok block ↔ ∃ number hash, answer.number = some number ∧
      answer.hash = some hash ∧
      block = ⟨number, Hash.text hash, Hash.text answer.parentHash, lowWord answer.timestamp⟩ := by
  constructor
  · intro h
    obtain ⟨number, hnumber, h⟩ := except_bind_eq_ok h
    obtain ⟨hash, hhash, h⟩ := except_bind_eq_ok h
    exact ⟨number, hash, required_eq_ok hnumber, required_eq_ok hhash, (Except.ok.inj h).symm⟩
  · rintro ⟨number, hash, hnumber, hhash, rfl⟩
    rw [toBlock, hnumber, hhash]
    rfl

namespace HeardBlock

variable (heard : HeardBlock)

theorem answer_number : heard.answer.number = some heard.block.number := by
  obtain ⟨number, hash, hnumber, -, hblock⟩ := NodeBlock.toBlock_eq_ok_iff.1 heard.reads
  rw [hnumber, hblock]

theorem answer_hash :
    ∃ hash, heard.answer.hash = some hash ∧ heard.block.hash = Hash.text hash := by
  obtain ⟨number, hash, -, hhash, hblock⟩ := NodeBlock.toBlock_eq_ok_iff.1 heard.reads
  exact ⟨hash, hhash, by rw [hblock]⟩

end HeardBlock

/-! ### Requests, one by one -/

section Requests

variable {node : Node σ} {state after : σ}

theorem onNode_eq_ok_iff {α : Type} {call : Call σ String α} {value : α} :
    onNode call state = (.ok value, after) ↔ call state = (.ok value, after) := by
  rw [onNode]
  generalize call state = outcome
  obtain ⟨result, last⟩ := outcome
  -- the two sides differ in the type of their errors, so they are not the same by definition
  constructor <;> intro h <;> cases result <;> cases h <;> rfl

theorem fetchBlock_eq_ok_iff {number : Nat} {block : Block} :
    fetchBlock node number state = (.ok block, after) ↔
      ∃ answer, node.block number state = (.ok (some answer), after) ∧
        answer.toBlock = .ok block := by
  constructor
  · intro h
    obtain ⟨answer, between, hanswer, h⟩ := Call.bind_eq_ok h
    cases answer with
    | none => cases h
    | some answer =>
      obtain rfl : between = after := congrArg Prod.snd h
      exact ⟨answer, onNode_eq_ok_iff.1 hanswer, congrArg Prod.fst h⟩
  · rintro ⟨answer, hanswer, hreads⟩
    rw [fetchBlock, Call.bind_of_ok (onNode_eq_ok_iff.2 hanswer)]
    exact congrArg (·, after) hreads

/-- Of the blocks that are given one number the last one counts. -/
theorem fetchBlocks_cons_eq_ok_iff {number : Nat} {rest : List Nat} {blocks : Table Nat Block} :
    fetchBlocks node (number :: rest) state = (.ok blocks, after) ↔
      ∃ block between others, fetchBlock node number state = (.ok block, between) ∧
        fetchBlocks node rest between = (.ok others, after) ∧
        blocks = others.insertNew block.number block := by
  constructor
  · intro h
    obtain ⟨block, between, hblock, h⟩ := Call.bind_eq_ok h
    obtain ⟨others, last, hothers, h⟩ := Call.bind_eq_ok h
    obtain rfl : last = after := congrArg Prod.snd h
    have hresult := congrArg Prod.fst h
    exact ⟨block, between, others, hblock, hothers, (Except.ok.inj hresult).symm⟩
  · rintro ⟨block, between, others, hblock, hothers, rfl⟩
    rw [fetchBlocks, Call.bind_of_ok hblock, Call.bind_of_ok hothers]
    rfl

theorem heard_of_fetchBlock {number : Nat} {block : Block}
    (h : fetchBlock node number state = (.ok block, after)) :
    ∃ heard : HeardBlock, heard.asked = number ∧ heard.block = block ∧
      ∀ exchanges, fetchBlock node.noting number (state, exchanges) =
        (.ok block, (after, exchanges ++ [heard.exchange])) := by
  obtain ⟨answer, hanswer, hreads⟩ := fetchBlock_eq_ok_iff.1 h
  refine ⟨⟨number, answer, block, hreads⟩, rfl, rfl, fun exchanges =>
    fetchBlock_eq_ok_iff.2 ⟨answer, ?_, hreads⟩⟩
  simp only [Node.noting, hanswer]
  rfl

theorem heard_of_fetchBlocks {numbers : List Nat} {blocks : Table Nat Block}
    (h : fetchBlocks node numbers state = (.ok blocks, after)) :
    ∃ heard : List HeardBlock, heard.map (·.asked) = numbers ∧
      (∀ number, blocks.get? number =
        (heard.reverse.find? (·.block.number = number)).map (·.block)) ∧
      ∀ exchanges, fetchBlocks node.noting numbers (state, exchanges) =
        (.ok blocks, (after, exchanges ++ heard.map (·.exchange))) := by
  induction numbers generalizing state blocks with
  | nil =>
    cases h
    exact ⟨[], rfl, fun number => rfl, fun exchanges => by rw [List.map_nil, List.append_nil]; rfl⟩
  | cons first rest ih =>
    obtain ⟨block, between, others, hblock, hothers, rfl⟩ := fetchBlocks_cons_eq_ok_iff.1 h
    obtain ⟨heard, hasked, rfl, hnoted⟩ := heard_of_fetchBlock hblock
    obtain ⟨later, hlater, hget, hrest⟩ := ih hothers
    refine ⟨heard :: later, by rw [List.map_cons, hasked, hlater], fun number => ?_,
      fun exchanges => fetchBlocks_cons_eq_ok_iff.2 ⟨_, _, others, hnoted exchanges, ?_, rfl⟩⟩
    · rw [Table.get?_insertNew, hget, List.reverse_cons, List.find?_append]
      cases later.reverse.find? (·.block.number = number) with
      | some other => rfl
      | none => by_cases hnumber : number = heard.block.number <;> simp [hnumber, eq_comm]
    · rw [hrest, List.append_assoc]
      rfl

/-- All filters are sent, and all have to be answered. -/
theorem fetchLogs_cons_eq_ok_iff {watched : WatchedAddress} {filter : LogFilter}
    {rest : List (WatchedAddress × LogFilter)} {logs : List (WatchedAddress × Log)} :
    fetchLogs node ((watched, filter) :: rest) state = (.ok logs, after) ↔
      ∃ answered between others, node.logs filter state = (.ok answered, between) ∧
        fetchLogs node rest between = (.ok others, after) ∧
        logs = answered.map (fun log => (watched, log)) ++ others := by
  constructor
  · intro h
    cases hanswered : onNode (node.logs filter) state with
    | mk result between =>
      cases hothers : fetchLogs node rest between with
      | mk others last =>
        simp only [fetchLogs, hanswered, hothers] at h
        obtain ⟨answered, rfl, hjoined⟩ := except_bind_eq_ok (congrArg Prod.fst h)
        obtain ⟨others, rfl, hlogs⟩ := except_bind_eq_ok hjoined
        obtain rfl : last = after := congrArg Prod.snd h
        exact ⟨answered, between, others, onNode_eq_ok_iff.1 hanswered, hothers,
          (Except.ok.inj hlogs).symm⟩
  · rintro ⟨answered, between, others, hanswered, hothers, rfl⟩
    simp only [fetchLogs, onNode_eq_ok_iff.2 hanswered, hothers]
    rfl

theorem heard_of_fetchLogs {filters : List (WatchedAddress × LogFilter)}
    {logs : List (WatchedAddress × Log)}
    (h : fetchLogs node filters state = (.ok logs, after)) :
    ∃ heard : List HeardLogs, heard.map (fun heard => (heard.watched, heard.filter)) = filters ∧
      logs = heard.flatMap HeardLogs.watchedLogs ∧
      ∀ exchanges, fetchLogs node.noting filters (state, exchanges) =
        (.ok logs, (after, exchanges ++ heard.map (·.exchange))) := by
  induction filters generalizing state logs with
  | nil =>
    cases h
    exact ⟨[], rfl, rfl, fun exchanges => by rw [List.map_nil, List.append_nil]; rfl⟩
  | cons first rest ih =>
    obtain ⟨watched, filter⟩ := first
    obtain ⟨answered, between, others, hanswered, hothers, rfl⟩ := fetchLogs_cons_eq_ok_iff.1 h
    obtain ⟨heard, hfilters, rfl, hrest⟩ := ih hothers
    refine ⟨⟨watched, filter, answered⟩ :: heard, by rw [List.map_cons, hfilters], rfl,
      fun exchanges => fetchLogs_cons_eq_ok_iff.2
        ⟨answered, (between, exchanges ++ [.logs filter (.ok answered)]), _, ?_, ?_, rfl⟩⟩
    · simp only [Node.noting, hanswered]
    · rw [hrest, List.append_assoc]
      rfl

end Requests

/-! ### Logs -/

/-- Whether a log is one of those that are asked for by their first topics, and still stands. -/
def Log.IsAskedFor (log : Log) (topics : List Hash) : Prop :=
  log.isRemoved = false ∧ ∃ topic ∈ log.topics.head?, topic ∈ topics

theorem EventAbis.find?_isSome_iff {abis : EventAbis} {contract : String} {topic : Hash} :
    (abis.find? contract topic).isSome ↔ topic ∈ abis.topicsOf contract := by
  simp [EventAbis.find?, EventAbis.topicsOf, and_assoc]

section Logs

variable {abis : EventAbis} {chain : ChainId} {watched : WatchedAddress} {log : Log}
  {timestamp : Nat} {blocks : Table Nat Block} {events : List Event}
  {logs : List (WatchedAddress × Log)}

/-- Exactly the logs that are asked for give events; those are events of the log's block. -/
theorem decodeLog_eq_ok {decoded : Option Event}
    (h : decodeLog abis chain watched timestamp log = .ok decoded) :
    (decoded.isSome ↔ log.IsAskedFor (abis.topicsOf watched.contract)) ∧
      ∀ event ∈ decoded, log.blockNumber = some event.block ∧ event.timestamp = timestamp ∧
        ∃ hash, log.blockHash = some hash ∧ event.blockHash = Hash.text hash := by
  rw [decodeLog] at h
  split at h
  next topic rest hstands htopics =>
    have hasked : log.IsAskedFor (abis.topicsOf watched.contract) ↔
        (abis.find? watched.contract topic).isSome := by
      simp [Log.IsAskedFor, hstands, htopics, EventAbis.find?_isSome_iff]
    cases hfind : abis.find? watched.contract topic with
    | none =>
      rw [hfind] at h hasked
      cases h
      exact ⟨by simp [hasked], nofun⟩
    | some abi =>
      rw [hfind] at h hasked
      dsimp only at h
      cases hread : abi.readLog log.topics log.data with
      | none =>
        rw [hread] at h
        cases h
      | some params =>
        rw [hread] at h
        obtain ⟨hash, hhash, h⟩ := except_bind_eq_ok h
        obtain ⟨block, hblock, h⟩ := except_bind_eq_ok h
        obtain ⟨transaction, -, h⟩ := except_bind_eq_ok h
        obtain ⟨index, -, h⟩ := except_bind_eq_ok h
        obtain ⟨logIndex, -, h⟩ := except_bind_eq_ok h
        cases Except.ok.inj h
        refine ⟨by simp [hasked], fun event hevent => ?_⟩
        cases hevent
        exact ⟨required_eq_ok hblock, rfl, hash, required_eq_ok hhash, rfl⟩
  -- a log that was taken back or has no topic is not one that is asked for
  next hother =>
    cases h
    refine ⟨iff_of_false nofun ?_, nofun⟩
    rintro ⟨hstands, topic, hhead, -⟩
    obtain ⟨rest, htopics⟩ := List.head?_eq_some_iff.1 hhead
    exact hother topic rest hstands htopics

/-- Every log has to be in one of the blocks, and is decoded with the time of that block. -/
theorem decodeLogs_eq_ok (h : decodeLogs abis chain blocks logs = .ok events) :
    (∀ entry ∈ logs, ∃ number block decoded, entry.2.blockNumber = some number ∧
        blocks.get? number = some block ∧
        decodeLog abis chain entry.1 block.timestamp entry.2 = .ok decoded ∧
        ∀ event ∈ decoded, event ∈ events) ∧
      ∀ event ∈ events, ∃ entry ∈ logs, ∃ number block, entry.2.blockNumber = some number ∧
        blocks.get? number = some block ∧
        decodeLog abis chain entry.1 block.timestamp entry.2 = .ok (some event) := by
  induction logs generalizing events with
  | nil =>
    cases h
    simp
  | cons first rest ih =>
    obtain ⟨watched, log⟩ := first
    obtain ⟨number, hnumber, h⟩ := except_bind_eq_ok h
    have hnumber := required_eq_ok hnumber
    cases hblock : blocks.get? number with
    | none =>
      rw [hblock] at h
      cases h
    | some block =>
      rw [hblock] at h
      obtain ⟨decoded, hdecoded, h⟩ := except_bind_eq_ok h
      obtain ⟨others, hothers, h⟩ := except_bind_eq_ok h
      obtain rfl : decoded.toList ++ others = events := Except.ok.inj h
      obtain ⟨hrest, hevents⟩ := ih hothers
      constructor
      · intro entry hentry
        rcases List.mem_cons.1 hentry with rfl | hmem
        · exact ⟨number, block, decoded, hnumber, hblock, hdecoded, fun event hevent =>
            List.mem_append_left _ (Option.mem_toList.2 hevent)⟩
        · obtain ⟨number, block, decoded, hnumber, hblock, hdecoded, hsub⟩ := hrest entry hmem
          exact ⟨number, block, decoded, hnumber, hblock, hdecoded, fun event hevent =>
            List.mem_append_right _ (hsub event hevent)⟩
      · intro event hevent
        rcases List.mem_append.1 hevent with hmem | hmem
        · obtain rfl := Option.mem_toList.1 hmem
          exact ⟨_, List.mem_cons_self, number, block, hnumber, hblock, hdecoded⟩
        · obtain ⟨entry, hentry, hdecoded⟩ := hevents event hmem
          exact ⟨entry, List.mem_cons_of_mem _ hentry, hdecoded⟩

theorem topics_of_filtersFor {addresses : List WatchedAddress}
    {filters : List (WatchedAddress × LogFilter)} {first last : Nat}
    (h : filtersFor abis first last addresses = .ok filters) :
    ∀ entry ∈ filters, entry.2.topics = abis.topicsOf entry.1.contract := by
  induction addresses generalizing filters with
  | nil =>
    cases h
    exact nofun
  | cons address rest ih =>
    rw [filtersFor] at h
    split at h
    · exact ih h
    · split at h
      · cases h
      · obtain ⟨others, hothers, h⟩ := except_bind_eq_ok h
        cases Except.ok.inj h
        exact List.forall_mem_cons.2 ⟨rfl, ih hothers⟩

end Logs

/-! ### Pages -/

/-- The answers that a page is made of. -/
structure HeardPage where
  first : HeardBlock
  last : HeardBlock
  logs : List HeardLogs
  between : List HeardBlock

namespace HeardPage

def exchanges (heard : HeardPage) : List Exchange :=
  heard.first.exchange :: heard.last.exchange ::
    (heard.logs.map (·.exchange) ++ heard.between.map (·.exchange))

def watchedLogs (heard : HeardPage) : List (WatchedAddress × Log) :=
  heard.logs.flatMap HeardLogs.watchedLogs

/-- The block that is kept under a number: the ends count before the blocks between them, and what
was heard later before what was heard earlier. -/
def kept? (heard : HeardPage) (number : Nat) : Option HeardBlock :=
  (heard.last :: heard.first :: heard.between.reverse).find? (·.block.number = number)

/-- Whether answers make a page of the events from one block through another. -/
structure Makes (heard : HeardPage) (abis : EventAbis) (chain : ChainId) (first last : Nat)
    (page : EventPage) : Prop where
  asked_first : heard.first.asked = first
  asked_last : heard.last.asked = last
  topics : ∀ answered ∈ heard.logs, answered.filter.topics = abis.topicsOf answered.watched.contract
  asked_between : heard.between.map (·.asked) =
    blocksBetween first heard.last.block.number (heard.watchedLogs.map (·.2))
  firstBlock : page.firstBlock = heard.first.block
  lastBlock : page.lastBlock = heard.last.block
  decodes : ∃ blocks events, (∀ number, blocks.get? number = (heard.kept? number).map (·.block)) ∧
    page.blocks = blocks.values ∧ decodeLogs abis chain blocks heard.watchedLogs = .ok events ∧
    page.events = Event.sortByPosition events

end HeardPage

section Fetch

variable {abis : EventAbis} {node : Node σ} {chain first last : Nat}
  {watched : List WatchedAddress} {state after : σ} {page : EventPage}

/-- A page is returned if every step towards it succeeds. -/
theorem fetchPage_eq_ok_iff :
    fetchPage abis node chain first last watched state = (.ok page, after) ↔
      ∃ firstBlock afterFirst lastBlock afterLast filters logs afterLogs between events,
        fetchBlock node first state = (.ok firstBlock, afterFirst) ∧
        fetchBlock node last afterFirst = (.ok lastBlock, afterLast) ∧
        filtersFor abis first lastBlock.number watched = .ok filters ∧
        fetchLogs node filters afterLast = (.ok logs, afterLogs) ∧
        fetchBlocks node (blocksBetween first lastBlock.number (logs.map (·.2))) afterLogs =
          (.ok between, after) ∧
        decodeLogs abis chain ((between.insert firstBlock.number firstBlock).insert
          lastBlock.number lastBlock) logs = .ok events ∧
        page = ⟨Event.sortByPosition events, firstBlock, lastBlock,
          ((between.insert firstBlock.number firstBlock).insert
            lastBlock.number lastBlock).values⟩ := by
  constructor
  · intro h
    obtain ⟨firstBlock, afterFirst, hfirst, hfromFirst⟩ := Call.bind_eq_ok h
    obtain ⟨lastBlock, afterLast, hlast, hfromLast⟩ := Call.bind_eq_ok hfromFirst
    obtain ⟨filters, afterFilters, hfilters, hfromFilters⟩ := Call.bind_eq_ok hfromLast
    obtain ⟨logs, afterLogs, hlogs, hfromLogs⟩ := Call.bind_eq_ok hfromFilters
    obtain ⟨between, afterBetween, hbetween, hfromBetween⟩ := Call.bind_eq_ok hfromLogs
    obtain ⟨events, afterEvents, hevents, hpage⟩ := Call.bind_eq_ok hfromBetween
    obtain rfl : afterLast = afterFilters := congrArg Prod.snd hfilters
    obtain rfl : afterBetween = afterEvents := congrArg Prod.snd hevents
    obtain rfl : afterBetween = after := congrArg Prod.snd hpage
    exact ⟨firstBlock, afterFirst, lastBlock, afterLast, filters, logs, afterLogs, between, events,
      hfirst, hlast, congrArg Prod.fst hfilters, hlogs, hbetween, congrArg Prod.fst hevents,
      (Except.ok.inj (congrArg Prod.fst hpage)).symm⟩
  · rintro ⟨firstBlock, afterFirst, lastBlock, afterLast, filters, logs, afterLogs, between, events,
      hfirst, hlast, hfilters, hlogs, hbetween, hevents, rfl⟩
    exact (Call.bind_of_ok hfirst _).trans <| (Call.bind_of_ok hlast _).trans <|
      (Call.bind_of_ok (congrArg (·, afterLast) hfilters) _).trans <|
      (Call.bind_of_ok hlogs _).trans <| (Call.bind_of_ok hbetween _).trans <|
      (Call.bind_of_ok (congrArg (·, after) hevents) _)

/-- Logs that were answered are noted, whatever becomes of the page. -/
theorem logs_mem_pageExchanges {firstBlock lastBlock : Block} {afterFirst afterLast afterLogs : σ}
    {filters : List (WatchedAddress × LogFilter)} {logs : List (WatchedAddress × Log)}
    (hfirst : fetchBlock node first state = (.ok firstBlock, afterFirst))
    (hlast : fetchBlock node last afterFirst = (.ok lastBlock, afterLast))
    (hfilters : filtersFor abis first lastBlock.number watched = .ok filters)
    (hlogs : fetchLogs node filters afterLast = (.ok logs, afterLogs)) :
    ∀ entry ∈ logs, ∃ filter answered,
      .logs filter (.ok answered) ∈ pageExchanges abis node chain first last watched state ∧
        entry.2 ∈ answered := by
  obtain ⟨heardFirst, -, -, hnotedFirst⟩ := heard_of_fetchBlock hfirst
  obtain ⟨heardLast, -, -, hnotedLast⟩ := heard_of_fetchBlock hlast
  obtain ⟨heard, -, rfl, hnotedLogs⟩ := heard_of_fetchLogs hlogs
  intro entry hentry
  obtain ⟨answered, hanswered, hmem⟩ := List.mem_flatMap.1 hentry
  obtain ⟨log, hlog, rfl⟩ := List.mem_map.1 hmem
  have hnoted : fetchPage abis node.noting chain first last watched (state, []) = _ :=
    (Call.bind_of_ok (hnotedFirst []) _).trans <| (Call.bind_of_ok (hnotedLast _) _).trans <|
      (Call.bind_of_ok (congrArg (·, _) hfilters) _).trans <| Call.bind_of_ok (hnotedLogs _) _
  refine ⟨answered.filter, answered.logs, ?_, hlog⟩
  rw [pageExchanges, hnoted]
  -- what comes after the logs only adds notes
  refine Node.Notes.mem_of_mem (.bind (.fetchBlocks _) fun _ =>
    .bind (.of_result _) fun _ => .of_result _ : node.Notes _ _) ?_
  exact List.mem_append_right _ (List.mem_map_of_mem hanswered)

/-- A page is made of what the node answered, and of nothing else. -/
theorem makes_of_fetchPage
    (h : fetchPage abis node chain first last watched state = (.ok page, after)) :
    ∃ heard : HeardPage, heard.Makes abis chain first last page ∧
      pageExchanges abis node chain first last watched state = heard.exchanges := by
  obtain ⟨firstBlock, afterFirst, lastBlock, afterLast, filters, logs, afterLogs, between, events,
    hfirst, hlast, hfilters, hlogs, hbetween, hevents, rfl⟩ := fetchPage_eq_ok_iff.1 h
  obtain ⟨heardFirst, haskedFirst, rfl, hnotedFirst⟩ := heard_of_fetchBlock hfirst
  obtain ⟨heardLast, haskedLast, rfl, hnotedLast⟩ := heard_of_fetchBlock hlast
  obtain ⟨heardLogs, hfiltered, rfl, hnotedLogs⟩ := heard_of_fetchLogs hlogs
  obtain ⟨heardBetween, haskedBetween, hget, hnotedBetween⟩ := heard_of_fetchBlocks hbetween
  refine ⟨⟨heardFirst, heardLast, heardLogs, heardBetween⟩,
    ⟨haskedFirst, haskedLast, fun answered hanswered => ?_, haskedBetween, rfl, rfl, _, events,
      fun number => ?_, rfl, hevents, rfl⟩, ?_⟩
  · refine topics_of_filtersFor hfilters (answered.watched, answered.filter) ?_
    rw [← hfiltered]
    exact List.mem_map_of_mem hanswered
  · rw [Table.get?_insert, Table.get?_insert, hget, HeardPage.kept?, List.find?_cons,
      List.find?_cons]
    by_cases hlast : heardLast.block.number = number
    · simp [hlast]
    · by_cases hfirst : heardFirst.block.number = number <;>
        simp [hlast, hfirst, Ne.symm hlast, eq_comm (a := number)]
  · have hnoted := fetchPage_eq_ok_iff.2 ⟨_, _, _, _, _, _, _, _, _, hnotedFirst [], hnotedLast _,
      hfilters, hnotedLogs _, hnotedBetween _, hevents, rfl⟩
    rw [pageExchanges, hnoted]
    rfl

end Fetch

/-! ### What is on a page -/

namespace HeardPage

variable {heard : HeardPage}

theorem mem_watchedLogs_iff {entry : WatchedAddress × Log} :
    entry ∈ heard.watchedLogs ↔
      ∃ answered ∈ heard.logs, answered.watched = entry.1 ∧ entry.2 ∈ answered.logs := by
  obtain ⟨watched, log⟩ := entry
  simp [watchedLogs, HeardLogs.watchedLogs, and_comm]

theorem block_mem_exchanges_iff {number : Nat} {answer : NodeBlock} :
    .block number (.ok (some answer)) ∈ heard.exchanges ↔
      ∃ block ∈ heard.first :: heard.last :: heard.between,
        block.asked = number ∧ block.answer = answer := by
  simp [exchanges, HeardBlock.exchange, HeardLogs.exchange, eq_comm]

theorem logs_mem_exchanges_iff {filter : LogFilter} {logs : List Log} :
    .logs filter (.ok logs) ∈ heard.exchanges ↔
      ∃ answered ∈ heard.logs, answered.filter = filter ∧ answered.logs = logs := by
  simp [exchanges, HeardBlock.exchange, HeardLogs.exchange]

theorem number_of_kept? {number : Nat} {kept : HeardBlock} (h : heard.kept? number = some kept) :
    kept.block.number = number := by
  simpa using List.find?_some h

theorem kept?_of_get? {blocks : Table Nat Block}
    (hget : ∀ number, blocks.get? number = (heard.kept? number).map (·.block)) {number : Nat}
    {block : Block} (h : blocks.get? number = some block) :
    ∃ kept, heard.kept? number = some kept ∧ kept.block = block ∧ block.number = number := by
  rw [hget, Option.map_eq_some_iff] at h
  obtain ⟨kept, hkept, rfl⟩ := h
  exact ⟨kept, hkept, rfl, number_of_kept? hkept⟩

theorem kept?_isSome_iff {number : Nat} :
    (heard.kept? number).isSome ↔ heard.last.block.number = number ∨
      heard.first.block.number = number ∨ number ∈ heard.between.map (·.block.number) := by
  simp [kept?, List.find?_isSome]

namespace Makes

variable {abis : EventAbis} {chain first last : Nat} {page : EventPage}

theorem mem_blocks_iff (h : heard.Makes abis chain first last page) {block : Block} :
    block ∈ page.blocks ↔ ∃ kept, heard.kept? block.number = some kept ∧ kept.block = block := by
  obtain ⟨blocks, -, hget, hblocks, -, -⟩ := h.decodes
  rw [hblocks, Table.mem_values_iff]
  constructor
  · rintro ⟨number, hnumber⟩
    obtain ⟨kept, hkept, hblock, rfl⟩ := kept?_of_get? hget hnumber
    exact ⟨kept, hkept, hblock⟩
  · rintro ⟨kept, hkept, hblock⟩
    exact ⟨block.number, by rw [hget, hkept, Option.map_some, hblock]⟩

theorem kept_mem_blocks (h : heard.Makes abis chain first last page) {number : Nat}
    {kept : HeardBlock} (hkept : heard.kept? number = some kept) : kept.block ∈ page.blocks :=
  h.mem_blocks_iff.2 ⟨kept, by rw [number_of_kept? hkept, hkept], rfl⟩

/-- Logs have to be in blocks of the page, and those that were asked for are its events. -/
theorem of_log (h : heard.Makes abis chain first last page) {answered : HeardLogs}
    (hanswered : answered ∈ heard.logs) {log : Log} (hlog : log ∈ answered.logs) :
    ∃ number kept, log.blockNumber = some number ∧ heard.kept? number = some kept ∧
      (log.IsAskedFor answered.filter.topics → ∃ event ∈ page.events, event.block = number ∧
        ∃ hash, log.blockHash = some hash ∧ event.blockHash = Hash.text hash) := by
  obtain ⟨blocks, events, hget, -, hdecoded, hevents⟩ := h.decodes
  obtain ⟨number, block, decoded, hnumber, hblock, hdecodes, hsub⟩ :=
    (decodeLogs_eq_ok hdecoded).1 (answered.watched, log)
      (mem_watchedLogs_iff.2 ⟨answered, hanswered, rfl, hlog⟩)
  obtain ⟨kept, hkept, rfl, -⟩ := kept?_of_get? hget hblock
  refine ⟨number, kept, hnumber, hkept, fun hasked => ?_⟩
  obtain ⟨hsome, hfacts⟩ := decodeLog_eq_ok hdecodes
  rw [h.topics answered hanswered, ← hsome, Option.isSome_iff_exists] at hasked
  obtain ⟨event, rfl⟩ := hasked
  obtain ⟨hplace, -, hhash⟩ := hfacts event rfl
  rw [hevents]
  exact ⟨event, Event.mem_sortByPosition.2 (hsub event rfl),
    Option.some.inj (hplace.symm.trans hnumber), hhash⟩

/-- Events of a page are logs that were asked for, with the times of their blocks on the page. -/
theorem of_event (h : heard.Makes abis chain first last page) {event : Event}
    (hevent : event ∈ page.events) :
    ∃ answered ∈ heard.logs, ∃ log ∈ answered.logs, ∃ kept,
      log.IsAskedFor answered.filter.topics ∧ log.blockNumber = some event.block ∧
      heard.kept? event.block = some kept ∧ event.timestamp = kept.block.timestamp ∧
      ∃ hash, log.blockHash = some hash ∧ event.blockHash = Hash.text hash := by
  obtain ⟨blocks, events, hget, -, hdecoded, hevents⟩ := h.decodes
  rw [hevents, Event.mem_sortByPosition] at hevent
  obtain ⟨⟨watched, log⟩, hentry, number, block, hnumber, hblock, hdecodes⟩ :=
    (decodeLogs_eq_ok hdecoded).2 event hevent
  obtain ⟨answered, hanswered, rfl, hlog⟩ := mem_watchedLogs_iff.1 hentry
  obtain ⟨kept, hkept, rfl, -⟩ := kept?_of_get? hget hblock
  obtain ⟨hsome, hfacts⟩ := decodeLog_eq_ok hdecodes
  obtain ⟨hplace, htime, hhash⟩ := hfacts event rfl
  obtain rfl : number = event.block := Option.some.inj (hnumber.symm.trans hplace)
  refine ⟨answered, hanswered, log, hlog, kept, ?_, hplace, hkept, htime, hhash⟩
  rw [h.topics answered hanswered]
  exact hsome.1 rfl

end Makes

end HeardPage

end ChainIndexer.Evm
