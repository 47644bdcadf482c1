import ChainIndexer.Proofs.Pipeline.Nearing

/-!
# What a lane reports

A lane is fed batches that follow each other, and between two reports its events are taken from it,
and some of the last taken ones given back; a report commits the others. Whatever the order of all
this, what was committed comes before what a lane still holds, and both together are what it has
absorbed. So the reported block is the last one with nothing left to commit, and it never falls. The
blocks to remember are reported when this block first reaches them.
-/

namespace ChainIndexer

/-! ### Batches that follow each other -/

/-- Whether a batch covers a block, and has its events in its range, by position. -/
structure FetchedBatch.Contained (batch : FetchedBatch) : Prop where
  le : batch.fromBlock ≤ batch.lastBlock.number
  sorted : batch.events.Pairwise fun a b => a.position ≤ b.position
  inside : ∀ event ∈ batch.events,
    batch.fromBlock ≤ event.block ∧ event.block ≤ batch.lastBlock.number

namespace QueueItem

/-- Whether an item goes on behind the last block of the batches before it. -/
def GoesOnFrom (last : Option Block) : QueueItem → Prop
  | batch fetched =>
    (∀ block ∈ last, fetched.fromBlock = block.number + 1) ∧ fetched.Contained
  | reorg _ => True
  | finished => True

end QueueItem

/-- Whether the batches among some items follow each other; the first one may start anywhere, unless
there is a last block before it. -/
def Contiguous : (last : Option Block) → List QueueItem → Prop
  | _, [] => True
  | last, item :: rest => item.GoesOnFrom last ∧ Contiguous (item.through last) rest

/-- The last block of the batches among some items. -/
def endOf (last : Option Block) (items : List QueueItem) : Option Block :=
  items.foldl QueueItem.through last

theorem endOf_append (last : Option Block) (first second : List QueueItem) :
    endOf last (first ++ second) = endOf (endOf last first) second := List.foldl_append

theorem contiguous_append {last : Option Block} {first second : List QueueItem} :
    Contiguous last (first ++ second) ↔
      Contiguous last first ∧ Contiguous (endOf last first) second := by
  induction first generalizing last with
  | nil => exact iff_of_eq (true_and _).symm
  | cons item rest ih =>
    rw [List.cons_append, Contiguous, Contiguous, ih, and_assoc]
    rfl

/-- Whether numbers that items bring are in the ranges of their batches. -/
def NumbersInside (numbers : QueueItem → List Nat) (items : List QueueItem) : Prop :=
  ∀ item ∈ items, ∀ number ∈ numbers item,
    ∃ batch, item = .batch batch ∧ batch.fromBlock ≤ number ∧ number ≤ batch.lastBlock.number

namespace Contiguous

variable {last : Option Block} {items : List QueueItem}

/-- Batches only go on from the last block. -/
theorem le_endOf (h : Contiguous last items) :
    ∀ block ∈ last, ∃ stop ∈ endOf last items, block.number ≤ stop.number := by
  induction items generalizing last with
  | nil => exact fun block hblock => ⟨block, hblock, Nat.le_refl _⟩
  | cons item rest ih =>
    obtain ⟨hfollows, hrest⟩ := h
    intro block hblock
    cases item with
    | batch fetched =>
      obtain ⟨stop, hstop, hle⟩ := ih hrest fetched.lastBlock rfl
      have hnext := hfollows.1 block hblock
      have hrange := hfollows.2.le
      exact ⟨stop, hstop, by omega⟩
    | reorg reorg => exact ih hrest block hblock
    | finished => exact ih hrest block hblock

/-- What is in the ranges of batches lies behind the last block before them, and up to their own. -/
theorem numbers (h : Contiguous last items) {numbers : QueueItem → List Nat}
    (hinside : NumbersInside numbers items) :
    ∀ number ∈ items.flatMap numbers,
      (∀ block ∈ last, block.number < number) ∧
        ∃ stop ∈ endOf last items, number ≤ stop.number := by
  induction items generalizing last with
  | nil => exact fun number hnumber => absurd hnumber List.not_mem_nil
  | cons item rest ih =>
    obtain ⟨hfollows, hrest⟩ := h
    intro number hnumber
    rw [List.flatMap_cons] at hnumber
    rcases List.mem_append.1 hnumber with hitem | hlater
    · obtain ⟨batch, rfl, hfrom, hto⟩ := hinside item List.mem_cons_self number hitem
      obtain ⟨stop, hstop, hle⟩ := le_endOf hrest batch.lastBlock rfl
      refine ⟨fun block hblock => ?_, stop, hstop, by omega⟩
      have hnext := hfollows.1 block hblock
      omega
    · have hothers : NumbersInside numbers rest := fun other hother =>
        hinside other (List.mem_cons_of_mem _ hother)
      obtain ⟨habove, hbelow⟩ := ih hrest hothers number hlater
      refine ⟨fun block hblock => ?_, hbelow⟩
      cases item with
      | batch fetched =>
        have hbatch := habove fetched.lastBlock rfl
        have hnext := hfollows.1 block hblock
        have hrange := hfollows.2.le
        omega
      | reorg reorg => exact habove block hblock
      | finished => exact habove block hblock

theorem contained (h : Contiguous last items) {batch : FetchedBatch} (hmem : .batch batch ∈ items) :
    batch.Contained := by
  induction items generalizing last with
  | nil => exact absurd hmem List.not_mem_nil
  | cons item rest ih =>
    rcases List.mem_cons.1 hmem with rfl | hrest
    · exact h.1.2
    · exact ih h.2 hrest

theorem events (h : Contiguous last items) :
    ∀ event ∈ eventsOf items, (∀ block ∈ last, block.number < event.block) ∧
      ∃ stop ∈ endOf last items, event.block ≤ stop.number := by
  have hinside : NumbersInside (·.events.map (·.block)) items := by
    intro item hitem number hnumber
    obtain ⟨event, hevent, rfl⟩ := List.mem_map.1 hnumber
    cases item with
    | batch fetched => exact ⟨fetched, rfl, (h.contained hitem).inside event hevent⟩
    | reorg reorg => exact absurd hevent List.not_mem_nil
    | finished => exact absurd hevent List.not_mem_nil
  intro event hevent
  refine h.numbers hinside event.block ?_
  rw [← List.map_flatMap]
  exact List.mem_map_of_mem hevent

theorem sorted (h : Contiguous last items) :
    (eventsOf items).Pairwise fun a b => a.block ≤ b.block := by
  induction items generalizing last with
  | nil => exact List.Pairwise.nil
  | cons item rest ih =>
    rw [eventsOf_cons, List.pairwise_append]
    refine ⟨?_, ih h.2, fun event hevent later hlater => ?_⟩
    · cases item with
      | batch fetched => exact h.1.2.sorted.imp Position.block_le_of_le
      | reorg reorg => exact List.Pairwise.nil
      | finished => exact List.Pairwise.nil
    · cases item with
      | batch fetched =>
        have hrange := h.1.2.inside event hevent
        have habove := (h.2.events later hlater).1 fetched.lastBlock rfl
        omega
      | reorg reorg => exact absurd hevent List.not_mem_nil
      | finished => exact absurd hevent List.not_mem_nil

end Contiguous

/-! ### Runs of a lane -/

/-- A report of a lane: what it was made of, besides what it says. -/
structure LaneReport where
  progress : Progress
  recorded : List RecordedBlock
  /-- All items absorbed before it. -/
  absorbed : List QueueItem
  /-- The events that it commits. -/
  committed : List Event
deriving DecidableEq

/-- Whether a report reaches the block to remember at one place, of all that were absorbed. -/
def LaneReport.reaches (report : LaneReport) (place : Nat) : Bool :=
  (blocksOf report.absorbed)[place]?.any fun block =>
    report.progress.processed.any (block.number ≤ ·)

/-- The events that some reports commit. -/
def committedBy (reports : List LaneReport) : List Event := reports.flatMap (·.committed)

/-- A lane, with what its fetcher pushed, its events that were taken from it since the last report,
and the reports. -/
structure LaneRun where
  lane : Lane
  pushed : List QueueItem
  taken : List Event
  reports : List LaneReport
deriving DecidableEq

inductive LaneMove where
  | push (item : QueueItem)
  | close
  | drain
  | wait
  | pop
  | take (maxEvents : Nat)
  /-- Gives back what was taken, but for the first events. -/
  | giveBack (kept : Nat)
  | takeReorg
  /-- Reports progress, with all that was taken and not given back committed. -/
  | report

namespace LaneRun

def start (chain : ChainId) (depth : Nat) : LaneRun := ⟨.start chain depth, [], [], []⟩

/-- The items that are not in the queue any more. -/
def absorbed (run : LaneRun) : List QueueItem :=
  run.pushed.take (run.pushed.length - run.lane.queue.items.length)

def report (run : LaneRun) : LaneRun :=
  match run.lane.progress run.taken with
  | (none, lane) => { run with lane := lane }
  | (some (progress, recorded), lane) =>
    { run with
      lane := lane
      taken := []
      reports := run.reports ++ [⟨progress, recorded, run.absorbed, run.taken⟩] }

def step (run : LaneRun) : LaneMove → LaneRun
  | .push item =>
    { run with
      lane := { run.lane with queue := run.lane.queue.push item }
      pushed := run.pushed ++ [item] }
  | .close => { run with lane := { run.lane with queue := run.lane.queue.close } }
  | .drain => { run with lane := run.lane.drainReady }
  | .wait => { run with lane := run.lane.waitItem.getD run.lane }
  | .pop =>
    { run with lane := run.lane.popFront.2, taken := run.taken ++ run.lane.popFront.1.toList }
  | .take maxEvents =>
    { run with
      lane := (run.lane.takeFront maxEvents).2
      taken := run.taken ++ (run.lane.takeFront maxEvents).1 }
  | .giveBack kept =>
    { run with lane := run.lane.restore (run.taken.drop kept), taken := run.taken.take kept }
  | .takeReorg => { run with lane := run.lane.takeReorg.2 }
  | .report => run.report

def play (run : LaneRun) (moves : List LaneMove) : LaneRun := moves.foldl step run

end LaneRun

/-! ### What a run keeps -/

/-- The blocks to remember that no report has reached. -/
def unreached (reports : List LaneReport) (absorbed : List QueueItem) : List (Block × Nat) :=
  (blocksOf absorbed).zipIdx.filter fun entry => reports.all fun report => !report.reaches entry.2

/-- Whether a lane holds what it has absorbed and reports do not tell of, but for some taken
events. -/
structure Lane.Accounts (lane : Lane) (chain : ChainId) (reports : List LaneReport)
    (taken : List Event) (absorbed : List QueueItem) : Prop where
  laneChain : lane.chain = chain
  events : committedBy reports ++ (taken ++ lane.pending) = eventsOf absorbed
  fetched : lane.fetchedThrough = endOf none absorbed
  unrecorded : lane.unrecorded = (unreached reports absorbed).map (·.1)
  earlier : ∀ report ∈ reports, report.absorbed <+: absorbed

/-- Whether a report of a chain tells what was done since the ones before it, with some events left
uncommitted. -/
structure LaneReport.Continues (report : LaneReport) (chain : ChainId)
    (before : List LaneReport) (rest : List Event) : Prop where
  events : committedBy (before ++ [report]) ++ rest = eventsOf report.absorbed
  processed : report.progress.processed =
    match rest.head? with
    | some event => Word.checkedSub event.block 1
    | none => (endOf none report.absorbed).map (·.number)
  position : report.progress.position = report.committed.getLast?.map Event.position
  recorded : report.recorded =
    ((unreached before report.absorbed).filter fun entry => report.reaches entry.2).map
      fun entry => ⟨chain, entry.1⟩
  earlier : ∀ other ∈ before, other.absorbed <+: report.absorbed

section Unreached

variable {reports : List LaneReport} {absorbed : List QueueItem} {report : LaneReport}

theorem LaneReport.reaches_of_length_le {place : Nat}
    (h : (blocksOf report.absorbed).length ≤ place) : report.reaches place = false := by
  rw [reaches, List.getElem?_eq_none h]
  rfl

/-- No report reaches what is absorbed after it. -/
theorem unreached_concat (h : ∀ report ∈ reports, report.absorbed <+: absorbed) (item : QueueItem) :
    (unreached reports (absorbed ++ [item])).map (·.1) =
      (unreached reports absorbed).map (·.1) ++ item.blocks := by
  have hnew : (item.blocks.zipIdx (blocksOf absorbed).length).filter
      (fun entry => reports.all fun report => !report.reaches entry.2) =
        item.blocks.zipIdx (blocksOf absorbed).length := by
    refine List.filter_eq_self.2 fun entry hentry => List.all_eq_true.2 fun report hreport => ?_
    obtain ⟨later, rfl⟩ := h report hreport
    have hplace := (List.mem_zipIdx hentry).1
    rw [blocksOf_append, List.length_append] at hplace
    rw [LaneReport.reaches_of_length_le (by omega), Bool.not_false]
  rw [unreached, unreached, blocksOf_append, blocksOf_cons, blocksOf_nil, List.append_nil,
    List.zipIdx_append, List.filter_append, List.map_append, Nat.zero_add, hnew,
    List.zipIdx_map_fst]

theorem unreached_report :
    unreached (reports ++ [report]) absorbed =
      (unreached reports absorbed).filter fun entry => !report.reaches entry.2 := by
  rw [unreached, unreached, List.filter_filter]
  refine List.filter_congr fun entry _ => ?_
  rw [List.all_append, List.all_cons, List.all_nil, Bool.and_true, Bool.and_comm]

theorem LaneReport.reaches_of_mem {entry : Block × Nat}
    (h : entry ∈ unreached reports report.absorbed) :
    report.reaches entry.2 = report.progress.processed.any (entry.1.number ≤ ·) := by
  have hplace := List.mem_zipIdx_iff_getElem?.1 (List.mem_filter.1 h).1
  rw [reaches, hplace, Option.any_some]

end Unreached

namespace Lane.Accounts

variable {lane lane' : Lane} {chain : ChainId} {reports : List LaneReport} {taken : List Event}
  {absorbed : List QueueItem}

theorem of_lane (h : lane.Accounts chain reports taken absorbed) (hchain : lane'.chain = lane.chain)
    (hpending : lane'.pending = lane.pending)
    (hfetched : lane'.fetchedThrough = lane.fetchedThrough)
    (hunrecorded : lane'.unrecorded = lane.unrecorded) :
    lane'.Accounts chain reports taken absorbed :=
  ⟨hchain.trans h.laneChain, hpending ▸ h.events, hfetched ▸ h.fetched, hunrecorded ▸ h.unrecorded,
    h.earlier⟩

/-- Events move between what was taken and what is pending. -/
theorem pending (h : lane.Accounts chain reports taken absorbed) {taken' pending' : List Event}
    (heq : taken' ++ pending' = taken ++ lane.pending) :
    { lane with pending := pending' }.Accounts chain reports taken' absorbed :=
  ⟨h.laneChain, heq ▸ h.events, h.fetched, h.unrecorded, h.earlier⟩

theorem absorb (h : lane.Accounts chain reports taken absorbed) (item : QueueItem) :
    (lane.absorb item).Accounts chain reports taken (absorbed ++ [item]) := by
  refine ⟨?_, ?_, ?_, ?_, fun report hreport => ?_⟩
  · rw [← h.laneChain]
    cases item <;> rfl
  · rw [absorb_pending, ← List.append_assoc taken, ← List.append_assoc, h.events, eventsOf_append,
      eventsOf_cons, eventsOf_nil, List.append_nil]
  · rw [endOf_append, ← h.fetched]
    cases item <;> rfl
  · rw [unreached_concat h.earlier, ← h.unrecorded]
    cases item with
    | batch fetched => rfl
    | reorg reorg => exact (List.append_nil _).symm
    | finished => exact (List.append_nil _).symm
  · exact (h.earlier report hreport).trans (List.prefix_append ..)

theorem drainReady (h : lane.Accounts chain reports taken absorbed) {pushed : List QueueItem}
    (hpushed : pushed = absorbed ++ lane.queue.items) :
    ∃ absorbed', pushed = absorbed' ++ lane.drainReady.queue.items ∧
      lane.drainReady.Accounts chain reports taken absorbed' := by
  refine drainItems_induction (P := fun lane' items => ∃ absorbed', pushed = absorbed' ++ items ∧
    lane'.Accounts chain reports taken absorbed') ⟨absorbed, hpushed, h⟩ ?_ ?_
  · rintro lane' items isClosed ⟨absorbed', heq, hkept⟩
    exact ⟨absorbed', heq, hkept.of_lane rfl rfl rfl rfl⟩
  · rintro lane' item rest - ⟨absorbed', heq, hkept⟩
    exact ⟨absorbed' ++ [item], by rw [heq, List.append_assoc]; rfl, hkept.absorb item⟩

theorem waitItem (h : lane.Accounts chain reports taken absorbed) {pushed : List QueueItem}
    (hpushed : pushed = absorbed ++ lane.queue.items) (hwait : lane.waitItem = some lane') :
    ∃ absorbed', pushed = absorbed' ++ lane'.queue.items ∧
      lane'.Accounts chain reports taken absorbed' := by
  obtain ⟨item, rest, hitems, rfl⟩ | ⟨-, -, rfl⟩ := waitItem_eq_some hwait
  · have hqueue : { lane with queue := { lane.queue with items := rest } }.Accounts chain reports
        taken absorbed := h.of_lane rfl rfl rfl rfl
    refine ⟨absorbed ++ [item], ?_, hqueue.absorb item⟩
    rw [hpushed, hitems, absorb_queue, List.append_assoc]
    rfl
  · exact ⟨absorbed, hpushed, h.of_lane rfl rfl rfl rfl⟩

/-- A report goes on from the ones before it, and accounts for all that was taken. -/
theorem report (h : lane.Accounts chain reports taken absorbed) {progress : Progress}
    {recorded : List RecordedBlock}
    (hprogress : lane.progress taken = (some (progress, recorded), lane')) :
    LaneReport.Continues ⟨progress, recorded, absorbed, taken⟩ chain reports lane.pending ∧
      lane'.Accounts chain (reports ++ [⟨progress, recorded, absorbed, taken⟩]) [] absorbed ∧
      lane'.queue = lane.queue := by
  obtain ⟨hreported, hrecorded, rfl⟩ := Lane.progress_eq_some hprogress
  generalize hreports : (⟨progress, recorded, absorbed, taken⟩ : LaneReport) = report
  have habsorbed : report.absorbed = absorbed := hreports ▸ rfl
  have hprocessed : report.progress.processed = lane.processed := by
    rw [← hreports, hreported]
  have hcommitted : committedBy (reports ++ [report]) = committedBy reports ++ taken := by
    rw [committedBy, List.flatMap_append, ← hreports]
    exact congrArg (_ ++ ·) (List.append_nil _)
  have hreaches : ∀ entry ∈ unreached reports absorbed,
      report.reaches entry.2 = lane.processed.any (entry.1.number ≤ ·) := by
    intro entry hentry
    rw [LaneReport.reaches_of_mem (habsorbed ▸ hentry), hprocessed]
  refine ⟨⟨?_, ?_, ?_, ?_, ?_⟩, ⟨h.laneChain, ?_, h.fetched, ?_, ?_⟩, rfl⟩
  · rw [hcommitted, List.append_assoc, h.events, habsorbed]
  · rw [hprocessed, habsorbed, ← h.fetched]
    rfl
  · rw [← hreports, hreported]
  · have hlist : report.recorded = recorded := hreports ▸ rfl
    rw [hlist, hrecorded, h.unrecorded, List.filter_map, List.map_map, habsorbed, h.laneChain]
    refine congrArg (List.map _) (List.filter_congr fun entry hentry => ?_)
    exact (hreaches entry hentry).symm
  · rw [habsorbed]
    exact h.earlier
  · rw [hcommitted, List.nil_append, List.append_assoc]
    exact h.events
  · rw [unreached_report, h.unrecorded, List.filter_map]
    refine congrArg (List.map _) (List.filter_congr fun entry hentry => ?_)
    exact congrArg (!·) (hreaches entry hentry).symm
  · intro other hother
    rcases List.mem_append.1 hother with hold | hnew
    · exact h.earlier other hold
    · have hsame : other.absorbed = absorbed :=
        (congrArg LaneReport.absorbed (List.mem_singleton.1 hnew)).trans habsorbed
      exact hsame ▸ List.prefix_refl other.absorbed

end Lane.Accounts

namespace LaneRun

/-- Whether a run holds what its fetcher pushed, and each report tells what was done since the ones
before it. -/
structure Sound (run : LaneRun) (chain : ChainId) : Prop where
  lane : ∃ absorbed, run.pushed = absorbed ++ run.lane.queue.items ∧
    run.lane.Accounts chain run.reports run.taken absorbed
  reports : ∀ before report after, run.reports = before ++ report :: after →
    ∃ rest, report.Continues chain before rest

variable {run : LaneRun} {chain : ChainId}

theorem Sound.start (chain : ChainId) (depth : Nat) : (start chain depth).Sound chain where
  lane := ⟨[], rfl, rfl, rfl, rfl, rfl, fun _ hmem => absurd hmem List.not_mem_nil⟩
  reports := fun _ _ _ heq => nomatch (List.nil_eq_append_iff.1 heq).2

theorem absorbed_eq {absorbed : List QueueItem}
    (h : run.pushed = absorbed ++ run.lane.queue.items) : run.absorbed = absorbed := by
  rw [LaneRun.absorbed, h]
  exact List.take_left' (by rw [List.length_append, Nat.add_sub_cancel])

theorem Sound.of_lane (h : run.Sound chain) {lane : Lane} {pushed absorbed : List QueueItem}
    {taken : List Event} (hpushed : pushed = absorbed ++ lane.queue.items)
    (hlane : lane.Accounts chain run.reports taken absorbed) :
    { run with lane := lane, pushed := pushed, taken := taken }.Sound chain :=
  ⟨⟨absorbed, hpushed, hlane⟩, h.reports⟩

theorem Sound.report (h : run.Sound chain) : run.report.Sound chain := by
  obtain ⟨absorbed, hpushed, hlane⟩ := h.lane
  rw [LaneRun.report]
  split
  next lane hnone =>
    rw [(Lane.progress_eq_none hnone).2]
    exact h
  next progress recorded lane hsome =>
    obtain ⟨hcontinues, haccounts, hqueue⟩ := hlane.report hsome
    rw [absorbed_eq hpushed]
    refine ⟨⟨absorbed, hqueue ▸ hpushed, haccounts⟩, fun before report after heq => ?_⟩
    rcases List.eq_nil_or_concat after with rfl | ⟨others, last, rfl⟩
    · obtain ⟨rfl, hlast⟩ := List.append_inj' heq rfl
      injection hlast with hlast
      exact ⟨_, hlast ▸ hcontinues⟩
    · rw [List.concat_eq_append, ← List.cons_append, ← List.append_assoc] at heq
      exact h.reports before report others (List.append_inj' heq rfl).1

theorem Sound.step (h : run.Sound chain) (move : LaneMove) : (run.step move).Sound chain := by
  obtain ⟨absorbed, hpushed, hlane⟩ := h.lane
  cases move with
  | push item =>
    refine h.of_lane ?_ (hlane.of_lane rfl rfl rfl rfl)
    rw [hpushed, List.append_assoc]
    rfl
  | close => exact h.of_lane hpushed (hlane.of_lane rfl rfl rfl rfl)
  | drain =>
    obtain ⟨absorbed', hpushed', hlane'⟩ := hlane.drainReady hpushed
    exact h.of_lane hpushed' hlane'
  | wait =>
    cases hwait : run.lane.waitItem with
    | none =>
      rw [LaneRun.step, hwait]
      exact h
    | some lane =>
      obtain ⟨absorbed', hpushed', hlane'⟩ := hlane.waitItem hpushed hwait
      rw [LaneRun.step, hwait]
      exact h.of_lane hpushed' hlane'
  | pop =>
    refine h.of_lane hpushed (hlane.pending ?_)
    rw [Lane.popFront, List.append_assoc]
    cases run.lane.pending <;> rfl
  | take maxEvents =>
    refine h.of_lane hpushed (hlane.pending ?_)
    rw [Lane.takeFront, List.append_assoc, List.take_append_drop]
  | giveBack kept =>
    refine h.of_lane hpushed (hlane.pending ?_)
    rw [← List.append_assoc, List.take_append_drop]
  | takeReorg => exact h.of_lane hpushed (hlane.of_lane rfl rfl rfl rfl)
  | report => exact h.report

theorem Sound.play (h : run.Sound chain) (moves : List LaneMove) :
    (run.play moves).Sound chain := by
  induction moves generalizing run with
  | nil => exact h
  | cons move rest ih => exact ih (h.step move)

end LaneRun

/-! ### What reports say -/

namespace LaneReport.Continues

variable {report earlier : LaneReport} {chain : ChainId} {before between : List LaneReport}
  {rest rest' : List Event}

/-- The reported block is the highest one, up to the last absorbed one, with nothing uncommitted at
or below it. -/
theorem processed_iff (h : report.Continues chain before rest)
    (hcontiguous : Contiguous none report.absorbed) (number : Nat) :
    report.progress.processed.any (number ≤ ·) = true ↔
      (∃ last ∈ endOf none report.absorbed, number ≤ last.number) ∧
        ∀ event ∈ rest, number < event.block := by
  rw [h.processed]
  cases hrest : rest with
  | nil =>
    cases endOf none report.absorbed <;> simp
  | cons head others =>
    have hsorted := hcontiguous.sorted
    rw [← h.events, hrest] at hsorted
    have hfirst := (List.pairwise_cons.1 (List.pairwise_append.1 hsorted).2.1).1
    have hhead : head ∈ eventsOf report.absorbed := by
      rw [← h.events, hrest]
      exact List.mem_append_right _ List.mem_cons_self
    obtain ⟨last, hlast, hle⟩ := (hcontiguous.events head hhead).2
    change (Word.checkedSub head.block 1).any (number ≤ ·) = true ↔ _
    rw [lt_openAfter_iff, openAfter_checkedSub, List.forall_mem_cons]
    constructor
    · intro hlt
      refine ⟨⟨last, hlast, by omega⟩, hlt, fun event hevent => ?_⟩
      have hbehind := hfirst event hevent
      omega
    · exact fun hall => hall.2.1

/-- What a later report leaves uncommitted, an earlier one left so, or it came in between. -/
theorem mem_rest (hearlier : earlier.Continues chain before rest)
    (hlater : report.Continues chain (before ++ earlier :: between) rest') {later : List QueueItem}
    (habsorbed : report.absorbed = earlier.absorbed ++ later) :
    ∀ event ∈ rest', event ∈ rest ∨ event ∈ eventsOf later := by
  have hcommitted : committedBy ((before ++ earlier :: between) ++ [report]) =
      committedBy (before ++ [earlier]) ++ committedBy (between ++ [report]) := by
    simp [committedBy]
  have hevents := hlater.events
  rw [hcommitted, habsorbed, eventsOf_append, ← hearlier.events, List.append_assoc,
    List.append_assoc, List.append_cancel_left_eq] at hevents
  intro event hevent
  rw [← List.mem_append, ← hevents]
  exact List.mem_append_right _ hevent

theorem processed_le (hearlier : earlier.Continues chain before rest)
    (hlater : report.Continues chain (before ++ earlier :: between) rest')
    (hcontiguous : Contiguous none report.absorbed) :
    earlier.progress.processed ≤ report.progress.processed := by
  obtain ⟨later, habsorbed⟩ := hlater.earlier earlier (by simp)
  obtain ⟨hbefore, hsince⟩ := contiguous_append.1 (habsorbed ▸ hcontiguous)
  have hreached : ∀ number, earlier.progress.processed.any (number ≤ ·) = true →
      report.progress.processed.any (number ≤ ·) = true := by
    intro number hnumber
    obtain ⟨⟨last, hlast, hle⟩, hrest⟩ := (hearlier.processed_iff hbefore number).1 hnumber
    refine (hlater.processed_iff hcontiguous number).2 ⟨?_, fun event hevent => ?_⟩
    · obtain ⟨stop, hstop, hstop_le⟩ := hsince.le_endOf last hlast
      rw [← habsorbed, endOf_append]
      exact ⟨stop, hstop, by omega⟩
    · rcases hearlier.mem_rest hlater habsorbed.symm event hevent with hleft | hnew
      · exact hrest event hleft
      · have habove := (hsince.events event hnew).1 last hlast
        omega
  cases hprocessed : earlier.progress.processed with
  | none => simp
  | some processed =>
    have hreached := hreached processed (by simp [hprocessed])
    cases hlater : report.progress.processed with
    | none => simp [hlater] at hreached
    | some later => simpa [hlater] using hreached

end LaneReport.Continues

/-- The last position among reports is that of the last event that they commit. -/
theorem getLast?_positions {reports : List LaneReport}
    (h : ∀ report ∈ reports,
      report.progress.position = report.committed.getLast?.map Event.position) :
    (reports.filterMap (·.progress.position)).getLast? =
      (committedBy reports).getLast?.map Event.position := by
  induction reports with
  | nil => rfl
  | cons report rest ih =>
    have hrest := ih fun other hother => h other (List.mem_cons_of_mem _ hother)
    have hcommitted : committedBy (report :: rest) = report.committed ++ committedBy rest := rfl
    have hpositions : (report :: rest).filterMap (·.progress.position) =
        report.progress.position.toList ++ rest.filterMap (·.progress.position) := by
      rw [List.filterMap_cons]
      cases report.progress.position <;> rfl
    rw [hcommitted, hpositions, List.getLast?_append, List.getLast?_append, hrest,
      h report List.mem_cons_self]
    cases (committedBy rest).getLast? <;> cases report.committed.getLast? <;> rfl

namespace LaneRun

variable {chain : ChainId} {run : LaneRun} {before after : List LaneReport} {report : LaneReport}

theorem Sound.contiguous (h : run.Sound chain) (hpushed : Contiguous none run.pushed) :
    Contiguous none run.absorbed := by
  obtain ⟨absorbed, heq, -⟩ := h.lane
  rw [absorbed_eq heq]
  exact (contiguous_append.1 (heq ▸ hpushed)).1

theorem Sound.absorbed_prefix (h : run.Sound chain) (hmem : report ∈ run.reports) :
    report.absorbed <+: run.absorbed := by
  obtain ⟨absorbed, heq, hlane⟩ := h.lane
  rw [absorbed_eq heq]
  exact hlane.earlier report hmem

/-- A block that is in the range of its batch was not reached before it was absorbed. -/
theorem Sound.reaches_eq (h : run.Sound chain) (hpushed : Contiguous none run.pushed)
    (hinside : NumbersInside (·.blocks.map (·.number)) run.pushed)
    (hreports : run.reports = before ++ report :: after) {place : Nat} {block : Block}
    (hplace : (blocksOf run.absorbed)[place]? = some block) :
    report.reaches place = report.progress.processed.any (block.number ≤ ·) := by
  have hmem : report ∈ run.reports := hreports ▸ List.mem_append_right _ List.mem_cons_self
  obtain ⟨later, habsorbed⟩ := h.absorbed_prefix hmem
  obtain ⟨hbefore, hsince⟩ := contiguous_append.1 (habsorbed ▸ h.contiguous hpushed)
  rw [← habsorbed, blocksOf_append] at hplace
  rcases Nat.lt_or_ge place (blocksOf report.absorbed).length with hlt | hge
  · rw [List.getElem?_append_left hlt] at hplace
    rw [LaneReport.reaches, hplace, Option.any_some]
  · rw [LaneReport.reaches_of_length_le hge, eq_comm, Bool.eq_false_iff]
    intro hreached
    obtain ⟨rest, hcontinues⟩ := h.reports before report after hreports
    obtain ⟨last, hlast, hle⟩ := ((hcontinues.processed_iff hbefore block.number).1 hreached).1
    have hlater : NumbersInside (·.blocks.map (·.number)) later := by
      obtain ⟨absorbed, heq, -⟩ := h.lane
      rw [absorbed_eq heq] at habsorbed
      intro item hitem
      refine hinside item ?_
      rw [heq, ← habsorbed]
      exact List.mem_append_left _ (List.mem_append_right _ hitem)
    rw [List.getElem?_append_right hge] at hplace
    have hblock : block.number ∈ later.flatMap (·.blocks.map (·.number)) := by
      rw [← List.map_flatMap]
      exact List.mem_map_of_mem (List.mem_of_getElem? hplace)
    have habove := (hsince.numbers hlater block.number hblock).1 last hlast
    omega

/-- What each report of a lane says that is fed batches which follow each other, whatever is done
with the lane. The reported block is the highest one, up to the last absorbed one, at or below which
nothing absorbed is uncommitted; it is no lower than any reported before. The position is that of
the last event committed, and so is the last position reported. The blocks to remember are those
that this report is the first one to reach, each as often as it was absorbed; where batches remember
blocks of their ranges only, a report reaches every block up to the reported one, whenever it was
absorbed. -/
theorem reports_sound {depth : Nat} {moves : List LaneMove}
    (hrun : (start chain depth).play moves = run) (hpushed : Contiguous none run.pushed)
    (hreports : run.reports = before ++ report :: after) :
    (∃ rest, committedBy (before ++ [report]) ++ rest = eventsOf report.absorbed ∧
        ∀ number, report.progress.processed.any (number ≤ ·) = true ↔
          (∃ last ∈ endOf none report.absorbed, number ≤ last.number) ∧
            ∀ event ∈ rest, number < event.block) ∧
      (∀ earlier ∈ before, earlier.progress.processed ≤ report.progress.processed) ∧
      report.progress.position = report.committed.getLast?.map Event.position ∧
      ((before ++ [report]).filterMap (·.progress.position)).getLast? =
        (committedBy (before ++ [report])).getLast?.map Event.position ∧
      report.recorded =
        ((blocksOf report.absorbed).zipIdx.filter fun entry =>
          report.reaches entry.2 && before.all fun earlier => !earlier.reaches entry.2).map
            (fun entry => ⟨chain, entry.1⟩) ∧
      (NumbersInside (·.blocks.map (·.number)) run.pushed →
        ∀ place block, (blocksOf run.absorbed)[place]? = some block →
          report.reaches place = report.progress.processed.any (block.number ≤ ·)) := by
  have hsound : run.Sound chain := hrun ▸ (Sound.start chain depth).play moves
  have hmem : report ∈ run.reports := hreports ▸ List.mem_append_right _ List.mem_cons_self
  obtain ⟨rest, hcontinues⟩ := hsound.reports before report after hreports
  obtain ⟨later, habsorbed⟩ := hsound.absorbed_prefix hmem
  have hcontiguous : Contiguous none report.absorbed :=
    (contiguous_append.1 (habsorbed ▸ hsound.contiguous hpushed)).1
  refine ⟨⟨rest, hcontinues.events, hcontinues.processed_iff hcontiguous⟩,
    fun earlier hearlier => ?_,
    hcontinues.position, getLast?_positions fun other hother => ?_, ?_,
    fun hinside place block hplace => hsound.reaches_eq hpushed hinside hreports hplace⟩
  · obtain ⟨first, between, rfl⟩ := List.append_of_mem hearlier
    obtain ⟨rest', hcontinues'⟩ :=
      hsound.reports first earlier (between ++ report :: after) (by simp [hreports])
    exact hcontinues'.processed_le hcontinues hcontiguous
  · have hother : other ∈ run.reports := by
      rw [hreports]
      rcases List.mem_append.1 hother with hold | hnew
      · exact List.mem_append_left _ hold
      · exact List.mem_append_right _ (List.mem_singleton.1 hnew ▸ List.mem_cons_self)
    obtain ⟨first, behind, hsplit⟩ := List.append_of_mem hother
    obtain ⟨rest', hcontinues'⟩ := hsound.reports first other behind hsplit
    exact hcontinues'.position
  · rw [hcontinues.recorded, unreached, List.filter_filter]

/-- The blocks from 0 to 9 with three events, two of them in block 7, and those from 10 to 19 with
none. -/
def sampleBatches : List FetchedBatch :=
  let event (block logIndex : Nat) : Event :=
    { (default : Event) with chain := 1, block := block, logIndex := logIndex }
  let block (number : Nat) : Block := { (default : Block) with number := number }
  [⟨1, 0, block 9, 30, [event 3 0, event 7 0, event 7 1], 1, [block 3, block 9]⟩,
    ⟨1, 10, block 19, 30, [], 2, [block 19]⟩]

/-- The first unit ends before block 7 and the second one within it; the second batch is absorbed
behind the event that is left. -/
def sampleMoves : List LaneMove :=
  sampleBatches.map (.push <| .batch ·) ++
    [.drain, .take 3, .giveBack 1, .report, .pop, .report, .wait, .take 2, .report]

theorem reports_sound_sample :
    ∃ run before report, (start 1 2).play sampleMoves = run ∧ Contiguous none run.pushed ∧
      run.reports = before ++ [report] ∧
      run.reports.map (·.progress.processed) = [some 6, some 6, some 19] ∧
      run.reports.map (·.recorded.map (·.block.number)) = [[3], [], [9, 19]] ∧
      (∀ earlier ∈ before, earlier.progress.processed ≤ report.progress.processed) ∧
      report.recorded =
        ((blocksOf report.absorbed).zipIdx.filter fun entry =>
          report.reaches entry.2 && before.all fun earlier => !earlier.reaches entry.2).map
            (fun entry => ⟨1, entry.1⟩) := by
  have hpushed : Contiguous none ((start 1 2).play sampleMoves).pushed := by
    refine ⟨⟨(fun _ hnone => nomatch hnone), ?_, ?_, ?_⟩, ⟨?_, ?_, ?_, ?_⟩, trivial⟩
    all_goals decide
  have hnonempty : ((start 1 2).play sampleMoves).reports ≠ [] := by decide
  have hreports := (List.dropLast_append_getLast hnonempty).symm
  obtain ⟨-, hmonotone, -, -, hrecorded, -⟩ := reports_sound rfl hpushed hreports
  exact ⟨_, _, _, rfl, hpushed, hreports, by decide, by decide, hmonotone, hrecorded⟩

end LaneRun

end ChainIndexer
