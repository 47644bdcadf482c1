import ChainIndexer.Pipeline.Basic
import ChainIndexer.Proofs.Lane
import ChainIndexer.Proofs.Orderer
import ChainIndexer.Proofs.Rollback.Plan

/-!
# What a unit reports

Each lane reports at most once for a unit, and the report moves the checkpoint of its chain, the
stored one and the tracked one alike.
-/

namespace ChainIndexer

namespace Lane

variable {lane after : Lane} {committed : List Event}

/-- A lane without a report had nothing to commit, and stays as it is. -/
theorem progress_eq_none (h : lane.progress committed = (none, after)) :
    committed = [] ∧ after = lane := by
  rw [Lane.progress] at h
  split at h
  next hnone =>
    cases h
    rw [Bool.and_eq_true, List.isEmpty_iff] at hnone
    exact ⟨hnone.1, rfl⟩
  next => cases h

/-- What stands in the report of a lane, and what the lane keeps. -/
theorem progress_eq_some {progress : Progress} {recorded : List RecordedBlock}
    (h : lane.progress committed = (some (progress, recorded), after)) :
    progress =
        { chain := lane.chain
          fetched := lane.fetchedThrough.map (·.number)
          processed := lane.processed
          position := committed.getLast?.map Event.position
          events := committed.length
          batches := lane.batches
          firstEventBlock := committed.head?.map (·.block)
          isLive := lane.isLive && lane.pending.isEmpty
          isFinished := lane.isDone } ∧
      recorded = (lane.unrecorded.filter fun block =>
        lane.processed.any (block.number ≤ ·)).map (fun block => ⟨lane.chain, block⟩) ∧
      after =
        { lane with
          hasNewProgress := false
          unrecorded := lane.unrecorded.filter fun block =>
            !lane.processed.any (block.number ≤ ·) } := by
  rw [Lane.progress] at h
  split at h
  next => cases h
  next =>
    cases h
    exact ⟨rfl, rfl, rfl⟩

theorem reports_progress {progress : Progress} {recorded : List RecordedBlock}
    (h : lane.progress committed = (some (progress, recorded), after)) :
    progress.chain = lane.chain ∧ lane.Reports committed progress := by
  obtain ⟨rfl, -, -⟩ := progress_eq_some h
  exact ⟨rfl, fun processed hprocessed => ⟨processed, hprocessed, Nat.le_refl _⟩, rfl⟩

theorem mem_progress_recorded {report : Progress × List RecordedBlock} {block : RecordedBlock}
    (h : (lane.progress committed).1 = some report) (hblock : block ∈ report.2) :
    block.chain = lane.chain ∧ block.block ∈ lane.unrecorded := by
  obtain ⟨-, hrecorded, -⟩ := progress_eq_some (Prod.ext h rfl)
  rw [hrecorded] at hblock
  obtain ⟨kept, hkept, rfl⟩ := List.mem_map.1 hblock
  exact ⟨rfl, (List.mem_filter.1 hkept).1⟩

/-- Of a lane only the blocks to record and the mark of news change with a report. -/
theorem progress_lane (lane : Lane) (committed : List Event) :
    ∃ unrecorded hasNewProgress, unrecorded.Sublist lane.unrecorded ∧
      (lane.progress committed).2 =
        { lane with unrecorded := unrecorded, hasNewProgress := hasNewProgress } := by
  cases hprogress : lane.progress committed with
  | mk report after =>
    cases report with
    | none => exact ⟨_, _, List.Sublist.refl _, (progress_eq_none hprogress).2⟩
    | some report =>
      obtain ⟨-, -, hafter⟩ := progress_eq_some hprogress
      exact ⟨_, _, List.filter_sublist, hafter⟩

theorem progress_chain (lane : Lane) (committed : List Event) :
    (lane.progress committed).2.chain = lane.chain := by
  obtain ⟨unrecorded, hasNewProgress, -, hlane⟩ := lane.progress_lane committed
  rw [hlane]

theorem Serves.progress {task : FetcherTask} {chain : ChainId} {log : ChainLog chain}
    {covers : Position → Bool} {left taken : List Event}
    (h : lane.Serves task log covers left taken) (committed : List Event) :
    (lane.progress committed).2.Serves task log covers left taken := by
  obtain ⟨unrecorded, hasNewProgress, hkept, hlane⟩ := lane.progress_lane committed
  rw [hlane]
  exact h.of_lane rfl rfl rfl rfl rfl fun _ hmem => hkept.subset hmem

theorem Reports.holdBefore {progress : Progress} (h : lane.Reports committed progress)
    (event : Event) :
    lane.Reports committed (progress.holdBefore event) := by
  rw [Progress.holdBefore]
  split
  next =>
    refine ⟨fun processed hprocessed => ?_, h.position⟩
    obtain ⟨reported, below, hreported, -, rfl⟩ := Option.min_eq_some_iff.1 hprocessed
    obtain ⟨highest, hhighest, hle⟩ := h.processed reported hreported
    exact ⟨highest, hhighest, Nat.le_trans (Nat.min_le_left ..) hle⟩
  next => exact h

end Lane

/-- Progress that is held back before its last event reaches nothing behind that event. -/
theorem Progress.le_of_reaches_holdBefore {progress : Progress} {event : Event}
    (hchain : progress.chain = event.chain) (hposition : progress.position = some event.position)
    {position : Position} (h : (progress.holdBefore event).reaches position = true) :
    position ≤ event.position := by
  rw [holdBefore, if_pos hchain, reaches, Bool.or_eq_true, Option.any_eq_true,
    Option.any_eq_true] at h
  rcases h with ⟨processed, heq, hle⟩ | ⟨last, heq, hle⟩
  · obtain ⟨reported, below, -, hbelow, rfl⟩ := Option.min_eq_some_iff.1 heq
    rw [Word.checkedSub, Option.ite_none_right_eq_some, Option.some.injEq] at hbelow
    have hblock : position.block ≤ min reported below := of_decide_eq_true hle
    refine Position.le_of_block_lt ?_
    change position.block < event.block
    omega
  · dsimp only at heq
    rw [hposition] at heq
    cases heq
    exact of_decide_eq_true hle

/-- Progress, held back if an event registers addresses. -/
def Progress.held (registering : Option Event) (progress : Progress) : Progress :=
  registering.elim progress fun event => progress.holdBefore event

/-- Progress that is held back differs only in how far it claims to be. -/
theorem Progress.exists_held_eq (registering : Option Event) (progress : Progress) :
    ∃ processed isLive isFinished, progress.held registering =
      { progress with processed := processed, isLive := isLive, isFinished := isFinished } := by
  cases registering with
  | none => exact ⟨_, _, _, rfl⟩
  | some event =>
    rw [held, Option.elim_some, holdBefore]
    split
    next => exact ⟨_, _, _, rfl⟩
    next => exact ⟨_, _, _, rfl⟩

@[simp]
theorem Progress.held_chain (registering : Option Event) (progress : Progress) :
    (progress.held registering).chain = progress.chain := by
  obtain ⟨processed, isLive, isFinished, hheld⟩ := progress.exists_held_eq registering
  rw [hheld]

@[simp]
theorem Progress.held_events (registering : Option Event) (progress : Progress) :
    (progress.held registering).events = progress.events := by
  obtain ⟨processed, isLive, isFinished, hheld⟩ := progress.exists_held_eq registering
  rw [hheld]

theorem Lane.Reports.held {lane : Lane} {committed : List Event} {progress : Progress}
    (h : lane.Reports committed progress) (registering : Option Event) :
    lane.Reports committed (progress.held registering) := by
  cases registering with
  | none => exact h
  | some event => exact h.holdBefore event

namespace Orderer

variable {orderer : Orderer} {committed : List Event} {chain : ChainId}

/-- What the lane of a chain reports for a unit, if it has anything to report. -/
def report? (orderer : Orderer) (committed : List Event) (chain : ChainId) : Option Progress :=
  (orderer.lanes.get? chain).bind fun lane =>
    (lane.progress (committed.filter (·.chain = chain))).1.map (·.1)

theorem report?_chain
    (hlanes : ∀ chain lane, orderer.lanes.get? chain = some lane → lane.chain = chain)
    {progress : Progress} (hreport : orderer.report? committed chain = some progress) :
    progress.chain = chain := by
  rw [report?, Option.bind_eq_some_iff] at hreport
  obtain ⟨lane, hlane, hreport⟩ := hreport
  obtain ⟨⟨reported, recorded⟩, hreported, rfl⟩ := Option.map_eq_some_iff.1 hreport
  exact (Lane.reports_progress (Prod.ext hreported rfl)).1.trans (hlanes chain lane hlane)

theorem progress_reports (orderer : Orderer) (committed : List Event) :
    (orderer.progress committed).1 = orderer.lanes.keys.filterMap (orderer.report? committed) := by
  rw [progress, Table.keys, List.filterMap_map, List.map_filterMap]
  refine List.filterMap_congr fun entry hentry => ?_
  rw [Function.comp_apply, report?, Table.mem_entries_iff.1 hentry, Option.bind_some]

theorem mem_progress_recorded {recorded : RecordedBlock}
    (h : recorded ∈ (orderer.progress committed).2.1) :
    ∃ chain lane, orderer.lanes.get? chain = some lane ∧ recorded.chain = lane.chain ∧
      recorded.block ∈ lane.unrecorded := by
  obtain ⟨report, hreport, hrecorded⟩ := List.mem_flatMap.1 h
  obtain ⟨entry, hentry, hprogress⟩ := List.mem_filterMap.1 hreport
  exact ⟨entry.1, entry.2, Table.mem_entries_iff.1 hentry,
    Lane.mem_progress_recorded hprogress hrecorded⟩

theorem get?_progress (orderer : Orderer) (committed : List Event) (chain : ChainId) :
    (orderer.progress committed).2.2.lanes.get? chain =
      (orderer.lanes.get? chain).map fun lane =>
        (lane.progress (committed.filter (·.chain = chain))).2 :=
  Table.get?_map ..

theorem get?_restore (orderer : Orderer) (events : List Event) (chain : ChainId) :
    (orderer.restore events).lanes.get? chain =
      (orderer.lanes.get? chain).map (·.restore (events.filter (·.chain = chain))) :=
  Table.get?_map ..

/-- The checkpoint that the report of a chain leads to. -/
def checkpoint? (orderer : Orderer) (committed : List Event) (registering : Option Event)
    (tracker : Tracker) (now : Int) (chain : ChainId) : Option Checkpoint :=
  (orderer.report? committed chain).bind fun progress =>
    (tracker.get? chain).map (·.update (progress.held registering) now)

theorem get?_insertAll_updated (table : Table ChainId Checkpoint) {tracker : Tracker}
    (hkeyed : tracker.Keyed)
    (hlanes : ∀ chain lane, orderer.lanes.get? chain = some lane → lane.chain = chain)
    (registering : Option Event) (now : Int) :
    (table.insertAll ((tracker.updated
        ((orderer.progress committed).1.map (Progress.held registering)) now).map fun checkpoint =>
          (checkpoint.chain, checkpoint))).get? chain =
      (orderer.checkpoint? committed registering tracker now chain).or (table.get? chain) := by
  have hentries : (tracker.updated
        ((orderer.progress committed).1.map (Progress.held registering)) now).map
          (fun checkpoint => (checkpoint.chain, checkpoint)) =
      orderer.lanes.keys.filterMap fun chain =>
        (orderer.checkpoint? committed registering tracker now chain).map fun checkpoint =>
          (chain, checkpoint) := by
    rw [progress_reports, Tracker.updated, List.map_filterMap, List.map_filterMap,
      List.filterMap_filterMap]
    refine List.filterMap_congr fun chain _ => ?_
    rw [checkpoint?]
    cases hprogress : orderer.report? committed chain with
    | none => rfl
    | some progress =>
      have hchain := report?_chain hlanes hprogress
      rw [Option.map_some, Option.bind_some, Option.bind_some, Progress.held_chain, hchain]
      cases hget : tracker.get? chain with
      | none => rfl
      | some checkpoint =>
        have hsame : (checkpoint.update (progress.held registering) now).chain = chain :=
          hkeyed chain checkpoint hget
        rw [Option.map_some, Option.map_some, Option.map_some, hsame]
  rw [hentries, Table.get?_insertAll_filterMap]
  split
  next => rfl
  next hmem =>
    have hnone : orderer.lanes.get? chain = none := by
      refine Option.eq_none_iff_forall_ne_some.2 fun lane hlane => hmem ?_
      exact List.mem_map.2 ⟨(chain, lane), Table.mem_entries_iff.2 hlane, rfl⟩
    rw [checkpoint?, report?, hnone]
    rfl

end Orderer

end ChainIndexer
