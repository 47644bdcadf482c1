import ChainIndexer.Proofs.Degraded
import ChainIndexer.Proofs.Pipeline.Climbing
import ChainIndexer.Proofs.Pipeline.Leaves

/-!
# What checkpoints count

A checkpoint counts the events that were committed for its chain, and keeps the block of the first
one. A rollback takes events from the store and leaves both alone, and an event that is fetched
again counts again. So the counters are those of the events in the store exactly as long as no
rollback has taken an event of the chain.
-/

namespace ChainIndexer

variable {τ σ : Type} {orderly : Prop} {id : ChainId}

/-! ### Tallies -/

/-- What a checkpoint counts, and how far its chain is processed. -/
structure Tally where
  events : Nat
  firstEventBlock : Option Nat
  processed : Option Nat

/-- The tally of a checkpoint, if there is one. -/
def Tally.of (found : Option Checkpoint) : Tally :=
  found.elim ⟨0, none, none⟩ fun checkpoint =>
    ⟨checkpoint.events, checkpoint.firstEventBlock, checkpoint.processed⟩

/-- Whether a tally goes on from another one by some events of its chain. In an orderly run they
come in the order of their blocks, behind what was processed. -/
structure Tally.Adds (before : Tally) (added : List Event) (orderly : Prop) (after : Tally) :
    Prop where
  events : after.events = before.events + added.length
  first : after.firstEventBlock = before.firstEventBlock.or (added.head?.map (·.block))
  le : openAfter before.processed ≤ openAfter after.processed
  sorted : orderly → added.Pairwise fun a b => a.block ≤ b.block
  above : orderly → ∀ event ∈ added, openAfter before.processed ≤ event.block
  reached : orderly → ∀ event ∈ added.head?, event.block ≤ openAfter after.processed

theorem Tally.Adds.nil (tally : Tally) : tally.Adds [] orderly tally :=
  ⟨rfl, (Option.or_none ..).symm, Nat.le_refl _, fun _ => List.Pairwise.nil,
    fun _ _ hevent => absurd hevent List.not_mem_nil, fun _ _ hnone => (nomatch hnone)⟩

namespace Store

variable {store : Store} {committed : List Event}

def tally (store : Store) (id : ChainId) : Tally := .of (store.checkpoints.get? id)

/-- The events that a store has beyond those of an earlier one. -/
def addedSince (store before : Store) : List Event :=
  store.rawEvents.drop before.rawEvents.length

/-- Whether a store counts the events of a chain that were ever committed to it. In an orderly run
that took none of them back, the first one has the lowest block. -/
structure Counts (store : Store) (id : ChainId) (orderly : Prop) (committed : List Event) :
    Prop where
  kept : (store.eventsOf id).Sublist committed
  events : (store.tally id).events = committed.length
  first : (store.tally id).firstEventBlock = committed.head?.map (·.block)
  lowest : orderly → store.eventsOf id = committed → ∀ first ∈ committed.head?,
    first.block ≤ openAfter (store.tally id).processed ∧
      ∀ event ∈ committed, first.block ≤ event.block

theorem Counts.none (hevents : store.rawEvents = []) (hcheckpoints : store.checkpoints = .empty) :
    store.Counts id orderly [] := by
  have htally : store.tally id = ⟨0, .none, .none⟩ := by
    rw [tally, hcheckpoints]
    rfl
  refine ⟨?_, ?_, ?_, fun _ _ _ hnone => nomatch hnone⟩
  · rw [eventsOf, hevents]
    exact .slnil
  · rw [htally]
    rfl
  · rw [htally]
    rfl

theorem Counts.write (h : store.Counts id orderly committed) {unit : WriteUnit}
    (hadds : (store.tally id).Adds (unit.rawEvents.filter (·.chain = id)) orderly
      ((store.write unit).tally id)) :
    (store.write unit).Counts id orderly
      (committed ++ unit.rawEvents.filter (·.chain = id)) := by
  generalize hnew : unit.rawEvents.filter (·.chain = id) = new at hadds ⊢
  refine ⟨?_, ?_, ?_, fun horderly hall first hfirst => ?_⟩
  · rw [eventsOf_write, hnew]
    exact h.kept.append_right new
  · rw [hadds.events, h.events, List.length_append]
  · rw [hadds.first, h.first, List.head?_append]
    cases committed.head? <;> rfl
  · rw [eventsOf_write, hnew, List.append_cancel_right_eq] at hall
    have hbefore := h.lowest horderly hall
    cases committed with
    | nil =>
      rw [List.nil_append] at hfirst ⊢
      refine ⟨hadds.reached horderly first hfirst, fun event hevent => ?_⟩
      obtain ⟨rest, rfl⟩ := List.head?_eq_some_iff.1 hfirst
      rcases List.mem_cons.1 hevent with rfl | hlater
      · exact Nat.le_refl _
      · exact (List.pairwise_cons.1 (hadds.sorted horderly)).1 event hlater
    | cons head rest =>
      obtain ⟨hopen, hlow⟩ := hbefore first hfirst
      refine ⟨Nat.le_trans hopen hadds.le, fun event hevent => ?_⟩
      rcases List.mem_append.1 hevent with hold | hadded
      · exact hlow event hold
      · exact Nat.le_trans hopen (hadds.above horderly event hadded)

/-- Whether no event of a chain that is above the safe block of a reorg is older than it. -/
def IsClocked (store : Store) (reorg : Reorg) : Prop :=
  ∀ event ∈ store.eventsOf reorg.chain, reorg.safeBlock.number < event.block →
    reorg.safeBlock.timestamp ≤ event.timestamp

/-- A chain that is moved back, though it loses none of its events, stays processed up to them. -/
theorem le_openAfter_rewind {mode : Mode} {reorg : Reorg} {tracker : Tracker} {rewind : Rewind}
    (hclocked : mode = .ordered → store.IsClocked reorg)
    (hkept : ∀ event ∈ store.eventsOf rewind.chain,
      (RollbackScope.ofReorg mode reorg).invalidatesEvent event = false)
    (hrewind : rewind ∈ store.rewinds (.ofReorg mode reorg) reorg tracker) {event : Event}
    (hevent : event ∈ store.eventsOf rewind.chain)
    (hopen : event.block ≤ openAfter (tracker.processed rewind.chain)) :
    event.block ≤ openAfter rewind.block := by
  rcases List.mem_cons.1 hrewind with rfl | hother
  · rw [openAfter_min]
    refine Nat.le_min.2 ⟨hopen, Nat.not_lt.1 fun habove => ?_⟩
    have hstays := hkept event hevent
    have hbeyond : reorg.safeBlock.number < event.block := Nat.lt_of_succ_lt habove
    rw [RollbackScope.invalidatesEvent, chain_of_mem_eventsOf hevent] at hstays
    cases mode with
    | unordered => exact of_decide_eq_false hstays ⟨rfl, hbeyond⟩
    | ordered =>
      rw [RollbackScope.invalidates_of_safeBlock_lt hbeyond
        (hclocked rfl event hevent hbeyond)] at hstays
      cases hstays
  · -- Another chain is moved back only if it loses an event.
    cases mode with
    | unordered => cases hother
    | ordered =>
      obtain ⟨⟨other, lowest⟩, hentry, rfl⟩ := List.mem_map.1 hother
      obtain ⟨stale, hstale, hinvalid, -⟩ := exists_of_firstInvalidatedBlocks
        (Table.mem_entries_iff.1 (List.mem_of_mem_filter hentry))
      rw [hkept stale hstale] at hinvalid
      cases hinvalid

/-- What becomes of the checkpoint of a chain when checkpoints are written. -/
theorem get?_putCheckpoints (checkpoints : List Checkpoint) (id : ChainId) :
    ∃ found : Option Checkpoint, (∀ checkpoint ∈ found, checkpoint ∈ checkpoints ∧
        checkpoint.chain = id) ∧
      ∀ table, (putCheckpoints table checkpoints).get? id = found.or (table.get? id) := by
  refine ⟨_, fun checkpoint hfound => ?_, fun table => Table.get?_insertAll table _ id⟩
  obtain ⟨entry, hfind, rfl⟩ := Option.map_eq_some_iff.1 hfound
  have hid : entry.1 = id := by simpa using List.find?_some hfind
  obtain ⟨written, hwritten, rfl⟩ :=
    List.mem_map.1 (List.mem_reverse.1 (List.mem_of_find?_eq_some hfind))
  exact ⟨hwritten, hid⟩

/-- A rollback moves the processed block of a chain that it rewinds, and no counter. -/
theorem tally_applyRollback {mode : Mode} {reorg : Reorg} {tracker : Tracker} {plan : RollbackPlan}
    (htracks : ∀ tracked, tracker.get? id = some tracked →
      Tally.of (some tracked) = store.tally id)
    (hkeyed : tracker.Keyed)
    (hplan : RollbackPlan.make Repo.inMemory mode reorg tracker store = (.ok plan, store)) :
    (store.applyRollback plan).tally id = store.tally id ∨
      ∃ rewind ∈ plan.rewinds, rewind.chain = id ∧
        tracker.processed id = (store.tally id).processed ∧
        (store.applyRollback plan).tally id =
          { store.tally id with processed := min (store.tally id).processed rewind.block } := by
  obtain ⟨-, -, hcheckpoints⟩ := RollbackPlan.eq_of_make hplan
  obtain ⟨found, hfound, hput⟩ := get?_putCheckpoints plan.checkpoints id
  have htally : (store.applyRollback plan).tally id =
      Tally.of (found.or (store.checkpoints.get? id)) := congrArg Tally.of (hput store.checkpoints)
  cases hnew : found with
  | none => exact Or.inl (htally.trans (by rw [hnew, Option.none_or]; rfl))
  | some checkpoint =>
    obtain ⟨hmem, hchain⟩ := hfound checkpoint hnew
    rw [hcheckpoints] at hmem
    obtain ⟨rewind, hrewind, hrewound⟩ := List.mem_filterMap.1 hmem
    obtain ⟨tracked, htracked, rfl⟩ := Option.map_eq_some_iff.1 hrewound
    have hid : rewind.chain = id := (hkeyed _ _ htracked).symm.trans hchain
    subst hid
    have hsame := htracks tracked htracked
    refine Or.inr ⟨rewind, hrewind, rfl, ?_, ?_⟩
    · rw [Tracker.processed, htracked, Option.bind_some, ← hsame]
      rfl
    · rw [htally, hnew, Option.some_or, ← hsame]
      rfl

theorem Counts.applyRollback (h : store.Counts id orderly committed) {mode : Mode} {reorg : Reorg}
    {tracker : Tracker} {plan : RollbackPlan}
    (hclocked : orderly → mode = .ordered → store.IsClocked reorg)
    (htracks : ∀ tracked, tracker.get? id = some tracked →
      Tally.of (some tracked) = store.tally id)
    (hkeyed : tracker.Keyed)
    (hplan : RollbackPlan.make Repo.inMemory mode reorg tracker store = (.ok plan, store)) :
    (store.applyRollback plan).Counts id orderly committed := by
  obtain ⟨hscope, hrewinds, -⟩ := RollbackPlan.eq_of_make hplan
  have hevents := eventsOf_applyRollback store plan id
  have hmoved := tally_applyRollback htracks hkeyed hplan
  refine ⟨?_, ?_, ?_, fun horderly hall first hfirst => ?_⟩
  · rw [hevents]
    exact List.filter_sublist.trans h.kept
  · rw [← h.events]
    rcases hmoved with hsame | ⟨rewind, -, -, -, hmoved⟩
    · rw [hsame]
    · rw [hmoved]
  · rw [← h.first]
    rcases hmoved with hsame | ⟨rewind, -, -, -, hmoved⟩
    · rw [hsame]
    · rw [hmoved]
  · -- Nothing was taken back now, and so nothing was before.
    have hbefore : store.eventsOf id = committed := by
      refine h.kept.antisymm ?_
      rw [← hall, hevents]
      exact List.filter_sublist
    have hkept : ∀ event ∈ store.eventsOf id,
        (RollbackScope.ofReorg mode reorg).invalidatesEvent event = false := by
      rw [hevents, ← hbefore, hscope, List.filter_eq_self] at hall
      exact fun event hevent => (Bool.not_eq_true' _).mp (hall event hevent)
    obtain ⟨hopen, hlow⟩ := h.lowest horderly hbefore first hfirst
    refine ⟨?_, hlow⟩
    rcases hmoved with hsame | ⟨rewind, hrewind, rfl, hprocessed, hmoved⟩
    · rw [hsame]
      exact hopen
    · rw [hmoved]
      dsimp only
      rw [openAfter_min]
      refine Nat.le_min.2 ⟨hopen, ?_⟩
      refine le_openAfter_rewind (hclocked horderly) hkept (hrewinds ▸ hrewind) ?_
        (hprocessed ▸ hopen)
      rw [hbefore]
      exact List.mem_of_head? hfirst

end Store

/-! ### Commits -/

/-- Whether a lane is one of a chain, and goes on from what is processed if the run is orderly. -/
def Standing.ClimbsIf (orderly : Prop) (id : ChainId) (standing : Standing) : Prop :=
  standing.IsOf id ∧ (orderly → standing.Climbs id)

namespace Standing.ClimbsIf

theorem upheld (orderly : Prop) (chains : List Chain) :
    Upheld chains (ClimbsIf orderly) fun _ => True where
  chain := fun h => h.1.chain
  own := fun h => h.1.pending
  drain := fun h => ⟨h.1.drain, fun horderly => (h.2 horderly).drain⟩
  takeReorg := fun h => ⟨(Standing.IsOf.upheld chains).takeReorg h.1, fun horderly =>
    (Standing.Climbs.upheld chains).takeReorg (h.2 horderly)⟩
  report := fun h hpending hprogress _ => ⟨h.1.report hpending hprogress _ _, fun horderly =>
    (h.2 horderly).report hpending hprogress _ _⟩
  reported := fun _ _ _ _ _ _ => trivial
  rewind := fun _ _ => trivial
  start := fun _ _ settings window generation clock depth stored =>
    ⟨.start _ _ window settings generation clock depth stored, fun _ =>
      .start _ _ window settings generation clock depth stored⟩

theorem fed {source : ChainSource τ} (hown : source.AnswersOwn)
    (hfrom : orderly → source.AnswersFrom) :
    Fed source fun id standing => standing.task.Paced ∧ ClimbsIf orderly id standing where
  close := fun h => ⟨h.1, h.2.1.close false _, fun horderly => (h.2.2 horderly).close false _⟩
  pause := fun h hphase dueAt => ⟨h.1.pause hphase dueAt, h.2.1.pause hphase dueAt,
    fun horderly => (h.2.2 horderly).pause hphase dueAt⟩
  round := fun h hidle hfetching _ _ _ _ hsource hround clock =>
    ⟨h.1.afterRound hfetching hround clock,
      h.2.1.round (hsource ▸ hown) hfetching hround clock, fun horderly =>
        (h.2.2 horderly).round (hsource ▸ hown) (hsource ▸ hfrom horderly) h.1 hidle hfetching
          hround clock⟩
  send := fun h hphase clock => ⟨h.1.send hphase clock, h.2.1.send hphase clock,
    fun horderly => (h.2.2 horderly).send hphase clock⟩

end Standing.ClimbsIf

/-- The block of the first event that a report commits is not behind what is reported. -/
theorem Standing.Climbs.le_openAfter_held {standing : Standing} (h : standing.Climbs id)
    {committed rest : List Event} {progress : Progress} {recorded : List RecordedBlock}
    {lane : Lane} (hpending : standing.lane.pending = committed ++ rest)
    (hprogress : Lane.progress { standing.lane with pending := rest } committed =
      (some (progress, recorded), lane)) {registering : Option Event}
    (hregistering : ∀ event ∈ registering, event.chain = id → event ∈ committed)
    {first : Event} (hfirst : first ∈ committed.head?) :
    first.block ≤ openAfter (progress.held registering).processed := by
  obtain ⟨hprocessed, -, -, -⟩ := Lane.report_eq hprogress
  have hchain : progress.chain = id := (Lane.reports_progress hprogress).1.trans h.own.chain
  have hruns := h.pending
  rw [hpending] at hruns
  have hopen : first.block ≤ openAfter progress.processed := by
    rw [hprocessed]
    exact hruns.le_openAfter (List.mem_of_head? hfirst)
  rw [Progress.openAfter_held]
  cases registering with
  | none => exact hopen
  | some event =>
    dsimp only
    split
    next hsame =>
      refine Nat.le_min.2 ⟨hopen, ?_⟩
      have hmem := hregistering event rfl (hsame.symm.trans hchain)
      obtain ⟨others, rfl⟩ := List.head?_eq_some_iff.1 hfirst
      rcases List.mem_cons.1 hmem with rfl | hlater
      · exact Nat.le_refl _
      · have hsorted := (List.pairwise_append.1 hruns.1).1
        exact (List.pairwise_cons.1 hsorted).1 event hlater
    next => exact hopen

theorem Progress.held_firstEventBlock (registering : Option Event) (progress : Progress) :
    (progress.held registering).firstEventBlock = progress.firstEventBlock := by
  obtain ⟨processed, isLive, isFinished, hheld⟩ := progress.exists_held_eq registering
  rw [hheld]

namespace Pipeline

variable {context : PipelineContext σ} {view : σ → Store} {before after : Pipeline σ}
  {events : List Event} {orderer : Orderer}

/-- The checkpoint that a commit writes for a chain adds the events of that chain. -/
theorem Upholds.commit_adds
    (h : before.Upholds context.config view (Standing.ClimbsIf orderly) fun _ => True)
    (hgives : before.orderer.drain.Gives orderer events) (processed : ProcessedUnit)
    {found : Option Checkpoint}
    (htracks : ∀ tracked, before.tracker.get? id = some tracked →
      Tally.of (some tracked) = Tally.of found) :
    (Tally.of found).Adds ((events.take processed.applied).filter (·.chain = id)) orderly
      (Tally.of ((checkpoint? context before orderer events processed id).or found)) := by
  have hP := Standing.ClimbsIf.upheld orderly context.config.chains
  rw [checkpoint?, Orderer.checkpoint?, Orderer.report?]
  obtain ⟨hlane, hafter⟩ | ⟨lane, rest, hlane, hpending, hafter⟩ := get?_report hgives processed id
  · have hnone : (events.take processed.applied).filter (·.chain = id) = [] :=
      List.filter_eq_nil_iff.2 fun event hevent =>
        List.filter_eq_nil_iff.1 (events_of_no_lane hlane hgives) event
          (List.mem_of_mem_take hevent)
    rw [hafter, hnone]
    exact .nil _
  obtain ⟨task, tracked, -, htracked, hholds⟩ := h.stands id lane hlane
  rw [hafter, Option.bind_some, htracked]
  have hdrained := hP.drain hholds
  have hregistering : ∀ event ∈ registering events processed, event.chain = id →
      event ∈ (events.take processed.applied).filter (·.chain = id) := fun event hevent hchain =>
    List.mem_filter.2 ⟨List.mem_of_getLast? (registering_mem hevent), decide_eq_true hchain⟩
  generalize (events.take processed.applied).filter (·.chain = id) = committed at *
  cases hprogress : Lane.progress { lane.drainReady with pending := rest } committed with
  | mk report reported =>
    cases report with
    | none =>
      rw [(Lane.progress_eq_none hprogress).1]
      exact .nil _
    | some report =>
      obtain ⟨progress, recorded⟩ := report
      have hsame := htracks tracked htracked
      obtain ⟨hreported, -, -⟩ := Lane.progress_eq_some hprogress
      change (Tally.of found).Adds committed orderly (Tally.of
        (some (tracked.update (progress.held (registering events processed)) context.now)))
      rw [← hsame]
      refine ⟨?_, ?_, ?_, fun horderly => ?_, fun horderly event hevent => ?_,
        fun horderly first hhead => ?_⟩
      · change tracked.events + (progress.held _).events = _
        rw [Progress.held_events, hreported]
        rfl
      · change tracked.firstEventBlock.or (progress.held _).firstEventBlock = _
        rw [Progress.held_firstEventBlock, hreported]
        rfl
      · exact Nat.le_trans (Nat.le_max_left ..) (openAfter_max ..).ge
      · have hsorted := (hdrained.2 horderly).pending.1
        rw [hpending] at hsorted
        exact (List.pairwise_append.1 hsorted).1
      · refine (hdrained.2 horderly).above event (List.mem_append_left _ ?_)
        rw [hpending]
        exact List.mem_append_left _ hevent
      · refine Nat.le_trans ?_ (Nat.le_trans (Nat.le_max_right ..) (openAfter_max ..).ge)
        exact (hdrained.2 horderly).le_openAfter_held hpending hprogress hregistering hhead

/-- Whether the tracked checkpoints count what the stored ones do. -/
def Tallies (view : σ → Store) (pipeline : Pipeline σ) : Prop :=
  ∀ id tracked, pipeline.tracker.get? id = some tracked →
    Tally.of (some tracked) = (view pipeline.repo).tally id

theorem Tallies.congr (h : before.Tallies view) {after : Pipeline σ}
    (htracker : after.tracker = before.tracker)
    (hstored : (view after.repo).checkpoints = (view before.repo).checkpoints) :
    after.Tallies view := by
  intro id tracked htracked
  rw [Store.tally, hstored]
  exact h id tracked (htracker ▸ htracked)

/-- Checkpoints that are written are taken over by the tracker, too. -/
theorem Tallies.put (h : before.Tallies view) {after : Pipeline σ} {checkpoints : List Checkpoint}
    (htracker : after.tracker = before.tracker.replace checkpoints)
    (hstored : (view after.repo).checkpoints =
      Store.putCheckpoints (view before.repo).checkpoints checkpoints) :
    after.Tallies view := by
  intro id tracked htracked
  obtain ⟨found, -, hput⟩ := Store.get?_putCheckpoints checkpoints id
  have hget : found.or (before.tracker.get? id) = some tracked := by
    rw [← htracked, htracker]
    exact (hput before.tracker.checkpoints).symm
  rw [Store.tally, hstored, hput]
  cases hfound : found with
  | none =>
    rw [hfound, Option.none_or] at hget
    rw [Option.none_or]
    exact h id tracked hget
  | some checkpoint =>
    rw [hfound, Option.some_or] at hget
    rw [Option.some_or, hget]

theorem Step.tallies {status : PipelineStatus} {after : Pipeline σ}
    (h : Step context Repo.inMemory view before status after) (hbefore : before.Tallies view) :
    after.Tallies view := by
  cases h with
  | halted => exact hbefore
  | rested => exact hbefore.congr rfl rfl
  | ignored => exact hbefore.congr rfl rfl
  | lost => exact hbefore.congr rfl rfl
  | gaveUp _ _ _ hview => exact hbefore.congr rfl (congrArg Store.checkpoints hview)
  | idle _ _ hview => exact hbefore.congr rfl (congrArg Store.checkpoints hview)
  | committed _ _ _ hwrite hrestarts hprunes =>
    have hbooks := hrestarts.sameBooks
    refine hbefore.put hbooks.tracker (hprunes.checkpoints.trans ?_)
    rw [hbooks.view]
    exact congrArg Store.checkpoints (Repo.inMemory_commit_eq_ok hwrite)
  | rolledBack _ _ hwrite _ hrestarts =>
    have hbooks := hrestarts.sameBooks
    refine hbefore.put hbooks.tracker ?_
    rw [hbooks.view]
    exact congrArg Store.checkpoints (Prod.mk.inj hwrite).2.symm

namespace Leaves

variable {store : Store} {committed : List Event}

theorem chain_of_checkpoint (h : Leaves context Repo.inMemory view before store)
    (hkeyed : ∀ id checkpoint, (view before.repo).checkpoints.get? id = some checkpoint →
      checkpoint.chain = id) {checkpoint : Checkpoint}
    (hget : store.checkpoints.get? id = some checkpoint) : checkpoint.chain = id := by
  cases h with
  | same => exact hkeyed id checkpoint hget
  | committed _ hwrite =>
    rw [Repo.inMemory_commit_eq_ok hwrite] at hget
    exact Store.chain_of_get?_putCheckpoints hkeyed hget
  | rolledBack _ _ hwrite =>
    cases hwrite
    exact Store.chain_of_get?_putCheckpoints hkeyed hget

/-- However a step ends, the checkpoints of what it leaves count what was ever committed. -/
theorem counts (h : Leaves context Repo.inMemory view before store)
    (hbefore : before.Upholds context.config view (Standing.ClimbsIf orderly) fun _ => True)
    (htallies : before.Tallies view)
    (hclocked : orderly → context.config.mode = .ordered → ∀ reorg orderer,
      before.orderer.nextStep = (.reorg reorg, orderer) → (view before.repo).IsClocked reorg)
    (hcounts : (view before.repo).Counts id orderly (committed.filter (·.chain = id))) :
    store.Counts id orderly
      ((committed ++ store.addedSince (view before.repo)).filter (·.chain = id)) := by
  have hP := Standing.ClimbsIf.upheld orderly context.config.chains
  rw [List.filter_append]
  cases h with
  | same =>
    rw [Store.addedSince, List.drop_length, List.filter_nil, List.append_nil]
    exact hcounts
  | @committed events processed orderer store hstep hwrite =>
    obtain ⟨-, hgives, -⟩ := Orderer.nextStep_cases (hbefore.own hP) hstep
    have hadds := hbefore.commit_adds hgives processed (htallies id)
    rw [← hbefore.get?_commit hP hgives processed (view before.repo).checkpoints id] at hadds
    have hadded : ∀ unit : WriteUnit,
        ((view before.repo).write unit).addedSince (view before.repo) = unit.rawEvents :=
      fun _ => List.drop_left
    rw [Repo.inMemory_commit_eq_ok hwrite, hadded]
    exact hcounts.write hadds
  | @rolledBack reorg plan orderer store hstep hplan hwrite =>
    cases hwrite
    have hadded : ((view before.repo).applyRollback plan).addedSince (view before.repo) = [] :=
      List.drop_eq_nil_of_le (List.length_filter_le ..)
    rw [hadded, List.filter_nil, List.append_nil]
    exact hcounts.applyRollback (fun horderly hmode => hclocked horderly hmode reorg orderer hstep)
      (htallies id) hbefore.keyed hplan

end Leaves

end Pipeline

end ChainIndexer
