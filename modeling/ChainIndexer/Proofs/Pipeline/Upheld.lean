import ChainIndexer.Proofs.Fork.Settle
import ChainIndexer.Proofs.Pipeline.Steps

/-!
# What steps uphold of each chain

What holds of a lane, its fetcher and the checkpoints of its chain is shown chain by chain: it holds
of a new lane, and it is kept when the lane takes items, when it gives events away and reports, and
when a reorg is taken from it. A step of a pipeline over a store that may fail then upholds it of
all lanes, since it starts a new lane wherever it does anything else.
-/

namespace ChainIndexer

/-- What there is of a chain that has a lane. -/
structure Standing where
  lane : Lane
  task : FetcherTask
  tracked : Checkpoint
  stored : Option Checkpoint

/-- Whether the checkpoints of a store stand under their own chains, and something holds of each. -/
def Store.HoldsCheckpoints (store : Store) (T : Checkpoint → Prop) : Prop :=
  ∀ id checkpoint, store.checkpoints.get? id = some checkpoint →
    checkpoint.chain = id ∧ T checkpoint

variable {P : ChainId → Standing → Prop} {T : Checkpoint → Prop} {chains : List Chain}

/-- Whether what holds of the chains with lanes, and of all tracked checkpoints, is kept by all that
a pipeline does with them. -/
structure Upheld (chains : List Chain) (P : ChainId → Standing → Prop) (T : Checkpoint → Prop) :
    Prop where
  chain : ∀ {id standing}, P id standing → standing.lane.chain = id
  own : ∀ {id standing}, P id standing → ∀ event ∈ standing.lane.pending, event.chain = id
  drain : ∀ {id standing}, P id standing →
    P id { standing with lane := standing.lane.drainReady }
  takeReorg : ∀ {id standing}, P id standing →
    P id { standing with lane := standing.lane.takeReorg.2 }
  report : ∀ {id standing committed rest progress recorded lane}, P id standing →
    standing.lane.pending = committed ++ rest →
    Lane.progress { standing.lane with pending := rest } committed =
      (some (progress, recorded), lane) → ∀ now,
    P id ⟨lane, standing.task, standing.tracked.update progress now,
      some (standing.tracked.update progress now)⟩
  reported : ∀ {id standing committed rest progress recorded lane}, P id standing →
    standing.lane.pending = committed ++ rest →
    Lane.progress { standing.lane with pending := rest } committed =
      (some (progress, recorded), lane) → ∀ now (registering : Option Event),
    (∀ event ∈ registering, event.chain = id → committed.getLast? = some event) →
    T (standing.tracked.update (progress.held registering) now)
  rewind : ∀ {checkpoint}, T checkpoint → ∀ block, T (checkpoint.rewind block)
  start : ∀ {chain checkpoint}, chain ∈ chains → T checkpoint →
    ∀ settings window generation clock depth stored,
    P chain.id ⟨.start chain.id depth,
      .start (.start chain checkpoint window settings) generation clock, checkpoint, stored⟩

namespace Pipeline

variable {σ : Type} {context : PipelineContext σ} {view : σ → Store}
  {before after : Pipeline σ} {id : ChainId}

/-- What there is of a chain in a pipeline, given its lane. -/
def StandsOf (pipeline : Pipeline σ) (view : σ → Store) (P : ChainId → Standing → Prop)
    (id : ChainId) (lane : Lane) : Prop :=
  ∃ task tracked, pipeline.tasks.get? id = some task ∧ pipeline.tracker.get? id = some tracked ∧
    P id ⟨lane, task, tracked, (view pipeline.repo).checkpoints.get? id⟩

/-- Whether exactly the configured chains that were not left behind have lanes, and what is upheld
holds of each of them. -/
structure Upholds (pipeline : Pipeline σ) (config : Config) (view : σ → Store)
    (P : ChainId → Standing → Prop) (T : Checkpoint → Prop) : Prop where
  mode : pipeline.orderer.mode = config.mode
  keyed : pipeline.tracker.Keyed
  sane : ∀ id checkpoint, pipeline.tracker.get? id = some checkpoint → T checkpoint
  nodup : pipeline.degraded.Nodup
  lanes : ∀ id, (pipeline.orderer.lanes.get? id).isSome = true ↔
    (∃ chain ∈ config.chains, chain.id = id) ∧ id ∉ pipeline.degraded
  stands : ∀ id lane, pipeline.orderer.lanes.get? id = some lane → pipeline.StandsOf view P id lane

/-! ### Fetchers -/

/-- Fetchers that start anew bring new lanes, and all other lanes stay. -/
theorem Restarts.upholds {ids : List ChainId} (h : Restarts context view ids before after)
    (hP : Upheld context.config.chains P T) (hmode : before.orderer.mode = context.config.mode)
    (hkeyed : before.tracker.Keyed)
    (hsane : ∀ id checkpoint, before.tracker.get? id = some checkpoint → T checkpoint)
    (hnodup : before.degraded.Nodup)
    (hlanes : ∀ id, ((before.orderer.lanes.get? id).isSome = true ∨ id ∈ ids) ↔
      (∃ chain ∈ context.config.chains, chain.id = id) ∧ id ∉ before.degraded)
    (htracked : ∀ id ∈ ids, ∃ checkpoint, before.tracker.get? id = some checkpoint)
    (hstands : ∀ id lane, id ∉ ids → before.orderer.lanes.get? id = some lane →
      before.StandsOf view P id lane) :
    after.Upholds context.config view P T := by
  have hbooks := h.sameBooks
  have hstarted : ∀ id ∈ ids, ∃ found checkpoint window generation,
      found ∈ context.config.chains ∧ found.id = id ∧
      before.tracker.get? id = some checkpoint ∧
      after.orderer.lanes.get? id =
        some (.start id (FetchSettings.ofConfig context.config).queueDepth) ∧
      after.tasks.get? id = some
        (.start (.start found checkpoint window (.ofConfig context.config)) generation
          context.clock) := by
    intro id hid
    obtain ⟨-, -, hnone⟩ | hstarted := h.cases_of_mem hid
    · obtain ⟨chain, hchain, hchainId⟩ := ((hlanes id).1 (Or.inr hid)).1
      obtain ⟨checkpoint, hcheckpoint⟩ := htracked id hid
      rw [hcheckpoint, List.find?_eq_none] at hnone
      rcases hnone with hunknown | hnone
      · exact absurd (decide_eq_true hchainId) (hunknown chain hchain)
      · cases hnone
    · exact hstarted
  refine ⟨hbooks.mode.trans hmode, ?_, ?_, ?_, fun id => ?_, fun id lane hlane => ?_⟩
  · rw [hbooks.tracker]
    exact hkeyed
  · rw [hbooks.tracker]
    exact hsane
  · rw [hbooks.degraded]
    exact hnodup
  · rw [hbooks.degraded, ← hlanes id]
    by_cases hid : id ∈ ids
    · obtain ⟨_, _, _, _, -, -, -, hlane, -⟩ := hstarted id hid
      rw [hlane]
      simp [hid]
    · rw [(h.of_not_mem hid).1]
      simp [hid]
  · by_cases hid : id ∈ ids
    · obtain ⟨found, checkpoint, window, generation, hfound, rfl, hcheckpoint, hnew, htask⟩ :=
        hstarted id hid
      rw [hlane] at hnew
      cases hnew
      refine ⟨_, checkpoint, htask, ?_, ?_⟩
      · rw [hbooks.tracker]
        exact hcheckpoint
      · exact hP.start hfound (hsane _ _ hcheckpoint) ..
    · obtain ⟨hkept, htasks⟩ := h.of_not_mem hid
      rw [hkept] at hlane
      obtain ⟨task, tracked, htask, htracked, hholds⟩ := hstands id lane hid hlane
      refine ⟨task, tracked, htasks.trans htask, ?_, ?_⟩
      · rw [hbooks.tracker]
        exact htracked
      · rw [hbooks.view]
        exact hholds

/-! ### Lanes between steps -/

theorem Upholds.own {config : Config} (h : before.Upholds config view P T)
    (hP : Upheld config.chains P T) : before.orderer.drain.Own := by
  intro id lane hlane event hevent
  rw [Orderer.get?_drain, Option.map_eq_some_iff] at hlane
  obtain ⟨lane, hbefore, rfl⟩ := hlane
  obtain ⟨task, tracked, -, -, hholds⟩ := h.stands id lane hbefore
  exact hP.own (hP.drain hholds) event hevent

/-- A lane that gives no events away has only taken items. -/
theorem get?_of_gives_nil {orderer : Orderer} {events : List Event}
    (hgives : before.orderer.drain.Gives orderer events)
    (hnil : events.filter (·.chain = id) = []) :
    orderer.lanes.get? id = (before.orderer.lanes.get? id).map Lane.drainReady := by
  have hid := hgives id
  rw [hnil, Orderer.get?_drain] at hid
  generalize (before.orderer.lanes.get? id).map Lane.drainReady = drained at hid ⊢
  generalize orderer.lanes.get? id = left at hid ⊢
  cases hid with
  | absent => rfl
  | lane hpending =>
    rw [List.nil_append] at hpending
    rw [← hpending]

theorem get?_of_served {orderer : Orderer} {events : List Event} {served : ChainId}
    (hgives : before.orderer.drain.Gives orderer events)
    (hserved : ∀ event ∈ events, event.chain = served) (hother : id ≠ served) :
    orderer.lanes.get? id = (before.orderer.lanes.get? id).map Lane.drainReady :=
  get?_of_gives_nil hgives (filter_chain_eq_nil hserved hother)

/-- A pipeline that only takes items from its queues upholds the same. -/
theorem Upholds.drained (h : before.Upholds context.config view P T)
    (hP : Upheld context.config.chains P T) {orderer : Orderer}
    (hmode : orderer.mode = before.orderer.mode) (hgives : before.orderer.drain.Gives orderer []) :
    { before with orderer := orderer }.Upholds context.config view P T := by
  have hlane : ∀ id, orderer.lanes.get? id =
      (before.orderer.lanes.get? id).map Lane.drainReady := fun _ =>
    get?_of_gives_nil hgives List.filter_nil
  refine ⟨hmode.trans h.mode, h.keyed, h.sane, h.nodup, fun id => ?_, fun id lane hget => ?_⟩
  · dsimp only
    rw [hlane, Option.isSome_map]
    exact h.lanes id
  · dsimp only at hget
    rw [hlane, Option.map_eq_some_iff] at hget
    obtain ⟨lane, hbefore, rfl⟩ := hget
    obtain ⟨task, tracked, htask, htracked, hholds⟩ := h.stands id lane hbefore
    exact ⟨task, tracked, htask, htracked, hP.drain hholds⟩

/-- A chain that is left behind has no lane any more. -/
theorem upholds_degrade (hmode : before.orderer.mode = context.config.mode)
    (hkeyed : before.tracker.Keyed)
    (hsane : ∀ id checkpoint, before.tracker.get? id = some checkpoint → T checkpoint)
    (hnodup : before.degraded.Nodup)
    (hlanes : ∀ id, (before.orderer.lanes.get? id).isSome = true ↔
      (∃ chain ∈ context.config.chains, chain.id = id) ∧ id ∉ before.degraded)
    (hstands : ∀ other lane, other ≠ id → before.orderer.lanes.get? other = some lane →
      before.StandsOf view P other lane) :
    (degrade id before).Upholds context.config view P T := by
  have hlane : ∀ other, (degrade id before).orderer.lanes.get? other =
      if other = id then none else before.orderer.lanes.get? other := fun other =>
    Table.get?_erase ..
  have hdegraded : ∀ other, other ∈ (degrade id before).degraded ↔
      other ∈ before.degraded ∨ other = id := by
    intro other
    change other ∈ (if id ∈ before.degraded then _ else _) ↔ _
    split
    next hmem =>
      refine (or_iff_left_of_imp ?_).symm
      rintro rfl
      exact hmem
    next => rw [List.mem_append, List.mem_singleton]
  refine ⟨hmode, hkeyed, hsane, ?_, fun other => ?_, fun other lane hget => ?_⟩
  · change (if id ∈ before.degraded then _ else _ : List ChainId).Nodup
    split
    next => exact hnodup
    next hnew => exact hnodup.append (List.nodup_singleton id) (List.disjoint_singleton.2 hnew)
  · rw [hlane, hdegraded]
    by_cases heq : other = id
    · simp [heq]
    · rw [if_neg heq, hlanes other, or_iff_left heq]
  · rw [hlane, Option.ite_none_left_eq_some] at hget
    obtain ⟨task, tracked, htask, htracked, hholds⟩ := hstands other lane hget.1 hget.2
    exact ⟨task, tracked, (Table.get?_erase ..).trans ((if_neg hget.1).trans htask), htracked,
      hholds⟩

/-! ### Units -/

variable {events : List Event} {processed : ProcessedUnit} {orderer : Orderer}

/-- A lane reports with the events of its chain that are committed, and has the others back. -/
theorem get?_report (hgives : before.orderer.drain.Gives orderer events)
    (processed : ProcessedUnit) (id : ChainId) :
    (before.orderer.lanes.get? id = none ∧
      (orderer.restore (events.drop processed.applied)).lanes.get? id = none) ∨
    ∃ lane rest, before.orderer.lanes.get? id = some lane ∧
      lane.drainReady.pending =
        ((events.take processed.applied).filter fun event => event.chain = id) ++ rest ∧
      (orderer.restore (events.drop processed.applied)).lanes.get? id =
        some { lane.drainReady with pending := rest } := by
  have hid := hgives id
  rw [Orderer.get?_drain] at hid
  rw [Orderer.get?_restore]
  cases hlane : before.orderer.lanes.get? id with
  | none =>
    rw [hlane] at hid
    generalize orderer.lanes.get? id = after at hid ⊢
    cases hid
    exact Or.inl ⟨rfl, rfl⟩
  | some lane =>
    rw [hlane] at hid
    generalize orderer.lanes.get? id = after at hid ⊢
    cases hid with
    | @lane _ rest hpending =>
      refine Or.inr ⟨lane, (events.drop processed.applied).filter (·.chain = id) ++ rest, rfl, ?_,
        rfl⟩
      rw [hpending, ← List.append_assoc, ← List.filter_append, List.take_append_drop]

theorem events_of_no_lane (hlane : before.orderer.lanes.get? id = none)
    (hgives : before.orderer.drain.Gives orderer events) : events.filter (·.chain = id) = [] := by
  have hid := hgives id
  rw [Orderer.get?_drain, hlane] at hid
  generalize orderer.lanes.get? id = left at hid
  cases hid with
  | absent hnil => exact hnil

/-- A report leaves every lane in its place. -/
theorem isSome_report (hgives : before.orderer.drain.Gives orderer events)
    (processed : ProcessedUnit) (id : ChainId) :
    ((report orderer events processed).2.2.lanes.get? id).isSome =
      (before.orderer.lanes.get? id).isSome := by
  rw [report, Orderer.get?_progress, Option.isSome_map]
  obtain ⟨hnone, hafter⟩ | ⟨lane, rest, hlane, -, hafter⟩ := get?_report hgives processed id
  · rw [hnone, hafter]
  · rw [hlane, hafter]
    rfl

theorem registering_mem {event : Event} (h : event ∈ registering events processed) :
    (events.take processed.applied).getLast? = some event := by
  rw [registering] at h
  split at h
  next => cases h
  next => exact h

/-- The checkpoint that a chain gets when a unit is stored, if its lane reports. -/
def checkpoint? (context : PipelineContext σ) (pipeline : Pipeline σ) (orderer : Orderer)
    (events : List Event) (processed : ProcessedUnit) (id : ChainId) : Option Checkpoint :=
  (orderer.restore (events.drop processed.applied)).checkpoint? (events.take processed.applied)
    (registering events processed) pipeline.tracker context.now id

/-- A lane whose chain gets no checkpoint has only taken items; the others report. -/
theorem Upholds.report_cases (h : before.Upholds context.config view P T)
    (hP : Upheld context.config.chains P T) (hgives : before.orderer.drain.Gives orderer events)
    {after : Lane} (hlane : (report orderer events processed).2.2.lanes.get? id = some after) :
    ∃ lane task tracked, before.orderer.lanes.get? id = some lane ∧
      before.tasks.get? id = some task ∧ before.tracker.get? id = some tracked ∧
      P id ⟨lane.drainReady, task, tracked, (view before.repo).checkpoints.get? id⟩ ∧
      ((after = lane.drainReady ∧ checkpoint? context before orderer events processed id = none) ∨
        ∃ committed rest progress recorded,
          committed = (events.take processed.applied).filter (·.chain = id) ∧
          lane.drainReady.pending = committed ++ rest ∧
          Lane.progress { lane.drainReady with pending := rest } committed =
            (some (progress, recorded), after) ∧
          progress.chain = id ∧
          checkpoint? context before orderer events processed id =
            some (tracked.update (progress.held (registering events processed)) context.now)) := by
  rw [report, Orderer.get?_progress, Option.map_eq_some_iff] at hlane
  obtain ⟨restored, hrestored, hafter⟩ := hlane
  obtain ⟨-, hnone⟩ | ⟨lane, rest, hbefore, hpending, hgot⟩ := get?_report hgives processed id
  · rw [hnone] at hrestored
    cases hrestored
  rw [hgot] at hrestored
  cases hrestored
  obtain ⟨task, tracked, htask, htracked, hholds⟩ := h.stands id lane hbefore
  refine ⟨lane, task, tracked, hbefore, htask, htracked, hP.drain hholds, ?_⟩
  rw [checkpoint?, Orderer.checkpoint?, Orderer.report?, hgot, Option.bind_some, htracked]
  cases hprogress : Lane.progress { lane.drainReady with pending := rest }
      ((events.take processed.applied).filter (·.chain = id)) with
  | mk report reported =>
    rw [hprogress] at hafter
    cases hafter
    cases report with
    | none =>
      refine Or.inl ⟨?_, rfl⟩
      obtain ⟨hcommitted, hsame⟩ := Lane.progress_eq_none hprogress
      rw [hcommitted, List.nil_append] at hpending
      rw [hsame, ← hpending]
    | some report =>
      obtain ⟨progress, recorded⟩ := report
      refine Or.inr ⟨_, rest, progress, recorded, rfl, hpending, hprogress, ?_, rfl⟩
      exact (Lane.reports_progress hprogress).1.trans (hP.chain (hP.drain hholds))

/-- What becomes of checkpoints when a unit is stored. -/
theorem Upholds.get?_commit (h : before.Upholds context.config view P T)
    (hP : Upheld context.config.chains P T) (hgives : before.orderer.drain.Gives orderer events)
    (processed : ProcessedUnit) (table : Table ChainId Checkpoint) (id : ChainId) :
    (Store.putCheckpoints table
        ({ before with orderer := orderer }.unitOf context.now events processed).checkpoints).get?
          id =
      (checkpoint? context before orderer events processed id).or (table.get? id) := by
  refine Orderer.get?_insertAll_updated table h.keyed (fun id lane hlane => ?_) _ _
  obtain ⟨-, hnone⟩ | ⟨before, rest, hbefore, -, hafter⟩ := get?_report hgives processed id
  · rw [hnone] at hlane
    cases hlane
  · rw [hafter] at hlane
    cases hlane
    obtain ⟨task, tracked, -, -, hholds⟩ := h.stands id before hbefore
    exact hP.chain (hP.drain hholds)

theorem Progress.held_of_ne {registering : Option Event} {progress : Progress}
    (h : ∀ event ∈ registering, progress.chain ≠ event.chain) :
    progress.held registering = progress := by
  cases registering with
  | none => rfl
  | some event =>
    rw [Progress.held, Option.elim_some, Progress.holdBefore, if_neg (h event rfl)]

/-- What is upheld of the chains with lanes once a unit is stored, but for the chain that is fetched
anew. -/
theorem Upholds.stands_commit (h : before.Upholds context.config view P T)
    (hP : Upheld context.config.chains P T) (hgives : before.orderer.drain.Gives orderer events)
    {unit : WriteUnit}
    (hunit : unit = { before with orderer := orderer }.unitOf context.now events processed)
    {middle : Pipeline σ} (htasks : middle.tasks = before.tasks)
    (htracker : middle.tracker = before.tracker.replace unit.checkpoints)
    (hstored : (view middle.repo).checkpoints =
      Store.putCheckpoints (view before.repo).checkpoints unit.checkpoints)
    {lane : Lane} (hlane : (report orderer events processed).2.2.lanes.get? id = some lane)
    (hother : ∀ event ∈ registering events processed, event.chain ≠ id) :
    middle.StandsOf view P id lane := by
  subst hunit
  obtain ⟨old, task, tracked, -, htask, htracked, hholds, hcases⟩ := h.report_cases hP hgives hlane
  have hnow := h.get?_commit hP hgives processed before.tracker.checkpoints id
  have hthen := h.get?_commit hP hgives processed (view before.repo).checkpoints id
  rcases hcases with ⟨rfl, hnone⟩ |
    ⟨committed, rest, progress, recorded, -, hpending, hprogress, hchain, hsome⟩
  · rw [hnone, Option.none_or] at hnow hthen
    refine ⟨task, tracked, htasks ▸ htask, ?_, ?_⟩
    · rw [htracker]
      exact hnow.trans htracked
    · rw [hstored, hthen]
      exact hholds
  · have hheld : progress.held (registering events processed) = progress :=
      Progress.held_of_ne fun event hevent heq => hother event hevent (heq.symm.trans hchain)
    rw [hsome, Option.some_or, hheld] at hnow hthen
    refine ⟨task, tracked.update progress context.now, htasks ▸ htask, ?_, ?_⟩
    · rw [htracker]
      exact hnow
    · rw [hstored, hthen]
      exact hP.report hholds hpending hprogress _

theorem Upholds.sane_commit (h : before.Upholds context.config view P T)
    (hP : Upheld context.config.chains P T) (hgives : before.orderer.drain.Gives orderer events)
    {checkpoint : Checkpoint}
    (hget : (before.tracker.replace ({ before with orderer := orderer }.unitOf context.now events
      processed).checkpoints).get? id = some checkpoint) : T checkpoint := by
  have hnow := h.get?_commit hP hgives processed before.tracker.checkpoints id
  rw [Tracker.get?, Tracker.replace] at hget
  rw [Store.putCheckpoints, hget, eq_comm, Option.or_eq_some_iff] at hnow
  rcases hnow with hnew | ⟨-, hold⟩
  · have hlane : ∃ lane, (report orderer events processed).2.2.lanes.get? id = some lane := by
      rw [checkpoint?, Orderer.checkpoint?, Orderer.report?] at hnew
      obtain ⟨progress, hprogress, -⟩ := Option.bind_eq_some_iff.1 hnew
      obtain ⟨lane, hlane, -⟩ := Option.bind_eq_some_iff.1 hprogress
      exact ⟨_, by rw [report, Orderer.get?_progress, hlane, Option.map_some]⟩
    obtain ⟨lane, hlane⟩ := hlane
    obtain ⟨old, task, tracked, -, -, -, hholds, ⟨-, hnone⟩ |
      ⟨committed, rest, progress, recorded, hcommitted, hpending, hprogress, hchain, hsome⟩⟩ :=
        h.report_cases hP hgives hlane
    · rw [hnone] at hnew
      cases hnew
    · rw [hsome] at hnew
      cases hnew
      refine hP.reported hholds hpending hprogress _ _ fun event hevent heq => ?_
      obtain ⟨earlier, hearlier⟩ := List.getLast?_eq_some_iff.1 (registering_mem hevent)
      rw [hcommitted, hearlier, List.filter_append, List.filter_singleton, decide_eq_true heq]
      exact List.getLast?_concat ..
  · exact h.sane id checkpoint hold

/-- A commit upholds the same, with a new lane for the chain of a registering event. -/
theorem Upholds.committed (h : before.Upholds context.config view P T)
    (hP : Upheld context.config.chains P T) (hmode : orderer.mode = before.orderer.mode)
    (hgives : before.orderer.drain.Gives orderer events) {unit : WriteUnit}
    (hunit : unit = { before with orderer := orderer }.unitOf context.now events processed)
    {middle : Pipeline σ} (horderer : middle.orderer = (report orderer events processed).2.2)
    (htasks : middle.tasks = before.tasks) (hdegraded : middle.degraded = before.degraded)
    (htracker : middle.tracker = before.tracker.replace unit.checkpoints)
    (hstored : (view middle.repo).checkpoints =
      Store.putCheckpoints (view before.repo).checkpoints unit.checkpoints)
    (hrestarts : Restarts context view ((registering events processed).toList.map (·.chain)) middle
      after) :
    after.Upholds context.config view P T := by
  have hisSome : ∀ id, (middle.orderer.lanes.get? id).isSome =
      (before.orderer.lanes.get? id).isSome := by
    intro id
    rw [horderer]
    exact isSome_report hgives processed id
  have hregistering : ∀ id ∈ (registering events processed).toList.map (·.chain),
      ∃ lane, before.orderer.lanes.get? id = some lane := by
    intro id hid
    obtain ⟨event, hevent, rfl⟩ := List.mem_map.1 hid
    have hmem := List.mem_of_getLast? (registering_mem (Option.mem_toList.1 hevent))
    obtain ⟨hnone, -⟩ | ⟨lane, rest, hlane, -, -⟩ :=
      get?_report hgives processed event.chain
    · exact absurd (decide_eq_true rfl) (List.filter_eq_nil_iff.1 (events_of_no_lane hnone hgives)
        event (List.mem_of_mem_take hmem))
    · exact ⟨lane, hlane⟩
  refine hrestarts.upholds hP ?_ ?_ ?_ ?_ (fun id => ?_) (fun id hid => ?_)
    fun id lane hid hlane => ?_
  · rw [horderer]
    exact hmode.trans h.mode
  · rw [htracker]
    exact fun _ _ hget => Store.chain_of_get?_putCheckpoints h.keyed hget
  · rw [htracker, hunit]
    exact fun _ _ hget => h.sane_commit hP hgives hget
  · rw [hdegraded]
    exact h.nodup
  · rw [hisSome, hdegraded, ← h.lanes id]
    refine or_iff_left_of_imp fun hid => ?_
    obtain ⟨lane, hlane⟩ := hregistering id hid
    rw [hlane]
    rfl
  · obtain ⟨lane, hlane⟩ := hregistering id hid
    obtain ⟨task, tracked, -, htracked, -⟩ := h.stands id lane hlane
    rw [htracker]
    exact Store.exists_get?_putCheckpoints _ htracked
  · rw [horderer] at hlane
    refine h.stands_commit hP hgives hunit htasks htracker hstored hlane fun event hevent heq => ?_
    exact hid (List.mem_map.2 ⟨event, Option.mem_toList.2 hevent, heq⟩)

/-! ### Reorgs -/

theorem mem_of_replace {tracker : Tracker} {checkpoints : List Checkpoint} {checkpoint : Checkpoint}
    (h : (tracker.replace checkpoints).get? id = some checkpoint) :
    checkpoint ∈ checkpoints ∨ tracker.get? id = some checkpoint := by
  refine (Table.mem_of_get?_insertAll h).imp_left fun hnew => ?_
  obtain ⟨found, hfound, heq⟩ := List.mem_map.1 hnew
  cases heq
  exact hfound

theorem mem_rewound_chain {tracker : Tracker} (hkeyed : tracker.Keyed) {rewinds : List Rewind}
    (h : id ∈ ((tracker.rewound rewinds).map fun checkpoint => (checkpoint.chain, checkpoint)).map
      (·.1)) : id ∈ rewinds.map (·.chain) := by
  rw [List.map_map] at h
  exact (Tracker.rewound_chains_sublist hkeyed rewinds).subset h

theorem Upholds.sane_rewound (h : before.Upholds context.config view P T)
    (hP : Upheld context.config.chains P T) {plan : RollbackPlan}
    (hcheckpoints : plan.checkpoints = before.tracker.rewound plan.rewinds)
    {checkpoint : Checkpoint} (hmem : checkpoint ∈ plan.checkpoints) : T checkpoint := by
  rw [hcheckpoints] at hmem
  obtain ⟨rewind, -, hrewind⟩ := List.mem_filterMap.1 hmem
  obtain ⟨tracked, htracked, rfl⟩ := Option.map_eq_some_iff.1 hrewind
  exact hP.rewind (h.sane _ _ htracked) _

/-- A lane upholds what it did before a reorg was taken from it or from another one. -/
theorem lane_takeReorg {chains : List Chain} (hP : Upheld chains P T) {reorged : ChainId}
    (hstep : orderer = before.orderer.drain.changeLane reorged fun lane => lane.takeReorg.2)
    {lane : Lane} (hget : orderer.lanes.get? id = some lane) :
    ∃ old, before.orderer.lanes.get? id = some old ∧ ∀ task tracked stored,
      P id ⟨old, task, tracked, stored⟩ → P id ⟨lane, task, tracked, stored⟩ := by
  rw [hstep, Orderer.changeLane, Table.get?_modify] at hget
  split at hget
  next heq =>
    obtain ⟨drained, hdrained, rfl⟩ := Option.map_eq_some_iff.1 hget
    rw [Orderer.get?_drain, Option.map_eq_some_iff] at hdrained
    obtain ⟨old, hold, rfl⟩ := hdrained
    exact ⟨old, heq ▸ hold, fun _ _ _ hholds => hP.takeReorg (hP.drain hholds)⟩
  next =>
    rw [Orderer.get?_drain, Option.map_eq_some_iff] at hget
    obtain ⟨old, hold, rfl⟩ := hget
    exact ⟨old, hold, fun _ _ _ hholds => hP.drain hholds⟩

theorem isSome_takeReorg {reorged : ChainId}
    (hstep : orderer = before.orderer.drain.changeLane reorged fun lane => lane.takeReorg.2)
    (id : ChainId) :
    (orderer.lanes.get? id).isSome = (before.orderer.lanes.get? id).isSome := by
  rw [hstep, Orderer.changeLane, Table.get?_modify]
  split
  next heq => rw [Option.isSome_map, Orderer.get?_drain, Option.isSome_map, heq]
  next => rw [Orderer.get?_drain, Option.isSome_map]

/-- A rollback upholds the same, with new lanes for the chains that it moves back. -/
theorem Upholds.rolledBack (h : before.Upholds context.config view P T)
    (hP : Upheld context.config.chains P T) {reorged : ChainId} {reorg : Reorg}
    (hstep : orderer = before.orderer.drain.changeLane reorged fun lane => lane.takeReorg.2)
    {store after' : Store} {plan : RollbackPlan}
    (hplan : RollbackPlan.make Repo.inMemory context.config.mode reorg before.tracker store =
      (.ok plan, after'))
    {middle : Pipeline σ} (horderer : middle.orderer = orderer)
    (htasks : middle.tasks = before.tasks) (hdegraded : middle.degraded = before.degraded)
    (htracker : middle.tracker = before.tracker.replace plan.checkpoints)
    (hstored : (view middle.repo).checkpoints =
      Store.putCheckpoints (view before.repo).checkpoints plan.checkpoints)
    (hrestarts : Restarts context view ((plan.rewinds.map (·.chain)).filter orderer.hasLane) middle
      after) :
    after.Upholds context.config view P T := by
  obtain ⟨-, -, hcheckpoints⟩ := RollbackPlan.eq_of_make hplan
  have hisSome := isSome_takeReorg hstep
  have hrewound : ∀ id ∈ (plan.rewinds.map (·.chain)).filter orderer.hasLane,
      ∃ lane, orderer.lanes.get? id = some lane := fun id hid =>
    Option.isSome_iff_exists.1 (List.mem_filter.1 hid).2
  refine hrestarts.upholds hP ?_ ?_ ?_ ?_ (fun id => ?_) (fun id hid => ?_)
    fun id lane hid hget => ?_
  · rw [horderer, hstep]
    exact h.mode
  · rw [htracker]
    exact fun _ _ hget => Store.chain_of_get?_putCheckpoints h.keyed hget
  · rw [htracker]
    intro id checkpoint hget
    rcases mem_of_replace hget with hnew | hold
    · exact h.sane_rewound hP hcheckpoints hnew
    · exact h.sane id checkpoint hold
  · rw [hdegraded]
    exact h.nodup
  · rw [horderer, hisSome, hdegraded, ← h.lanes id]
    refine or_iff_left_of_imp fun hid => ?_
    obtain ⟨lane, hget⟩ := hrewound id hid
    rw [← hisSome, hget]
    rfl
  · obtain ⟨lane, hget⟩ := hrewound id hid
    obtain ⟨old, hold, -⟩ := lane_takeReorg hP hstep hget
    obtain ⟨task, tracked, -, htracked, -⟩ := h.stands id old hold
    rw [htracker]
    exact Store.exists_get?_putCheckpoints _ htracked
  · rw [horderer] at hget
    obtain ⟨old, hold, hkept⟩ := lane_takeReorg hP hstep hget
    obtain ⟨task, tracked, htask, htracked, hholds⟩ := h.stands id old hold
    -- The chain is not moved back, so its checkpoints stay.
    have hnot : id ∉ (plan.checkpoints.map fun checkpoint => (checkpoint.chain, checkpoint)).map
        (·.1) := by
      rw [hcheckpoints]
      intro hmem
      refine hid (List.mem_filter.2 ⟨mem_rewound_chain h.keyed hmem, ?_⟩)
      rw [Orderer.hasLane, Table.contains, hget]
      rfl
    refine ⟨task, tracked, htasks ▸ htask, ?_, ?_⟩
    · rw [htracker]
      exact (Table.get?_insertAll_of_not_mem hnot).trans htracked
    · rw [hstored, Store.putCheckpoints, Table.get?_insertAll_of_not_mem hnot]
      exact hkept _ _ _ hholds

/-! ### Steps -/

theorem Prunes.checkpoints {ids : List ChainId} {store pruned : Store}
    (h : Prunes Repo.inMemory ids store pruned) : pruned.checkpoints = store.checkpoints := by
  induction h with
  | nil => rfl
  | skip _ ih => exact ih
  | prune hprune _ ih =>
    cases hprune
    exact ih

theorem upholds_congr {pipeline : Pipeline σ} (h : before.Upholds context.config view P T)
    (horderer : pipeline.orderer = before.orderer) (htasks : pipeline.tasks = before.tasks)
    (htracker : pipeline.tracker = before.tracker) (hdegraded : pipeline.degraded = before.degraded)
    (hstored : (view pipeline.repo).checkpoints = (view before.repo).checkpoints) :
    pipeline.Upholds context.config view P T := by
  refine ⟨?_, ?_, ?_, ?_, ?_, fun id lane hlane => ?_⟩
  · rw [horderer]
    exact h.mode
  · rw [htracker]
    exact h.keyed
  · rw [htracker]
    exact h.sane
  · rw [hdegraded]
    exact h.nodup
  · rw [horderer, hdegraded]
    exact h.lanes
  · rw [horderer] at hlane
    obtain ⟨task, tracked, htask, htracked, hholds⟩ := h.stands id lane hlane
    refine ⟨task, tracked, htasks ▸ htask, htracker ▸ htracked, ?_⟩
    rw [hstored]
    exact hholds

theorem Upholds.idle (h : before.Upholds context.config view P T)
    (hP : Upheld context.config.chains P T) (hmode : orderer.mode = before.orderer.mode)
    (hgives : before.orderer.drain.Gives orderer events)
    (hempty : ({ before with orderer := orderer }.unitOf context.now events processed).isEmpty =
      true) :
    { before with orderer := (report orderer events processed).2.2 }.Upholds context.config view P
      T := by
  simp only [WriteUnit.isEmpty, Bool.and_eq_true, List.isEmpty_iff] at hempty
  have hnone : ∀ id, checkpoint? context before orderer events processed id = none := by
    intro id
    have hnow := h.get?_commit hP hgives processed .empty id
    rw [hempty.1.2] at hnow
    exact (Option.or_eq_none_iff.1 hnow.symm).1
  have hlane : ∀ id lane, (report orderer events processed).2.2.lanes.get? id = some lane →
      ∃ old, before.orderer.lanes.get? id = some old ∧ lane = old.drainReady := by
    intro id lane hget
    obtain ⟨old, task, tracked, hold, -, -, -, ⟨heq, -⟩ | ⟨_, _, _, _, -, -, -, -, hsome⟩⟩ :=
      h.report_cases hP hgives hget
    · exact ⟨old, hold, heq⟩
    · rw [hnone] at hsome
      cases hsome
  refine ⟨hmode.trans h.mode, h.keyed, h.sane, h.nodup, fun id => ?_, fun id lane hget => ?_⟩
  · rw [← h.lanes id, isSome_report hgives processed id]
  · obtain ⟨old, hold, rfl⟩ := hlane id lane hget
    obtain ⟨task, tracked, htask, htracked, hholds⟩ := h.stands id old hold
    exact ⟨task, tracked, htask, htracked, hP.drain hholds⟩

theorem isSome_of_gives (hgives : before.orderer.drain.Gives orderer events) (id : ChainId) :
    (orderer.lanes.get? id).isSome = (before.orderer.lanes.get? id).isSome := by
  have hgive := hgives id
  rw [Orderer.get?_drain] at hgive
  generalize before.orderer.lanes.get? id = found at hgive ⊢
  generalize orderer.lanes.get? id = left at hgive ⊢
  cases found with
  | none =>
    cases hgive
    rfl
  | some lane =>
    cases hgive
    rfl

/-- Nothing is lost with what an orderer tells of a failure. -/
theorem Upholds.told (h : before.Upholds context.config view P T)
    (hP : Upheld context.config.chains P T) {failure : ChainFailure}
    (htells : before.orderer.TellsOf failure orderer) :
    { before with orderer := orderer }.Upholds context.config view P T := by
  obtain hstep | ⟨rest, -, rfl⟩ := htells
  · obtain ⟨hmode, hgives⟩ := Orderer.nextStep_cases (h.own hP) hstep
    exact h.drained hP hmode hgives
  · exact ⟨h.mode, h.keyed, h.sane, h.nodup, h.lanes, h.stands⟩

/-- A unit that is given up is of one chain only, and what is upheld of the others stays. -/
theorem Upholds.gaveUp (h : before.Upholds context.config view P T)
    (hP : Upheld context.config.chains P T) (hmode : context.config.mode = .unordered)
    (hstep : before.orderer.nextStep = (.unit events, orderer)) {event : Event}
    (hevent : event ∈ events) {repo : σ} {notes : List Json}
    (hview : view repo = view before.repo) :
    (degrade event.chain
      { before with orderer := orderer, repo := repo, notes := notes }).Upholds context.config view
        P T := by
  obtain ⟨hsame, hgives, hturns⟩ := Orderer.nextStep_cases (h.own hP) hstep
  obtain ⟨served, hserved⟩ := hturns (h.mode.trans hmode)
  refine upholds_degrade (hsame.trans h.mode) h.keyed h.sane h.nodup (fun id => ?_)
    fun other lane hother hget => ?_
  · rw [← h.lanes id, ← isSome_of_gives hgives id]
  · have hlane := get?_of_served hgives hserved (hserved event hevent ▸ hother)
    dsimp only at hget
    rw [hlane, Option.map_eq_some_iff] at hget
    obtain ⟨old, hold, rfl⟩ := hget
    obtain ⟨task, tracked, htask, htracked, hholds⟩ := h.stands other old hold
    refine ⟨task, tracked, htask, htracked, ?_⟩
    dsimp only
    rw [hview]
    exact hP.drain hholds

/-- Every step upholds what is upheld of the chains with lanes. -/
theorem Step.upholds {status : PipelineStatus}
    (h : Step context Repo.inMemory view before status after)
    (hbefore : before.Upholds context.config view P T) (hP : Upheld context.config.chains P T) :
    after.Upholds context.config view P T := by
  have hown := hbefore.own hP
  cases h with
  | halted => exact hbefore
  | @rested step orderer status hstep hrest =>
    obtain ⟨hmode, hgives⟩ := Orderer.nextStep_cases hown hstep
    cases step with
    | unit events => cases hrest
    | reorg reorg => cases hrest
    | failure failure => cases hrest
    | stopped => exact hbefore.drained hP hmode hgives
    | finished => exact hbefore.drained hP hmode hgives
    | blocked awaited => exact hbefore.drained hP hmode hgives
  | ignored htells => exact hbefore.told hP htells
  | lost _ htells =>
    have htold := hbefore.told hP htells
    exact upholds_degrade htold.mode htold.keyed htold.sane htold.nodup htold.lanes
      fun other lane _ hlane => htold.stands other lane hlane
  | gaveUp hmode hstep hevent hview =>
    exact hbefore.gaveUp hP hmode hstep hevent hview
  | idle hstep hempty hview =>
    obtain ⟨hmode, hgives, -⟩ := Orderer.nextStep_cases hown hstep
    exact upholds_congr (hbefore.idle hP hmode hgives hempty) rfl rfl rfl rfl (by rw [hview])
  | @committed events processed unit orderer repo last notes started schedule hstep hunit hlower
      hwrite hrestarts hprunes =>
    obtain ⟨hmode, hgives, -⟩ := Orderer.nextStep_cases hown hstep
    have hstored := Repo.inMemory_commit_eq_ok hwrite
    have hstarted : started.Upholds context.config view P T := by
      refine Upholds.committed hbefore hP hmode hgives hunit ?_ ?_ ?_ ?_ ?_ hrestarts
      · rfl
      · rfl
      · rfl
      · rfl
      · exact congrArg Store.checkpoints hstored
    exact upholds_congr hstarted rfl rfl rfl rfl hprunes.checkpoints
  | @rolledBack reorg plan registrations orderer repo after hstep hplan hwrite hread hrestarts =>
    obtain ⟨-, reorged, lane, -, -, horderer⟩ := Orderer.nextStep_cases hown hstep
    have hstored : view repo = (view before.repo).applyRollback plan :=
      (Prod.mk.inj hwrite).2.symm
    refine Upholds.rolledBack hbefore hP horderer hplan ?_ ?_ ?_ ?_ ?_ hrestarts
    · rfl
    · rfl
    · rfl
    · rfl
    · exact congrArg Store.checkpoints hstored

/-- What holds of all tracked checkpoints holds of the stored ones, too, if it did before. -/
theorem Step.stored {status : PipelineStatus}
    (h : Step context Repo.inMemory view before status after)
    (hbefore : before.Upholds context.config view P T) (hP : Upheld context.config.chains P T)
    (hstored : (view before.repo).HoldsCheckpoints T) : (view after.repo).HoldsCheckpoints T := by
  have hown := hbefore.own hP
  cases h with
  | halted => exact hstored
  | rested => exact hstored
  | ignored => exact hstored
  | lost => exact hstored
  | @gaveUp _ _ _ repo _ _ _ _ hview =>
    change (view repo).HoldsCheckpoints T
    rw [hview]
    exact hstored
  | @idle _ _ _ repo _ _ _ hview =>
    change (view repo).HoldsCheckpoints T
    rw [hview]
    exact hstored
  | @committed events processed unit orderer repo last notes started schedule hstep hunit _ hwrite
      hrestarts hprunes =>
    obtain ⟨-, hgives, -⟩ := Orderer.nextStep_cases hown hstep
    intro id checkpoint hget
    dsimp only at hget
    rw [hprunes.checkpoints, hrestarts.sameBooks.view] at hget
    change (view repo).checkpoints.get? id = some checkpoint at hget
    rw [Repo.inMemory_commit_eq_ok hwrite, Store.write, hunit,
      hbefore.get?_commit hP hgives processed, Option.or_eq_some_iff] at hget
    rcases hget with hnew | ⟨-, hold⟩
    · have hnow := hbefore.get?_commit hP hgives processed before.tracker.checkpoints id
      rw [hnew, Option.some_or] at hnow
      exact ⟨Store.chain_of_get?_putCheckpoints hbefore.keyed hnow,
        hbefore.sane_commit hP hgives hnow⟩
    · exact hstored id checkpoint hold
  | @rolledBack reorg plan registrations orderer repo after hstep hplan hwrite hread hrestarts =>
    obtain ⟨-, -, hcheckpoints⟩ := RollbackPlan.eq_of_make hplan
    have happlied : view repo = (view before.repo).applyRollback plan :=
      (Prod.mk.inj hwrite).2.symm
    intro id checkpoint hget
    rw [hrestarts.sameBooks.view] at hget
    dsimp only at hget
    rw [happlied] at hget
    change (Tracker.replace ⟨(view before.repo).checkpoints⟩ plan.checkpoints).get? id = _ at hget
    have hkeyed : Tracker.Keyed ⟨(view before.repo).checkpoints⟩ := fun id checkpoint hold =>
      (hstored id checkpoint hold).1
    refine ⟨Store.chain_of_get?_putCheckpoints hkeyed hget, ?_⟩
    rcases mem_of_replace hget with hnew | hold
    · exact hbefore.sane_rewound hP hcheckpoints hnew
    · exact (hstored id checkpoint hold).2

end Pipeline

end ChainIndexer
