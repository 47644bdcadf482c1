import ChainIndexer.Proofs.Pruning.Idle

/-!
# Prunes that follow commits

A pipeline prunes once it has committed a unit: it looks at each chain whose progress the unit
reports, if that chain is processed through some block. Over a store under watch, the prunes of a
step are those that the schedule leads to at these looks, as far as the step gets, and all of them
if it does not fail.
-/

namespace ChainIndexer

/-! ### What prunes -/

/-- What there is to look at when some chains have reported progress. -/
def Tracker.looks (tracker : Tracker) (now : Int) (chains : List ChainId) : List Look :=
  chains.filterMap fun chain =>
    (tracker.processed chain).map fun processed => ⟨chain, processed, now, now⟩

theorem Tracker.looks_cons (tracker : Tracker) (now : Int) (chain : ChainId)
    (chains : List ChainId) :
    tracker.looks now (chain :: chains) =
      ((tracker.processed chain).map fun processed => ⟨chain, processed, now, now⟩).toList ++
        tracker.looks now chains := by
  rw [looks, List.filterMap_cons]
  cases tracker.processed chain <;> rfl

/-- A unit reports the blocks that are looked at once it is committed. -/
theorem Orderer.Keyed.looksAt_updated {orderer : Orderer} {tracker : Tracker} (h : orderer.Keyed)
    (htracker : tracker.Keyed) (committed : List Event) (registering : Option Event) (now : Int)
    {checkpoints : List Checkpoint}
    (hcheckpoints : checkpoints = tracker.updated
      ((orderer.progress committed).1.map (Progress.held registering)) now) :
    looksAt now checkpoints = (tracker.replace checkpoints).looks now
      ((orderer.progress committed).1.map (·.chain)) := by
  have hget : ∀ chain, (tracker.replace checkpoints).get? chain =
      (orderer.checkpoint? committed registering tracker now chain).or (tracker.get? chain) := by
    subst hcheckpoints
    exact fun chain => get?_insertAll_updated _ htracker h registering now
  generalize tracker.replace checkpoints = replaced at hget ⊢
  rw [hcheckpoints, looksAt, Tracker.updated, Tracker.looks, progress_reports, List.map_filterMap,
    List.filterMap_filterMap, List.map_filterMap, List.filterMap_filterMap,
    List.filterMap_filterMap]
  refine List.filterMap_congr fun chain _ => ?_
  have hchain := hget chain
  rw [checkpoint?] at hchain
  cases hreport : orderer.report? committed chain with
  | none => rfl
  | some progress =>
    rw [hreport, Option.bind_some] at hchain
    obtain rfl := report?_chain h hreport
    dsimp only [Option.map_some, Option.bind_some]
    rw [Progress.held_chain, Tracker.processed, hchain]
    cases hcheckpoint : tracker.get? progress.chain with
    | none => rfl
    | some checkpoint =>
      have hkeyed : (checkpoint.update (progress.held registering) now).chain = progress.chain :=
        htracker progress.chain checkpoint hcheckpoint
      dsimp only [Option.map_some, Option.bind_some, Option.some_or]
      rw [hkeyed]

namespace Pipeline

variable {σ : Type} {repo : Repo σ} {context : PipelineContext (Watched σ)}
  {config : PruningConfig} {before after : Pipeline (Watched σ)} {chains : List ChainId}
  {looks : List Look} {result : Except IndexingError Unit}

theorem onRepo_prune_cases (hrepo : context.repo = repo.watched) {chain : ChainId} {minBlock : Nat}
    (h : onRepo (context.repo.prune chain minBlock) .repo before = (result, after)) :
    ∃ inner, (result = .ok () ∧ after =
        { before with repo := ⟨inner, before.repo.watch.prune chain minBlock⟩ }) ∨
      ((∃ error, result = .error error) ∧
        after = { before with repo := ⟨inner, before.repo.watch⟩ }) := by
  rw [hrepo, onRepo] at h
  cases hcall : repo.watched.prune chain minBlock before.repo with
  | mk answer last =>
    obtain ⟨inner, watch⟩ := last
    rw [hcall] at h
    obtain ⟨⟨_, rfl⟩, hwatch⟩ | ⟨⟨error, rfl⟩, hwatch⟩ := Call.watched_cases hcall
    · cases h
      dsimp only at hwatch
      exact ⟨inner, Or.inl ⟨rfl, by rw [hwatch]⟩⟩
    · cases h
      dsimp only at hwatch
      exact ⟨inner, Or.inr ⟨⟨_, rfl⟩, by rw [hwatch]⟩⟩

/-- Whether a pipeline makes the prunes that its schedule leads to at some looks, up to one that
fails, and changes nothing else. -/
def PrunesAt (config : PruningConfig) (looks : List Look) (done : Prop)
    (before after : Pipeline (Watched σ)) : Prop :=
  ∃ schedule inner pruned, pruned <+: before.schedule.pruned config looks ∧
    (done → pruned = before.schedule.pruned config looks ∧
      schedule = before.schedule.afterAll config looks) ∧
    after =
      { before with
        schedule := schedule
        repo :=
          ⟨inner, { before.repo.watch with
            prunes := before.repo.watch.prunes ++ pruned.map (Look.prune config) }⟩ }

theorem PrunesAt.nil (before : Pipeline (Watched σ)) {done : Prop} :
    PrunesAt config [] done before before :=
  ⟨before.schedule, before.repo.inner, [], List.nil_prefix, fun _ => ⟨rfl, rfl⟩, by
    rw [List.map_nil, List.append_nil]⟩

theorem PrunesAt.failed (before : Pipeline (Watched σ)) (inner : σ) {done : Prop}
    (hfailed : ¬ done) :
    PrunesAt config looks done before { before with repo := ⟨inner, before.repo.watch⟩ } :=
  ⟨before.schedule, inner, [], List.nil_prefix, fun hdone => absurd hdone hfailed, by
    rw [List.map_nil, List.append_nil]⟩

theorem PrunesAt.skip {look : Look} {done : Prop}
    (hdue : ¬ before.schedule.isDue config look.chain look.time = true)
    (h : PrunesAt config looks done before after) :
    PrunesAt config (look :: looks) done before after := by
  obtain ⟨schedule, inner, pruned, hpart, hdone, rfl⟩ := h
  have hafter : before.schedule.after config look = before.schedule := if_neg hdue
  refine ⟨schedule, inner, pruned, ?_, fun h => ?_, rfl⟩
  · rwa [PruningSchedule.pruned, if_neg hdue, hafter]
  · rw [PruningSchedule.pruned, if_neg hdue, PruningSchedule.afterAll, List.foldl_cons, hafter]
    exact hdone h

theorem PrunesAt.prune {look : Look} {inner : σ} {done : Prop}
    (hdue : before.schedule.isDue config look.chain look.time = true)
    (hnow : before.repo.watch.time = look.ended)
    (h : PrunesAt config looks done
      { before with
        schedule := before.schedule.markPruned look.chain look.ended
        repo :=
          ⟨inner, before.repo.watch.prune look.chain (config.minBlock look.processed)⟩ } after) :
    PrunesAt config (look :: looks) done before after := by
  obtain ⟨schedule, last, pruned, hpart, hdone, rfl⟩ := h
  have hafter : before.schedule.after config look =
      before.schedule.markPruned look.chain look.ended := if_pos hdue
  refine ⟨schedule, last, look :: pruned, ?_, fun h => ?_, ?_⟩
  · rw [PruningSchedule.pruned, if_pos hdue, hafter]
    exact (List.prefix_cons_inj look).2 hpart
  · rw [PruningSchedule.pruned, if_pos hdue, PruningSchedule.afterAll, List.foldl_cons, hafter]
    exact ⟨congrArg (look :: ·) (hdone h).1, (hdone h).2⟩
  · dsimp only [Watch.prune]
    rw [hnow, List.map_cons, List.append_assoc]
    rfl

/-- The chains that are due are pruned in turn. -/
theorem prunesAt_of_pruneDue (hrepo : context.repo = repo.watched)
    (hnow : before.repo.watch.time = context.now)
    (h : pruneDue context config chains before = (result, after)) :
    PrunesAt config (before.tracker.looks context.now chains) (result = .ok ()) before after := by
  induction chains generalizing before with
  | nil =>
    cases h
    exact .nil after
  | cons chain rest ih =>
    rw [pruneDue, Call.bind_apply, Call.get_apply] at h
    dsimp only at h
    rw [Tracker.looks_cons]
    cases hprocessed : before.tracker.processed chain with
    | none =>
      rw [hprocessed] at h
      exact ih hnow h
    | some processed =>
      rw [hprocessed] at h
      let look : Look := ⟨chain, processed, context.now, context.now⟩
      change PrunesAt config (look :: before.tracker.looks context.now rest) _ _ _
      dsimp only at h
      split at h
      next hdue =>
        obtain ⟨_, rfl, hfailed⟩ | ⟨_, pruned, hpruned, h⟩ := Call.bind_cases h
        · obtain ⟨_, ⟨hok, -⟩ | ⟨⟨_, herror⟩, rfl⟩⟩ := onRepo_prune_cases hrepo hfailed
          · cases hok
          · exact .failed before _ (by rintro ⟨⟩)
        · obtain ⟨_, ⟨-, rfl⟩ | ⟨⟨_, herror⟩, -⟩⟩ := onRepo_prune_cases hrepo hpruned
          · obtain ⟨_, rfl, hfailed⟩ | ⟨_, marked, hmarked, h⟩ := Call.bind_cases h
            · cases hfailed
            cases hmarked
            exact .prune hdue hnow (ih hnow h)
          · cases herror
      next hdue => exact (ih hnow h).skip hdue

/-! ### Steps -/

theorem write_commit_cases (hrepo : context.repo = repo.watched) {unit : WriteUnit}
    (h : write context (context.repo.commit unit) before = (result, after)) :
    ∃ inner, (result = .ok () ∧
        after = { before with repo := ⟨inner, before.repo.watch.commit unit⟩ }) ∨
      ((∃ error, result = .error error) ∧
        after = { before with repo := ⟨inner, before.repo.watch⟩ }) := by
  rw [hrepo] at h
  cases h
  have hfails : ∀ before error after,
      repo.watched.commit unit before = (.error error, after) → after.watch = before.watch := by
    intro before error after hcall
    obtain ⟨⟨_, hok⟩, -⟩ | ⟨-, hwatch⟩ := Call.watched_cases hcall
    · cases hok
    · exact hwatch
  generalize hoperation : context.config.writeRetries.write _ before.repo = outcome
  obtain ⟨hok, tried, htried, hcall⟩ | ⟨herror, hwatch⟩ :=
    RetryPolicy.write_cases context.config.writeRetries hfails before.repo
  · rw [hoperation] at hok hcall
    obtain ⟨-, hwatch⟩ | ⟨⟨_, herror⟩, -⟩ := Call.watched_cases hcall
    · rw [htried] at hwatch
      refine ⟨outcome.repo.inner, Or.inl ⟨hok, ?_⟩⟩
      rw [← hwatch]
    · cases herror
  · rw [hoperation] at herror hwatch
    refine ⟨outcome.repo.inner, Or.inr ⟨herror, ?_⟩⟩
    rw [← hwatch]

/-- Whether a step notes some progress and makes the prunes that the schedule leads to, up to one
that fails. -/
def Notes (config : PruningConfig) (done : Prop) (before after : Pipeline (Watched σ)) : Prop :=
  ∃ looks pruned,
    (∀ look ∈ looks,
      look.time = before.repo.watch.time ∧ look.ended = before.repo.watch.time) ∧
    pruned <+: before.schedule.pruned config looks ∧
    after.repo.watch =
      { before.repo.watch with
        looks := before.repo.watch.looks ++ looks
        prunes := before.repo.watch.prunes ++ pruned.map (Look.prune config) } ∧
    (done → after.Sorted ∧ pruned = before.schedule.pruned config looks ∧
      after.schedule = before.schedule.afterAll config looks)

variable {done : Prop}

/-- A step that does not prune. -/
theorem Notes.of_same (hwatch : after.repo.watch = before.repo.watch)
    (hdone : done → after.Sorted ∧ after.schedule = before.schedule) :
    Notes config done before after := by
  refine ⟨[], [], nofun, List.nil_prefix, ?_, fun h => ⟨(hdone h).1, rfl, (hdone h).2⟩⟩
  rw [hwatch, List.map_nil, List.append_nil, List.append_nil]

theorem Notes.of_waits {α : Type} {action : Action (Watched σ) α}
    {result : Except IndexingError α} (h : Waits Watched.watch action) (hsorted : before.Sorted)
    (hrun : action before = (result, after)) : Notes config done before after := by
  obtain ⟨hafter, hkept⟩ := h before result after hsorted hrun
  obtain ⟨hschedule, hwatch⟩ := Prod.mk.inj hkept
  exact .of_same hwatch fun _ => ⟨hafter, hschedule⟩

/-- Only the schedule and the notes matter of what a step starts from. -/
theorem Notes.of_between {between : Pipeline (Watched σ)} (h : Notes config done between after)
    (hschedule : between.schedule = before.schedule)
    (hwatch : between.repo.watch = before.repo.watch) : Notes config done before after := by
  rw [Notes, hschedule, hwatch] at h
  exact h

theorem Notes.mono {done' : Prop} (h : Notes config done before after) (himp : done' → done) :
    Notes config done' before after := by
  obtain ⟨looks, pruned, hlooks, hpart, hwatch, hdone⟩ := h
  exact ⟨looks, pruned, hlooks, hpart, hwatch, fun h => hdone (himp h)⟩

/-- A step that prunes once its progress is noted. -/
theorem Notes.of_prunesAt {between : Pipeline (Watched σ)}
    (hlooks : ∀ look ∈ looks,
      look.time = before.repo.watch.time ∧ look.ended = before.repo.watch.time)
    (hsorted : between.Sorted) (hschedule : between.schedule = before.schedule)
    (hwatch : between.repo.watch =
      { before.repo.watch with looks := before.repo.watch.looks ++ looks })
    (h : PrunesAt config looks done between after) : Notes config done before after := by
  obtain ⟨schedule, inner, pruned, hpart, hdone, rfl⟩ := h
  rw [hschedule] at hpart hdone
  refine ⟨looks, pruned, hlooks, hpart, ?_, fun h => ⟨⟨hsorted.tracker, hsorted.orderer⟩, ?_⟩⟩
  · dsimp only
    rw [hwatch]
  · exact hdone h

theorem mem_looksAt {now : Int} {checkpoints : List Checkpoint} {look : Look}
    (h : look ∈ looksAt now checkpoints) : look.time = now ∧ look.ended = now := by
  obtain ⟨checkpoint, -, hlook⟩ := List.mem_filterMap.1 h
  obtain ⟨processed, -, rfl⟩ := Option.map_eq_some_iff.1 hlook
  exact ⟨rfl, rfl⟩

/-- What follows a commit prunes what the schedule leads to. -/
theorem notes_of_committed (hrepo : context.repo = repo.watched)
    (hconfig : context.config.pruning = some config) {noted : Pipeline (Watched σ)}
    (hnow : before.repo.watch.time = context.now) (hsorted : noted.Sorted)
    (hlooks : ∀ look ∈ looks, look.time = context.now ∧ look.ended = context.now)
    (hschedule : noted.schedule = before.schedule)
    (hwatch : noted.repo.watch =
      { before.repo.watch with looks := before.repo.watch.looks ++ looks })
    (hreported : noted.tracker.looks context.now chains = looks) {registering : Option Event}
    (h : (do refetch context registering; pruneIfAsked context chains : Action (Watched σ) Unit)
      noted = (result, after)) : Notes config (result = .ok ()) before after := by
  rw [← hnow] at hlooks
  have hquiet : context.repo.Quiet Watched.watch := hrepo ▸ repo.watched_quiet
  have hstarts : ∀ {first : Except IndexingError Unit} {started : Pipeline (Watched σ)},
      refetch context registering noted = (first, started) →
      started.Sorted ∧ started.tracker = noted.tracker ∧ started.schedule = before.schedule ∧
        started.repo.watch =
          { before.repo.watch with looks := before.repo.watch.looks ++ looks } := by
    intro first started hstarted
    obtain ⟨hsorted, hkept⟩ := idles_refetch hquiet registering noted first started hsorted hstarted
    obtain ⟨htracker, hkept⟩ := Prod.mk.inj hkept
    obtain ⟨hkept, hseen⟩ := Prod.mk.inj hkept
    exact ⟨hsorted, htracker, hkept.trans hschedule, hseen.trans hwatch⟩
  obtain ⟨_, rfl, hfailed⟩ | ⟨_, started, hstarted, h⟩ := Call.bind_cases h
  · obtain ⟨hsorted, -, hkept, hseen⟩ := hstarts hfailed
    exact .of_prunesAt hlooks hsorted hkept hseen (.failed after after.repo.inner (by rintro ⟨⟩))
  · obtain ⟨hsorted, htracker, hkept, hseen⟩ := hstarts hstarted
    rw [pruneIfAsked, hconfig] at h
    have hclock : started.repo.watch.time = context.now := (congrArg Watch.time hseen).trans hnow
    have hdue := prunesAt_of_pruneDue hrepo hclock h
    rw [htracker, hreported] at hdue
    exact .of_prunesAt hlooks hsorted hkept hseen hdue

/-- A commit reports progress, and then the chains are pruned that are due. -/
theorem commitProcessed_notes (hrepo : context.repo = repo.watched)
    (hconfig : context.config.pruning = some config)
    (hsorted : before.Sorted) (hnow : before.repo.watch.time = context.now) {events : List Event}
    {processed : ProcessedUnit}
    (h : commitProcessed context events processed before = (result, after)) :
    Notes config (result = .ok ()) before after := by
  have hreported : (before.reported events processed).Sorted :=
    ⟨hsorted.tracker, (hsorted.orderer.restore _).progress _⟩
  have hlooks := (hsorted.orderer.restore (events.drop processed.applied)).looksAt_updated
    hsorted.tracker (events.take processed.applied) (registering events processed) context.now
    (rfl : (before.unitOf context.now events processed).checkpoints = _)
  rw [commitProcessed_eq] at h
  generalize before.unitOf context.now events processed = unit at h hlooks
  split at h
  next =>
    cases h
    exact .of_same rfl fun _ => ⟨hreported, rfl⟩
  next =>
    obtain ⟨_, rfl, hfailed⟩ | ⟨_, written, hwritten, h⟩ := Call.bind_cases h
    · obtain ⟨inner, ⟨hok, -⟩ | ⟨-, rfl⟩⟩ := write_commit_cases hrepo hfailed
      · cases hok
      · exact .of_same rfl (by rintro ⟨⟩)
    obtain ⟨inner, ⟨-, rfl⟩ | ⟨⟨_, herror⟩, -⟩⟩ := write_commit_cases hrepo hwritten
    · obtain ⟨_, -, hfailed⟩ | ⟨_, noted, hnoted, h⟩ := Call.bind_cases h
      · cases hfailed
      cases hnoted
      have htimes : ∀ look ∈ looksAt context.now unit.checkpoints,
          look.time = context.now ∧ look.ended = context.now := fun look => mem_looksAt
      refine notes_of_committed hrepo hconfig hnow ?_ htimes ?_ ?_ ?_ h
      · exact ⟨hreported.tracker.replace unit.checkpoints, hreported.orderer⟩
      · rfl
      · dsimp only [noteCommit, reported, Watch.commit]
        rw [hnow]
      · exact hlooks.symm
    · cases herror

theorem handleUnit_notes (hrepo : context.repo = repo.watched)
    (hconfig : context.config.pruning = some config)
    (hsorted : before.Sorted) (hnow : before.repo.watch.time = context.now) {events : List Event}
    (h : handleUnit context events before = (result, after)) :
    Notes config (result = .ok ()) before after := by
  have hquiet : context.repo.Quiet Watched.watch := hrepo ▸ repo.watched_quiet
  have hwatch := hquiet.processEvents context.handlers before.registry events before.repo
  generalize hprocessing : processEvents context.repo context.handlers before.registry events
    before.repo = processing at hwatch
  rw [handleUnit_eq before hprocessing] at h
  have hbetween : ({ before with
      registry := processing.registry
      repo := processing.repo
      notes := before.notes ++ processing.notes } : Pipeline (Watched σ)).Sorted :=
    ⟨hsorted.tracker, hsorted.orderer⟩
  cases hresult : processing.result with
  | error error =>
    rw [hresult] at h
    cases error with
    | repo error =>
      cases h
      exact .of_same hwatch (by rintro ⟨⟩)
    | handler event error =>
      exact (Notes.of_waits (idles_failChain event.chain _).waits hbetween h).of_between rfl hwatch
  | ok processed =>
    rw [hresult] at h
    have hclock := (congrArg Watch.time hwatch).trans hnow
    exact (commitProcessed_notes hrepo hconfig hbetween hclock h).of_between rfl hwatch

/-- A step reports progress, if anything, and then the chains are pruned that are due. -/
theorem advance_notes (hrepo : context.repo = repo.watched)
    (hconfig : context.config.pruning = some config)
    (hsorted : before.Sorted) (hnow : before.repo.watch.time = context.now)
    {result : Except IndexingError PipelineStatus}
    (h : advance context before = (result, after)) :
    Notes config (∃ status, result = .ok status) before after := by
  have hquiet : context.repo.Quiet Watched.watch := hrepo ▸ repo.watched_quiet
  obtain ⟨-, -, rfl⟩ | ⟨step, orderer, done, -, hstep, hdone, rfl⟩ := advance_cases h
  · exact .of_same rfl fun _ => ⟨hsorted, rfl⟩
  have hnext := hsorted.orderer.nextStep
  rw [hstep] at hnext
  have hmoved : ({ before with orderer := orderer } : Pipeline (Watched σ)).Sorted :=
    ⟨hsorted.tracker, hnext⟩
  cases step with
  | unit events =>
    refine ((handleUnit_notes hrepo hconfig hmoved hnow hdone).of_between rfl rfl).mono ?_
    rintro ⟨status, hok⟩
    cases done with
    | ok value => rfl
    | error error => cases hok
  | reorg reorg =>
    exact (Notes.of_waits (waits_handleReorg hquiet reorg) hmoved hdone).of_between rfl rfl
  | failure failure =>
    exact (Notes.of_waits (idles_handleFailure failure).waits hmoved hdone).of_between rfl rfl
  | stopped =>
    cases hdone
    exact .of_same rfl fun _ => ⟨hmoved, rfl⟩
  | finished =>
    cases hdone
    exact .of_same rfl fun _ => ⟨hmoved, rfl⟩
  | blocked awaited =>
    cases hdone
    exact .of_same rfl fun _ => ⟨hmoved, rfl⟩

/-- Nothing is reported or pruned for a wait, or for a failure in it. -/
theorem goOn_notes (hrepo : context.repo = repo.watched)
    (hconfig : context.config.pruning = some config)
    (hsorted : before.Sorted) (hnow : before.repo.watch.time = context.now)
    {awaited : Option (List ChainId)} {result : Except IndexingError PipelineStatus}
    (h : goOn context awaited before = (result, after)) :
    Notes config (∃ status, result = .ok status) before after := by
  obtain hadvance | ⟨_, -, rfl⟩ | ⟨failure, rest, done, -, hdone, -⟩ := goOn_cases h
  · exact advance_notes hrepo hconfig hsorted hnow hadvance
  · exact .of_same rfl fun _ => ⟨hsorted, rfl⟩
  · have hheard : (before.heard rest).Sorted := ⟨hsorted.tracker, hsorted.orderer⟩
    exact (Notes.of_waits (idles_handleFailure failure).waits hheard hdone).of_between rfl rfl

end Pipeline

end ChainIndexer
