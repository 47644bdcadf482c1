import ChainIndexer.Proofs.ExactlyOnce
import ChainIndexer.Proofs.Pruning.Commits
import ChainIndexer.Proofs.Runs

/-!
# Prunes of a run

A run starts with an empty schedule, and each of its steps looks at the time of day, which never
goes back. So the prunes of a run are those that the schedule leads to at the progress that its
units report, one after the other. A chain is pruned with the first report of its progress, and
again with the first one after the interval. No prune is earlier unless the interval has a sign bit;
then each report prunes.
-/

namespace ChainIndexer

namespace Indexer

variable {τ σ : Type}

/-- Lets the time of day move on. -/
def tick (later : Int) (indexer : Indexer τ (Watched σ)) : Indexer τ (Watched σ) :=
  let pipeline := indexer.pipeline
  let watch := { pipeline.repo.watch with time := later }
  { indexer with
    pipeline := { pipeline with repo := { pipeline.repo with watch := watch } } }

/-- A run over a store under watch whose clock never goes back, and whether a step has failed. -/
inductive Timed (context : IndexerContext τ (Watched σ)) : Indexer τ (Watched σ) → Bool → Prop
  | start {indexer : Indexer τ (Watched σ)} {sources : Table ChainId τ} {state : Watched σ}
      (hlooks : state.watch.looks = []) (hprunes : state.watch.prunes = [])
      (hstart : start context sources state = (.ok (), indexer)) : Timed context indexer false
  | advance {indexer : Indexer τ (Watched σ)} {status : PipelineStatus}
      {pipeline : Pipeline (Watched σ)} (h : Timed context indexer false)
      (awaited : Option (List ChainId))
      (hadvance : Pipeline.goOn
        { indexer.pipelineContext context with now := indexer.pipeline.repo.watch.time } awaited
        indexer.pipeline = (.ok status, pipeline)) :
      Timed context { indexer with pipeline := pipeline } false
  | fail {indexer : Indexer τ (Watched σ)} {error : IndexingError}
      {pipeline : Pipeline (Watched σ)} (h : Timed context indexer false)
      (awaited : Option (List ChainId))
      (hfails : Pipeline.goOn
        { indexer.pipelineContext context with now := indexer.pipeline.repo.watch.time } awaited
        indexer.pipeline = (.error error, pipeline)) :
      Timed context { indexer with pipeline := pipeline } true
  | fetch {indexer : Indexer τ (Watched σ)} (h : Timed context indexer false) (id : ChainId) :
      Timed context (indexer.runTask context id) false
  | report {indexer : Indexer τ (Watched σ)} (h : Timed context indexer false)
      (failure : ChainFailure) : Timed context (indexer.report failure) false
  | wait {indexer : Indexer τ (Watched σ)} (h : Timed context indexer false)
      (sources : Table ChainId τ) (clock : Nat) (awaited : Option (List ChainId)) :
      Timed context { indexer with sources := sources, clock := clock, awaited := awaited } false
  | stop {indexer : Indexer τ (Watched σ)} (h : Timed context indexer false) :
      Timed context indexer.requestStop false
  | tick {indexer : Indexer τ (Watched σ)} (h : Timed context indexer false) {later : Int}
      (hlater : indexer.pipeline.repo.watch.time ≤ later) :
      Timed context (indexer.tick later) false

end Indexer

/-- Whether the prunes of a store under watch are those that a schedule leads to at the progress
that was reported in time, up to one that failed. -/
structure Watch.Obeys (watch : Watch) (config : PruningConfig) (failed : Bool) : Prop where
  timely : Timely watch.looks
  past : ∀ look ∈ watch.looks, look.ended ≤ watch.time
  prunes : ∃ pruned, pruned <+: PruningSchedule.pruned config ⟨.empty⟩ watch.looks ∧
    watch.prunes = pruned.map (Look.prune config) ∧
    (failed = false → pruned = PruningSchedule.pruned config ⟨.empty⟩ watch.looks)

theorem Watch.Obeys.prunes_eq {watch : Watch} {config : PruningConfig}
    (h : watch.Obeys config false) :
    watch.prunes =
      (PruningSchedule.pruned config ⟨.empty⟩ watch.looks).map (Look.prune config) := by
  obtain ⟨pruned, -, hprunes, hall⟩ := h.prunes
  rw [hprunes, hall rfl]

/-- The prunes of each chain are the interval apart unless it has a sign bit. -/
theorem Watch.Obeys.spaced {watch : Watch} {config : PruningConfig} {failed : Bool}
    (h : watch.Obeys config failed) (hhalf : config.interval < Word.half) :
    watch.prunes.Pairwise fun earlier later =>
      earlier.chain = later.chain → (config.interval : Int) ≤ later.time - earlier.time := by
  obtain ⟨pruned, hpart, hprunes, -⟩ := h.prunes
  have hspaced : Spaced (Word.toSigned config.interval)
      (PruningSchedule.pruned config ⟨.empty⟩ watch.looks) := PruningSchedule.spaced_pruned h.timely
  rw [Word.toSigned_of_lt_half hhalf] at hspaced
  rw [hprunes, List.pairwise_map]
  refine (List.Pairwise.sublist hpart.sublist hspaced).imp_of_mem
    fun {earlier later} _ hlater happart heq => (happart heq).trans ?_
  have hlook := (hpart.sublist.trans (PruningSchedule.pruned_sublist _ _)).subset hlater
  exact Int.sub_le_sub_right (h.timely.lasts later hlook) _

namespace Pipeline

variable {σ : Type} {repo : Repo σ} {config : PruningConfig} {before after : Pipeline (Watched σ)}

/-- Whether a pipeline has kept to its schedule. -/
structure Obeys (pipeline : Pipeline (Watched σ)) (config : PruningConfig) : Prop where
  sorted : pipeline.Sorted
  watch : pipeline.repo.watch.Obeys config false
  schedule : pipeline.schedule =
    PruningSchedule.afterAll config ⟨.empty⟩ pipeline.repo.watch.looks

theorem Obeys.congr (h : before.Obeys config) (hsorted : after.Sorted)
    (hschedule : after.schedule = before.schedule)
    (hwatch : after.repo.watch = before.repo.watch) : after.Obeys config := by
  refine ⟨hsorted, ?_, ?_⟩
  · rw [hwatch]
    exact h.watch
  · rw [hschedule, hwatch]
    exact h.schedule

/-- A step keeps to the schedule, as far as it gets. -/
theorem Obeys.of_notes {failed : Bool} (h : before.Obeys config)
    (hnotes : Notes config (failed = false) before after) :
    after.repo.watch.Obeys config failed ∧ (failed = false → after.Obeys config) := by
  obtain ⟨looks, pruned, hlooks, hpart, hwatch, hdone⟩ := hnotes
  have hall := PruningSchedule.pruned_append config ⟨.empty⟩ before.repo.watch.looks looks
  rw [← h.schedule] at hall
  have hobeys : after.repo.watch.Obeys config failed := by
    rw [hwatch]
    refine ⟨Timely.append_iff.2 ⟨h.watch.timely, .of_forall_eq hlooks, ?_⟩, ?_,
      PruningSchedule.pruned config ⟨.empty⟩ before.repo.watch.looks ++ pruned, ?_, ?_, ?_⟩
    · intro earlier hearlier later hlater
      rw [(hlooks later hlater).1]
      exact h.watch.past earlier hearlier
    · refine List.forall_mem_append.2 ⟨h.watch.past, fun look hlook => ?_⟩
      exact (hlooks look hlook).2.le
    · rw [hall]
      exact (List.prefix_append_right_inj _).2 hpart
    · rw [List.map_append, ← h.watch.prunes_eq]
    · intro hfailed
      rw [hall, (hdone hfailed).2.1]
  refine ⟨hobeys, fun hfailed => ?_⟩
  obtain ⟨hsorted, -, hschedule⟩ := hdone hfailed
  subst hfailed
  refine ⟨hsorted, hobeys, ?_⟩
  rw [hschedule, hwatch, h.schedule, ← PruningSchedule.afterAll_append]

end Pipeline

/-! ### Runs -/

/-- Whatever a store answers, each checkpoint stands under its own chain from the start. -/
theorem Tracker.keyed_of_boot {σ : Type} {repo : Repo σ} {config : Config} {state after : σ}
    {booted : Booted} (h : boot repo config state = (.ok booted, after)) :
    booted.tracker.Keyed := by
  have hread : ∀ {booted : Booted} {after : σ},
      bootRepo repo config state = (.ok booted, after) → booted.tracker.Keyed := by
    intro booted after hread
    obtain ⟨_, _, -, hread⟩ := Call.bind_eq_ok hread
    obtain ⟨_, _, -, hread⟩ := Call.bind_eq_ok hread
    obtain ⟨checkpoints, _, -, hread⟩ := Call.bind_eq_ok hread
    obtain ⟨registrations, _, -, hread⟩ := Call.bind_eq_ok hread
    cases hread
    exact Tracker.start_keyed _ _
  rw [boot] at h
  split at h
  next => cases h
  next =>
    split at h
    next hcall =>
      cases h
      exact hread hcall
    next => cases h

namespace Indexer

variable {τ σ : Type} {repo : Repo σ} {context : IndexerContext τ (Watched σ)}
  {config : PruningConfig} {indexer after : Indexer τ (Watched σ)}

/-- A run starts with an empty schedule, and with nothing noted. -/
theorem start_obeys (hrepo : context.repo = repo.watched) {sources : Table ChainId τ}
    {state : Watched σ} (hlooks : state.watch.looks = []) (hprunes : state.watch.prunes = [])
    (hstart : start context sources state = (.ok (), indexer)) :
    indexer.pipeline.Obeys config := by
  have hquiet : context.repo.Quiet Watched.watch := hrepo ▸ repo.watched_quiet
  obtain ⟨booted, last, hboot, hfetchers⟩ := start_eq_ok hstart
  have hwatch := hquiet.boot hboot
  have hsorted : (Pipeline.ofBooted context.config booted last).Sorted :=
    ⟨Tracker.keyed_of_boot hboot, by rintro _ _ ⟨⟩⟩
  obtain ⟨hstarted, hkept⟩ :=
    (Pipeline.idles_startFetchers hquiet _).waits _ _ _ hsorted hfetchers
  obtain ⟨hschedule, hseen⟩ := Prod.mk.inj hkept
  have hobeys : last.watch.Obeys config false := by
    refine ⟨?_, ?_, [], List.nil_prefix, ?_, fun _ => ?_⟩
    · rw [hwatch, hlooks]
      exact .nil
    · rw [hwatch, hlooks]
      exact List.forall_mem_nil _
    · rw [hwatch, hprunes]
      rfl
    · rw [hwatch, hlooks]
      rfl
  have hempty : (Pipeline.ofBooted context.config booted last).Obeys config := by
    refine ⟨hsorted, hobeys, ?_⟩
    change (⟨.empty⟩ : PruningSchedule) = .afterAll config ⟨.empty⟩ last.watch.looks
    rw [hwatch, hlooks]
    rfl
  exact hempty.congr hstarted hschedule hseen

theorem closeLane_obeys (h : indexer.pipeline.Obeys config) (id : ChainId) :
    (indexer.closeLane id).pipeline.Obeys config :=
  h.congr ⟨h.sorted.tracker, h.sorted.orderer.changeLane id fun _ => rfl⟩ rfl rfl

/-- Fetchers have no part in pruning. -/
theorem runTask_obeys (h : indexer.pipeline.Obeys config) (id : ChainId) :
    (indexer.runTask context id).pipeline.Obeys config := by
  generalize hafter : indexer.runTask context id = after
  cases fetcherStep_of_runTask hafter with
  | idle => exact h
  | @round task source _ _ =>
    refine takeRound_induction (Q := fun pipeline => pipeline.Obeys config) closeLane_obeys rfl
      (fun failures hkept => ?_) ?_
    · exact hkept.congr ⟨hkept.sorted.tracker, hkept.sorted.orderer⟩ rfl rfl
    · exact h.congr ⟨h.sorted.tracker, h.sorted.orderer⟩ rfl rfl
  | pause => exact h.congr ⟨h.sorted.tracker, h.sorted.orderer⟩ rfl rfl
  | @send task item _ _ =>
    refine send_induction (Q := fun pipeline => pipeline.Obeys config) closeLane_obeys ?_
    exact h.congr ⟨h.sorted.tracker, h.sorted.orderer.changeLane id fun _ => rfl⟩ rfl rfl

/-- A run keeps to its schedule, up to a step that fails. -/
theorem Timed.obeys {ended : Bool} (hrepo : context.repo = repo.watched)
    (hconfig : context.config.pruning = some config) (h : Timed context indexer ended) :
    indexer.pipeline.repo.watch.Obeys config ended ∧
      (ended = false → indexer.pipeline.Obeys config) := by
  have hkept : ∀ {indexer : Indexer τ (Watched σ)}, indexer.pipeline.Obeys config →
      indexer.pipeline.repo.watch.Obeys config false ∧
        (false = false → indexer.pipeline.Obeys config) :=
    fun hobeys => ⟨hobeys.watch, fun _ => hobeys⟩
  induction h with
  | start hlooks hprunes hstart => exact hkept (start_obeys hrepo hlooks hprunes hstart)
  | advance _ _ hadvance ih =>
    have hbefore := ih.2 rfl
    have hnotes := Pipeline.goOn_notes hrepo hconfig hbefore.sorted rfl hadvance
    exact hbefore.of_notes (hnotes.mono fun _ => ⟨_, rfl⟩)
  | fail _ _ hfails ih =>
    have hbefore := ih.2 rfl
    have hnotes := Pipeline.goOn_notes hrepo hconfig hbefore.sorted rfl hfails
    exact hbefore.of_notes (hnotes.mono nofun)
  | fetch _ id ih => exact hkept (runTask_obeys (ih.2 rfl) id)
  | report _ failure ih =>
    have hbefore := ih.2 rfl
    exact hkept (hbefore.congr ⟨hbefore.sorted.tracker, hbefore.sorted.orderer⟩ rfl rfl)
  | wait _ _ _ _ ih => exact ih
  | stop _ ih =>
    have hbefore := ih.2 rfl
    exact hkept (hbefore.congr ⟨hbefore.sorted.tracker, hbefore.sorted.orderer⟩ rfl rfl)
  | tick _ hlater ih =>
    obtain ⟨hsorted, ⟨htimely, hpast, hprunes⟩, hschedule⟩ := ih.2 rfl
    exact hkept ⟨⟨hsorted.tracker, hsorted.orderer⟩,
      ⟨htimely, fun look hlook => (hpast look hlook).trans hlater, hprunes⟩, hschedule⟩

end Indexer

/-! ### The interval -/

def IndexerContext.watched {τ σ : Type} (context : IndexerContext τ σ) :
    IndexerContext τ (Watched σ) :=
  { context with repo := context.repo.watched }

namespace Indexer

/-- A chain is pruned whenever its progress is reported and the interval has passed since each of
its earlier prunes, so with the first report, too. Its prunes are always the interval apart exactly
if the interval has no sign bit. That is so of each run, whose prunes are those that follow from the
progress that its units report, over any store, with any handlers and sources. -/
theorem prunes_respect_interval {config : PruningConfig} (hcount : config.interval < Word.count) :
    (∀ looks look rest, Timely looks →
      Waited config.interval (PruningSchedule.pruned config ⟨.empty⟩ looks) look →
      PruningSchedule.pruned config ⟨.empty⟩ looks ++ [look] <+:
        PruningSchedule.pruned config ⟨.empty⟩ (looks ++ look :: rest)) ∧
    ((∀ looks, Timely looks →
      Spaced config.interval (PruningSchedule.pruned config ⟨.empty⟩ looks)) ↔
        config.interval < Word.half) ∧
    ∀ {τ σ : Type} {context : IndexerContext τ σ} {indexer : Indexer τ (Watched σ)} {ended : Bool},
      context.config.pruning = some config → Timed context.watched indexer ended →
        indexer.pipeline.repo.watch.Obeys config ended ∧
          (config.interval < Word.half →
            indexer.pipeline.repo.watch.prunes.Pairwise fun earlier later =>
              earlier.chain = later.chain →
                (config.interval : Int) ≤ later.time - earlier.time) := by
  refine ⟨fun looks look rest htimely hwaited => ?_, ?_, fun hconfig h => ?_⟩
  · exact PruningSchedule.prefix_pruned_of_waited hcount htimely hwaited rest
  · exact PruningSchedule.spaced_pruned_iff hcount
  · obtain ⟨hobeys, -⟩ := h.obeys rfl hconfig
    exact ⟨hobeys, hobeys.spaced⟩

/-! ### A sample -/

/-- What an indexer is after a step of its pipeline. -/
def advanced (context : IndexerContext τ (Watched σ)) (indexer : Indexer τ (Watched σ)) :
    Except IndexingError PipelineStatus × Pipeline (Watched σ) :=
  Pipeline.advance
    { indexer.pipelineContext context with now := indexer.pipeline.repo.watch.time }
    indexer.pipeline

/-- Fetches a batch of a chain and commits it. -/
def takeBatch (context : IndexerContext τ (Watched σ)) (id : ChainId)
    (indexer : Indexer τ (Watched σ)) : Indexer τ (Watched σ) :=
  let fetched := (indexer.runTask context id).runTask context id
  { fetched with pipeline := (fetched.advanced context).2 }

theorem Timed.takeBatch {context : IndexerContext τ (Watched σ)}
    {indexer : Indexer τ (Watched σ)} {status : PipelineStatus} {id : ChainId}
    (h : Timed context indexer false)
    (hstatus : (((indexer.runTask context id).runTask context id).advanced context).1 =
      .ok status) : Timed context (indexer.takeBatch context id) false :=
  ((h.fetch id).fetch id).advance none (Prod.ext hstatus rfl)

/-- An indexer of a chain with an event in each of its first two blocks, which is to prune as seldom
as can be asked for. -/
def seldomContext : IndexerContext Unit Store :=
  { sampleContext with config := sampleContext.config.withPruneInterval Word.max }

def seldomStart : Indexer Unit (Watched Store) :=
  (start seldomContext.watched (.ofList [(1, ())]) ⟨Store.empty, ⟨0, [], []⟩⟩).2

/-- A run of it that has committed both events at one time. -/
def seldomRun : Indexer Unit (Watched Store) :=
  (seldomStart.takeBatch seldomContext.watched 1).takeBatch seldomContext.watched 1

theorem seldomRun_timed : Timed seldomContext.watched seldomRun false := by
  let context := seldomContext.watched
  let between := seldomStart.takeBatch context 1
  have hfirst : (((seldomStart.runTask context 1).runTask context 1).advanced context).1 =
      .ok .advanced := by decide +kernel
  have hsecond : (((between.runTask context 1).runTask context 1).advanced context).1 =
      .ok .advanced := by decide +kernel
  have hstarted : Timed context seldomStart false :=
    .start rfl rfl (Prod.ext (by decide +kernel) rfl)
  exact (hstarted.takeBatch hfirst).takeBatch hsecond

/-- Both units prune, though the interval is longer than any time. -/
theorem seldomRun_prunes_twice :
    Word.max < Word.count ∧ Timed seldomContext.watched seldomRun false ∧
      seldomRun.pipeline.repo.watch.Obeys ⟨30000, Word.max⟩ false ∧
      seldomRun.pipeline.repo.watch.prunes = [⟨1, 0, 0⟩, ⟨1, 0, 0⟩] ∧
      ¬ ∀ looks, Timely looks →
        Spaced Word.max (PruningSchedule.pruned ⟨30000, Word.max⟩ ⟨.empty⟩ looks) := by
  have hcount : Word.max < Word.count := by decide
  have hconfig : seldomContext.config.pruning = some ⟨30000, Word.max⟩ := rfl
  obtain ⟨-, hspaced, hruns⟩ := @prunes_respect_interval ⟨30000, Word.max⟩ hcount
  obtain ⟨hobeys, -⟩ := hruns hconfig seldomRun_timed
  refine ⟨hcount, seldomRun_timed, hobeys, by decide +kernel, fun hall => ?_⟩
  exact absurd (hspaced.1 hall) (by decide)

end Indexer

end ChainIndexer
