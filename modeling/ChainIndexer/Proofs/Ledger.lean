import ChainIndexer.Proofs.Counters
import ChainIndexer.Proofs.Fork.Boundary

/-!
# What was ever committed

A ledger lists the events that runs committed, one run after the other, whatever became of them
later. The checkpoint of a chain always counts the events of the chain on the ledger. The store has
the same events as long as no rollback takes one of them, and so what the checkpoint says holds of
the store exactly as long.
-/

namespace ChainIndexer

variable {τ σ : Type} {orderly : Prop}

theorem Tally.of_resumed (stored : Table ChainId Checkpoint) (chain : Chain) :
    Tally.of (some (Tracker.resumed stored chain)) = Tally.of (stored.get? chain.id) := by
  rw [Tracker.resumed]
  cases stored.get? chain.id <;> rfl

/-- Whether an indexer keeps all it commits until a rollback takes it, and commits to the chains
what happened on them. In an orderly run sources answer from the first block they are asked for. -/
structure IndexerContext.Counting (context : IndexerContext τ σ) (view : σ → Store)
    (orderly : Prop) : Prop where
  repo : context.repo.Backed Repo.inMemory view
  pruning : context.config.pruning = none
  own : context.source.AnswersOwn
  range : orderly → context.source.AnswersFrom

namespace Indexer

/-- What may happen next in a run, and whether an error has ended it then. -/
inductive Turns (context : IndexerContext τ σ) (indexer : Indexer τ σ) :
    Bool → Indexer τ σ → Prop
  | move {after : Indexer τ σ} (hmove : Moves context indexer after) :
      Turns context indexer false after
  | fail {now : Int} {error : IndexingError} {pipeline : Pipeline σ}
      (awaited : Option (List ChainId))
      (hfails : Pipeline.goOn { indexer.pipelineContext context with now := now } awaited
        indexer.pipeline = (.error error, pipeline)) :
      Turns context indexer true { indexer with pipeline := pipeline }

/-- The states of runs with the events that were ever committed, in this order, since the data was
dropped last. A run may end at any time, or by an error, and another one with other chains, settings
and sources may go on from its store. In an orderly run with a common order of the chains, reorgs
find no event above their safe block that is older than it. -/
inductive Ledger (view : σ → Store) (orderly : Prop) :
    IndexerContext τ σ → Indexer τ σ → (ended : Bool) → List Event → Prop
  | boot {context : IndexerContext τ σ} {indexer : Indexer τ σ} {sources : Table ChainId τ}
      {state : σ} (hcontext : context.Counting view orderly)
      (hevents : (view state).rawEvents = []) (hcheckpoints : (view state).checkpoints = .empty)
      (hstart : start context sources state = (.ok (), indexer)) :
      Ledger view orderly context indexer false []
  | turn {context : IndexerContext τ σ} {indexer after : Indexer τ σ} {ended : Bool}
      {committed : List Event} (h : Ledger view orderly context indexer false committed)
      (hclocked : orderly → context.config.mode = .ordered → ∀ reorg orderer,
        indexer.pipeline.orderer.nextStep = (.reorg reorg, orderer) →
          (view indexer.pipeline.repo).IsClocked reorg)
      (hturn : Turns context indexer ended after) :
      Ledger view orderly context after ended (committed ++
        (view after.pipeline.repo).addedSince (view indexer.pipeline.repo))
  | restart {context renewed : IndexerContext τ σ} {indexer after : Indexer τ σ} {ended : Bool}
      {committed : List Event} {sources : Table ChainId τ} {state : σ}
      (h : Ledger view orderly context indexer ended committed)
      (hcontext : renewed.Counting view orderly) (hstate : view state = view indexer.pipeline.repo)
      (hstart : start renewed sources state = (.ok (), after))
      (hkept : view after.pipeline.repo = view state) :
      Ledger view orderly renewed after false committed
  | reset {context renewed : IndexerContext τ σ} {indexer after : Indexer τ σ} {ended : Bool}
      {committed : List Event} {sources : Table ChainId τ} {state : σ}
      (h : Ledger view orderly context indexer ended committed)
      (hcontext : renewed.Counting view orderly) (hstate : view state = view indexer.pipeline.repo)
      (hstart : start renewed sources state = (.ok (), after))
      (hevents : (view after.pipeline.repo).rawEvents = [])
      (hcheckpoints : (view after.pipeline.repo).checkpoints = .empty) :
      Ledger view orderly renewed after false []

variable {context : IndexerContext τ σ} {indexer after : Indexer τ σ} {view : σ → Store}
  {ended : Bool} {committed : List Event}

/-- What holds of a run that has not ended. -/
structure Counting (context : IndexerContext τ σ) (view : σ → Store) (orderly : Prop)
    (indexer : Indexer τ σ) : Prop where
  valid : 1 ≤ context.config.minBlocksPerBatch
  paced : indexer.pipeline.Paced
  upholds : indexer.pipeline.Upholds context.config view (Standing.ClimbsIf orderly) fun _ => True
  tallies : indexer.pipeline.Tallies view

/-- A run starts from what is stored, or drops all of it. -/
theorem start_view (hrepo : context.repo.Backed Repo.inMemory view) {sources : Table ChainId τ}
    {state : σ} (hstart : start context sources state = (.ok (), indexer)) :
    view indexer.pipeline.repo = view state ∨
      ∃ resetCount, view indexer.pipeline.repo = { Store.empty with resetCount := resetCount } := by
  obtain ⟨booted, repo, hboot, hrestarts⟩ := restarts_of_start hrepo hstart
  rw [hrestarts.sameBooks.view]
  exact (Pipeline.boot_eq_ok hboot).2.1

theorem start_counting (hcontext : context.Counting view orderly) {sources : Table ChainId τ}
    {state : σ} (hkeyed : ∀ id checkpoint, (view state).checkpoints.get? id = some checkpoint →
      checkpoint.chain = id) (hstart : start context sources state = (.ok (), indexer)) :
    (∀ id checkpoint, (view indexer.pipeline.repo).checkpoints.get? id = some checkpoint →
      checkpoint.chain = id) ∧ indexer.Counting context view orderly := by
  obtain ⟨hvalid, hpaced⟩ := start_paced hcontext.repo hstart
  have hupholds := start_upholds hcontext.repo
    (Standing.ClimbsIf.upheld orderly context.config.chains) hkeyed
    (fun _ _ => trivial) (fun _ _ _ _ => trivial) hstart
  obtain ⟨booted, repo, hboot, hrestarts⟩ := restarts_of_start hcontext.repo hstart
  obtain ⟨hvalidate, hreset, rfl⟩ := Pipeline.boot_eq_ok hboot
  have hbooks := hrestarts.sameBooks
  have hkeyed : ∀ id checkpoint, (view repo).checkpoints.get? id = some checkpoint →
      checkpoint.chain = id := by
    rcases hreset with heq | ⟨resetCount, heq⟩
    · rw [heq]
      exact hkeyed
    · rw [heq]
      exact fun _ _ hget => nomatch hget
  refine ⟨?_, hvalid, hpaced, hupholds, fun id tracked htracked => ?_⟩
  · rw [hbooks.view]
    exact hkeyed
  · rw [hbooks.tracker] at htracked
    obtain ⟨chain, hchain, rfl⟩ := Tracker.exists_of_start htracked
    obtain ⟨-, hresumed⟩ := Tracker.start_values hkeyed (Config.validate_eq_ok hvalidate).1
    rw [← htracked, hbooks.view]
    exact (congrArg Tally.of (hresumed chain hchain)).trans (Tally.of_resumed _ chain)

theorem Moves.counting (hcontext : context.Counting view orderly) (h : Moves context indexer after)
    (hbefore : indexer.Counting context view orderly) : after.Counting context view orderly := by
  obtain ⟨hpaced, hupholds⟩ := h.upholds_paced hcontext.repo hbefore.valid
    (Standing.ClimbsIf.upheld orderly _) (Standing.ClimbsIf.fed hcontext.own hcontext.range)
    hbefore.paced hbefore.upholds
  refine ⟨hbefore.valid, hpaced, hupholds, ?_⟩
  obtain ⟨now, status, hstep⟩ | hbooks := h.cases hcontext.repo
  · exact hstep.tallies hbefore.tallies
  · exact hbefore.tallies.congr hbooks.tracker (congrArg Store.checkpoints hbooks.view)

theorem Turns.leaves (hcontext : context.Counting view orderly)
    (h : Turns context indexer ended after) :
    ∃ now, Pipeline.Leaves { indexer.pipelineContext context with now := now } Repo.inMemory view
      indexer.pipeline (view after.pipeline.repo) := by
  cases h with
  | fail _ hfails => exact ⟨_, Pipeline.leaves_of_goOn hcontext.repo hcontext.pruning hfails⟩
  | move hmove =>
    cases hmove with
    | advance _ hadvance =>
      exact ⟨_, Pipeline.leaves_of_goOn hcontext.repo hcontext.pruning hadvance⟩
    | fetch id =>
      rw [(runTask_sameBooks view indexer id).view]
      exact ⟨0, .same⟩
    | report failure => exact ⟨0, .same⟩
    | wait => exact ⟨0, .same⟩
    | stop => exact ⟨0, .same⟩

/-- Whatever becomes of the events on the ledger, the stored checkpoints count them. -/
theorem Ledger.counting (h : Ledger view orderly context indexer ended committed) :
    context.Counting view orderly ∧
      (∀ id checkpoint, (view indexer.pipeline.repo).checkpoints.get? id = some checkpoint →
        checkpoint.chain = id) ∧
      (∀ id, (view indexer.pipeline.repo).Counts id orderly (committed.filter (·.chain = id))) ∧
      (ended = false → indexer.Counting context view orderly) := by
  induction h with
  | @boot context indexer sources state hcontext hevents hcheckpoints hstart =>
    obtain ⟨hkeyed, hcounting⟩ := start_counting hcontext (fun id checkpoint hget => by
      rw [hcheckpoints] at hget
      cases hget) hstart
    refine ⟨hcontext, hkeyed, fun id => ?_, fun _ => hcounting⟩
    rcases start_view hcontext.repo hstart with heq | ⟨resetCount, heq⟩
    · rw [heq]
      exact .none hevents hcheckpoints
    · rw [heq]
      exact .none rfl rfl
  | turn _ hclocked hturn ih =>
    obtain ⟨hcontext, hkeyed, hcounts, hcounting⟩ := ih
    have hbefore := hcounting rfl
    obtain ⟨now, hleaves⟩ := hturn.leaves hcontext
    refine ⟨hcontext, fun id checkpoint hget => hleaves.chain_of_checkpoint hkeyed hget,
      fun id => hleaves.counts hbefore.upholds hbefore.tallies hclocked (hcounts id), ?_⟩
    intro hrunning
    cases hturn with
    | move hmove => exact hmove.counting hcontext hbefore
    | fail => cases hrunning
  | restart _ hcontext hstate hstart hkept ih =>
    obtain ⟨-, hkeyed, hcounts, -⟩ := ih
    rw [← hstate] at hkeyed hcounts
    obtain ⟨hkeyed, hcounting⟩ := start_counting hcontext hkeyed hstart
    rw [← hkept] at hcounts
    exact ⟨hcontext, hkeyed, hcounts, fun _ => hcounting⟩
  | reset _ hcontext hstate hstart hevents hcheckpoints ih =>
    obtain ⟨-, hkeyed, -, -⟩ := ih
    rw [← hstate] at hkeyed
    obtain ⟨hkeyed, hcounting⟩ := start_counting hcontext hkeyed hstart
    exact ⟨hcontext, hkeyed, fun _ => .none hevents hcheckpoints, fun _ => hcounting⟩

/-- The stored checkpoint of a chain counts the events of the chain that were ever committed, and
keeps the block of the first one. It counts the stored events exactly as long as no rollback has
taken one of them, and in an orderly run that block is the lowest one of theirs so long. -/
theorem Ledger.counters (h : Ledger view orderly context indexer ended committed) (id : ChainId) :
    ((view indexer.pipeline.repo).eventsOf id).Sublist (committed.filter (·.chain = id)) ∧
      ((view indexer.pipeline.repo).checkpoints.get? id = none →
        committed.filter (·.chain = id) = []) ∧
      ∀ checkpoint, (view indexer.pipeline.repo).checkpoints.get? id = some checkpoint →
        checkpoint.events = (committed.filter (·.chain = id)).length ∧
        checkpoint.firstEventBlock = (committed.filter (·.chain = id)).head?.map (·.block) ∧
        (checkpoint.events = ((view indexer.pipeline.repo).eventsOf id).length ↔
          (view indexer.pipeline.repo).eventsOf id = committed.filter (·.chain = id)) ∧
        (orderly →
          (view indexer.pipeline.repo).eventsOf id = committed.filter (·.chain = id) →
          checkpoint.firstEventBlock =
            (((view indexer.pipeline.repo).eventsOf id).map (·.block)).min?) := by
  obtain ⟨-, -, hcounts, -⟩ := h.counting
  obtain ⟨hkept, hevents, hfirst, hlowest⟩ := hcounts id
  generalize committed.filter (·.chain = id) = ever at *
  refine ⟨hkept, fun hnone => ?_, fun checkpoint hget => ?_⟩
  · rw [Store.tally, hnone] at hevents
    exact List.length_eq_zero_iff.1 hevents.symm
  · rw [Store.tally, hget] at hevents hfirst
    refine ⟨hevents, hfirst, ⟨fun hsame => ?_, fun hall => ?_⟩, fun horderly hall => ?_⟩
    · exact hkept.eq_of_length (hsame.symm.trans hevents)
    · rw [hall]
      exact hevents
    · refine hfirst.trans ?_
      rw [hall]
      cases hhead : ever.head? with
      | none =>
        rw [List.head?_eq_none_iff.1 hhead]
        rfl
      | some first =>
        have hlow := (hlowest horderly hall first hhead).2
        refine (List.min?_eq_some_iff.2 ⟨?_, fun block hblock => ?_⟩).symm
        · exact List.mem_map_of_mem (List.mem_of_head? hhead)
        · obtain ⟨event, hevent, rfl⟩ := List.mem_map.1 hblock
          exact hlow event hevent

/-! ### A sample -/

/-- An indexer of a chain with an event in its second block, which a fork there takes. -/
def countedContext (head : Nat) : IndexerContext Bool Store :=
  let twin := twinContext [⟨1, 0, none⟩] head
  { twin with config := { twin.config with mode := .unordered } }

/-- A run of it that committed the event. -/
def countedRun : Indexer Bool Store :=
  let context := countedContext 1
  let started := (start context (.ofList [(1, false)]) Store.empty).2
  let fetched := (started.runTask context 1).runTask context 1
  { fetched with
    pipeline := (Pipeline.advance (fetched.pipelineContext context) fetched.pipeline).2 }

/-- A run that goes on from there, once it has noticed the fork and rolled back. -/
def takenRun : Indexer Bool Store :=
  let context := countedContext 2
  let started := (start context (.ofList [(1, true)]) countedRun.pipeline.repo).2
  let fetched := (started.runTask context 1).runTask context 1
  { fetched with
    pipeline := (Pipeline.advance (fetched.pipelineContext context) fetched.pipeline).2 }

theorem countedContext_counting (head : Nat) : (countedContext head).Counting id True where
  repo := Repo.inMemory_backed
  pruning := rfl
  own := by
    intro chain fromBlock toBlock watched before page after hanswer event hevent
    cases hanswer
    exact (twinLog before chain).own event (List.mem_filter.1 hevent).1
  range := by
    intro _ chain fromBlock toBlock watched before page after hrange hanswer
    obtain ⟨hspans, -⟩ := (ChainSource.Complies.ofVersions twinLog head).events _ _ _ _ _ _ _ hrange
      hanswer
    exact ⟨hspans.range, hspans.events⟩

theorem Ledger.fetch (h : Ledger view orderly context indexer false committed)
    (hmode : context.config.mode = .unordered) (id : ChainId) :
    Ledger view orderly context (indexer.runTask context id) false committed := by
  have hfetched := h.turn (fun _ hordered => by
    rw [hmode] at hordered
    cases hordered) (.move (.fetch id))
  rwa [(runTask_sameBooks view indexer id).view, Store.addedSince, List.drop_length,
    List.append_nil] at hfetched

theorem Ledger.advance (h : Ledger view orderly context indexer false committed)
    (hmode : context.config.mode = .unordered) (added : List Event)
    (hstatus : (Pipeline.advance (indexer.pipelineContext context) indexer.pipeline).1 =
      .ok .advanced)
    (hadded : (view (Pipeline.advance (indexer.pipelineContext context)
      indexer.pipeline).2.repo).addedSince (view indexer.pipeline.repo) = added) :
    Ledger view orderly context { indexer with
      pipeline := (Pipeline.advance (indexer.pipelineContext context) indexer.pipeline).2 } false
      (committed ++ added) := by
  rw [← hadded]
  refine h.turn (fun _ hordered => ?_) (.move (.advance none (Prod.ext hstatus rfl)))
  rw [hmode] at hordered
  cases hordered

theorem countedRun_ledger :
    Ledger id True (countedContext 1) countedRun false (twinLog false 1).events := by
  let context := countedContext 1
  let started := (start context (.ofList [(1, false)]) Store.empty).2
  have hstarted : Ledger id True context started false [] :=
    .boot (countedContext_counting 1) rfl rfl (Prod.ext (by cbv) rfl)
  refine ((hstarted.fetch rfl 1).fetch rfl 1).advance rfl _ ?_ ?_
  · cbv
  · cbv

theorem takenRun_ledger :
    Ledger id True (countedContext 2) takenRun false (twinLog false 1).events := by
  let context := countedContext 2
  let started := (start context (.ofList [(1, true)]) countedRun.pipeline.repo).2
  have hstarted : Ledger id True context started false (twinLog false 1).events :=
    countedRun_ledger.restart (countedContext_counting 2) rfl (Prod.ext (by cbv) rfl) (by cbv)
  exact ((hstarted.fetch rfl 1).fetch rfl 1).advance rfl [] (by cbv) (by cbv)

theorem countedRun_counters :
    ∃ checkpoint, countedRun.pipeline.repo.checkpoints.get? 1 = some checkpoint ∧
      checkpoint.events = (countedRun.pipeline.repo.eventsOf 1).length ∧
      checkpoint.firstEventBlock =
        ((countedRun.pipeline.repo.eventsOf 1).map (·.block)).min? := by
  have hall : countedRun.pipeline.repo.eventsOf 1 =
      (twinLog false 1).events.filter (·.chain = 1) := by
    cbv
  have hstored : (countedRun.pipeline.repo.checkpoints.get? 1).isSome = true := by
    cbv
  obtain ⟨checkpoint, hget⟩ := Option.isSome_iff_exists.1 hstored
  obtain ⟨-, -, hcounts⟩ := Ledger.counters countedRun_ledger 1
  obtain ⟨-, -, hnumber, hlowest⟩ := hcounts checkpoint hget
  exact ⟨checkpoint, hget, hnumber.2 hall, hlowest trivial hall⟩

/-- The rollback takes the event, and the checkpoint still counts it. -/
theorem takenRun_miscounts :
    Ledger id True (countedContext 2) takenRun false (twinLog false 1).events ∧
      ¬ ∀ checkpoint, takenRun.pipeline.repo.checkpoints.get? 1 = some checkpoint →
        checkpoint.events = (takenRun.pipeline.repo.eventsOf 1).length ∧
          checkpoint.firstEventBlock =
            ((takenRun.pipeline.repo.eventsOf 1).map (·.block)).min? := by
  refine ⟨takenRun_ledger, fun hall => ?_⟩
  have hstored : (takenRun.pipeline.repo.checkpoints.get? 1).map (·.events) = some 1 := by
    cbv
  have hevents : takenRun.pipeline.repo.eventsOf 1 = [] := by
    cbv
  obtain ⟨checkpoint, hget, hcount⟩ := Option.map_eq_some_iff.1 hstored
  rw [(hall checkpoint hget).1, hevents] at hcount
  cases hcount

end Indexer

end ChainIndexer
