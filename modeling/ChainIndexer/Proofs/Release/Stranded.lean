import ChainIndexer.Proofs.ExactlyOnce
import ChainIndexer.Proofs.Release.Heads
import Mathlib

/-!
# Events that are never released

An ordered run comes to rest once no fetcher has anything more to bring. All that is pending is
released then, unless some lane has not taken a single batch: a lane knows that it is at the head
only from a batch, and a chain that was at its head when its fetcher started brings none. Such a
lane holds back the events of all other chains for as long as its chain does not grow.
-/

namespace ChainIndexer

theorem ChainSource.AnswersOwn.ofLogs (logs : (chain : ChainId) → ChainLog chain) (head : Nat) :
    (ChainSource.ofLogs logs head).AnswersOwn := by
  intro chain fromBlock toBlock watched before page after hanswer event hevent
  cases hanswer
  exact (logs chain).own event (List.mem_of_mem_filter hevent)

namespace Indexer

variable {τ σ : Type} {context : IndexerContext τ σ} {indexer after : Indexer τ σ} {id : ChainId}
  {task task' : FetcherTask} {source : τ}

/-- The states of a run as they are reached from any stored state, whatever the store answers. The
pipeline and each of the fetchers may go on at any time, and the sources may change at any time. -/
inductive Underway (context : IndexerContext τ σ) : Indexer τ σ → Prop
  | start {indexer : Indexer τ σ} {sources : Table ChainId τ} {repo : σ}
      (hstart : start context sources repo = (.ok (), indexer)) : Underway context indexer
  | advance {indexer : Indexer τ σ} {now : Int} {status : PipelineStatus} {pipeline : Pipeline σ}
      (h : Underway context indexer) (awaited : Option (List ChainId))
      (hadvance : Pipeline.goOn { indexer.pipelineContext context with now := now } awaited
        indexer.pipeline = (.ok status, pipeline)) :
      Underway context { indexer with pipeline := pipeline }
  | fetch {indexer : Indexer τ σ} (h : Underway context indexer) (id : ChainId) :
      Underway context (indexer.runTask context id)
  | wait {indexer : Indexer τ σ} (h : Underway context indexer) (sources : Table ChainId τ)
      (clock : Nat) (awaited : Option (List ChainId)) :
      Underway context { indexer with sources := sources, clock := clock, awaited := awaited }
  | stop {indexer : Indexer τ σ} (h : Underway context indexer) :
      Underway context indexer.requestStop

/-- Whether the lanes of an indexer attend to the heads of their chains. -/
def Attentive (indexer : Indexer τ σ) : Prop :=
  Attends indexer.pipeline.orderer indexer.pipeline.tasks

/-! ### Steps of fetchers -/

theorem Attentive.changeTask (h : indexer.Attentive)
    (htask : indexer.pipeline.tasks.get? id = some task)
    (hawaits : ∀ lane : Lane, lane.Awaits task id → lane.Awaits task' id) :
    (indexer.changeTask id task').Attentive := by
  have hchanged := Attends.changeAt (f := fun lane => lane) h htask fun lane hrooted hlane =>
    ⟨hrooted, hawaits lane hlane⟩
  refine hchanged.of_lanes h.mode h.room fun other lane hget => ⟨lane, ?_, fun h => h, fun _ h => h⟩
  rw [Orderer.changeLane, Table.get?_modify]
  split
  next hother =>
    rw [← hother, Option.map_id']
    exact hget
  next => exact hget

theorem Attentive.closeLane (h : indexer.Attentive) (id : ChainId) :
    (indexer.closeLane id).Attentive := by
  refine h.of_lanes h.mode h.room fun other lane hget => ?_
  change (indexer.pipeline.orderer.lanes.modify id _).get? other = some lane at hget
  rw [Table.get?_modify] at hget
  split at hget
  next hother =>
    obtain ⟨before, hbefore, rfl⟩ := Option.map_eq_some_iff.1 hget
    have halike : before.Alike { before with queue := before.queue.close } := ⟨rfl, rfl, rfl, rfl⟩
    exact ⟨before, hother ▸ hbefore, halike.rooted, fun _ hawaits => hawaits.alike halike⟩
  next => exact ⟨lane, hget, fun h => h, fun _ h => h⟩

theorem Attentive.takeRound (h : indexer.Attentive) (hown : context.source.AnswersOwn)
    (htask : indexer.pipeline.tasks.get? id = some task) (hidle : task.sending = [])
    (hfetching : task.isFetching = true) (source : τ) :
    (indexer.takeRound context id task source).Attentive := by
  cases hround : indexer.round context id task source with
  | mk result state =>
    refine takeRound_induction (Q := fun pipeline => Attends pipeline.orderer pipeline.tasks)
      Attentive.closeLane hround (fun failures hkept => ?_) ?_
    · exact hkept.of_lanes hkept.mode hkept.room fun _ lane hget =>
        ⟨lane, hget, fun h => h, fun _ h => h⟩
    · exact h.changeTask htask fun lane hawaits =>
        hawaits.afterRound hown hidle hfetching hround _

theorem Attentive.send (h : indexer.Attentive) (htask : indexer.pipeline.tasks.get? id = some task)
    {item : QueueItem} (hphase : task.phase = .send item) :
    (indexer.send id task item).Attentive := by
  refine send_induction (Q := fun pipeline => Attends pipeline.orderer pipeline.tasks)
    Attentive.closeLane ?_
  refine Attends.changeAt h htask fun lane hrooted hawaits =>
    ⟨hrooted.push fun event hevent => hawaits.own event ?_, hawaits.push hphase _⟩
  rwa [FetcherTask.sending_of_send hphase, eventsOf_cons, eventsOf_nil, List.append_nil]

theorem Attentive.runTask (h : indexer.Attentive) (hown : context.source.AnswersOwn)
    (id : ChainId) : (indexer.runTask context id).Attentive := by
  generalize hafter : indexer.runTask context id = after
  cases fetcherStep_of_runTask hafter with
  | idle => exact h
  | round source htask hphase =>
    exact h.takeRound hown htask (FetcherTask.sending_of_round hphase)
      (FetcherTask.isFetching_of_round hphase) source
  | pause dueAt htask hphase =>
    exact h.changeTask htask fun lane hawaits =>
      hawaits.of_task rfl (FetcherTask.sending_of_round (Or.inl hphase)).symm
        (FetcherTask.isFetching_of_round (Or.inl hphase)).symm
  | send htask hphase => exact h.send htask hphase

/-! ### Runs -/

theorem start_attentive {sources : Table ChainId τ} {repo : σ}
    (hmode : context.config.mode = .ordered)
    (hstart : start context sources repo = (.ok (), indexer)) : indexer.Attentive := by
  obtain ⟨booted, booting, -, hfetchers⟩ := start_eq_ok hstart
  have hempty : Attends (Pipeline.ofBooted context.config booted booting).orderer
      (Pipeline.ofBooted context.config booted booting).tasks :=
    ⟨hmode, Nat.le_max_right _ _, fun _ _ hget => (nomatch hget), fun _ _ _ hget => (nomatch hget)⟩
  exact (Attends.lasting _).startFetchers _ _ _ _ hempty hfetchers

theorem Underway.attentive (hmode : context.config.mode = .ordered)
    (hown : context.source.AnswersOwn) (h : Underway context indexer) : indexer.Attentive := by
  induction h with
  | start hstart => exact start_attentive hmode hstart
  | advance _ awaited hadvance ih => exact (Attends.lasting _).goOn awaited _ _ _ ih hadvance
  | fetch _ id ih => exact ih.runTask hown id
  | wait _ _ _ _ ih => exact ih
  | stop _ ih =>
    exact Attends.of_lanes ih ih.mode ih.room fun _ lane hget =>
      ⟨lane, hget, fun h => h, fun _ h => h⟩

/-- Whether nothing is on its way: no queue holds an item, and each lane is finished or has a
fetcher that finds no further block. -/
def Quiet (context : IndexerContext τ σ) (indexer : Indexer τ σ) : Prop :=
  ∀ id lane, indexer.pipeline.orderer.lanes.get? id = some lane →
    lane.queue.items = [] ∧
      (lane.isFinished = true ∨
        ∃ task source, indexer.pipeline.tasks.get? id = some task ∧
          indexer.sources.get? id = some source ∧ (task.phase = .fetch ∨ task.phase = .take) ∧
          (indexer.round context id task source).1 = .ok .atHead)

theorem Attentive.quiescent (h : indexer.Attentive) (hquiet : indexer.Quiet context) :
    indexer.pipeline.orderer.Quiescent := by
  refine ⟨h.mode, h.room, fun id lane hget => ?_⟩
  obtain ⟨hitems, hrest⟩ := hquiet id lane hget
  have hrooted := h.rooted id lane hget
  refine ⟨hitems, fun event hevent => hrooted.own event (List.mem_append_left _ hevent),
    hrooted.unfetched, fun hfetched => hrest.imp_right ?_⟩
  rintro ⟨task, source, htask, -, hphase, hround⟩
  by_contra hlive
  rw [Bool.not_eq_true] at hlive
  obtain ⟨block, hblock⟩ := Option.isSome_iff_exists.1 hfetched
  have hsending := FetcherTask.sending_of_round hphase
  have hfetching := FetcherTask.isFetching_of_round hphase
  have hreached : lane.reaching (lane.incoming task) = some false := by
    rw [Lane.incoming, hitems, hsending, Lane.reaching, Lane.reached, hblock, hlive]
    rfl
  -- The fetcher knows of a further block, so it did not find itself at the head.
  obtain ⟨head, hhead, hle⟩ := (h.awaits id lane task hget htask).heads hfetching hreached
  have hbelow := (Fetcher.fetchNext_reach (Prod.ext hround rfl)).2 head hhead
  exact absurd hle (Nat.not_le.2 hbelow)

/-- Once an ordered run has come to rest, all that is pending is released, step by step, exactly if
each lane is finished or has taken a batch, or if nothing is pending at all. -/
theorem Underway.released_iff (h : Underway context indexer)
    (hmode : context.config.mode = .ordered) (hown : context.source.AnswersOwn)
    (hquiet : indexer.Quiet context) :
    (∃ steps, (indexer.pipeline.orderer.stepped steps).Empty) ↔
      indexer.pipeline.orderer.Empty ∨ indexer.pipeline.orderer.AllFetched :=
  ((h.attentive hmode hown).quiescent hquiet).exists_empty_iff

/-! ### A sample -/

/-- Two chains, the second one with an event in its second block. -/
def heldLogs (chain : ChainId) : ChainLog chain :=
  { sampleLogs chain with
    events := if chain = 2 then [.placed 2 1 0] else []
    inOrder := by
      unfold InOrder
      split <;> decide
    own := by
      split
      next hchain =>
        subst hchain
        decide
      next => exact fun _ hmem => absurd hmem List.not_mem_nil }

/-- An ordered indexer of these chains, whose heads are their second blocks. -/
def heldContext : IndexerContext Unit Store where
  config :=
    { sampleContext.config with
      mode := .ordered
      chains := [⟨1, 0, none⟩, ⟨2, 0, none⟩]
      contracts := [⟨"", [⟨1, "", "", 0⟩, ⟨2, "", "", 0⟩], []⟩]
      blocksPerBatch := 2 }
  handlers := sampleContext.handlers
  repo := .inMemory
  source := .ofLogs heldLogs 1
  now := 0
  responseMicros := 0
  waited _ := 0

/-- What a run left behind that had indexed the first chain up to its head. -/
def heldStore : Store :=
  { Store.empty with
    checkpoints := .ofList
      [(1, ⟨1, 0, none, some 1, some 1, none, 0, 1, none, some 0, true, false⟩)] }

/-- A run that goes on from there, once it is at the heads of both chains. -/
def heldRun : Indexer Unit Store :=
  let started := (start heldContext (.ofList [(1, ()), (2, ())]) heldStore).2
  let fetched := ((started.runTask heldContext 1).runTask heldContext 2).runTask heldContext 2
  { fetched with
    pipeline := (Pipeline.advance (fetched.pipelineContext heldContext) fetched.pipeline).2 }

theorem heldRun_underway : Underway heldContext heldRun := by
  let started := (start heldContext (.ofList [(1, ()), (2, ())]) heldStore).2
  let fetched := ((started.runTask heldContext 1).runTask heldContext 2).runTask heldContext 2
  have hstarted : Underway heldContext started := .start (Prod.ext (by cbv) rfl)
  have hfetched : Underway heldContext fetched := ((hstarted.fetch 1).fetch 2).fetch 2
  have hadvance : (Pipeline.advance (fetched.pipelineContext heldContext) fetched.pipeline).1 =
      .ok .advanced := by
    subst fetched started
    cbv
  exact hfetched.advance none (Prod.ext hadvance rfl)

/-- What counts of a lane at rest: what is in its queue, whether it is finished, whether it has
taken a batch, and what is pending. -/
def standing (entry : ChainId × Lane) : ChainId × List QueueItem × Bool × Bool × List Event :=
  (entry.1, entry.2.queue.items, entry.2.isFinished, entry.2.fetchedThrough.isSome, entry.2.pending)

/-- Nothing has come to the first lane, and the second one has its event. -/
theorem heldRun_lanes : heldRun.pipeline.orderer.lanes.entries.map standing =
    [(1, [], false, false, []), (2, [], false, true, [.placed 2 1 0])] := by
  cbv

theorem heldRun_atHead (id : ChainId) (hid : id = 1 ∨ id = 2) :
    ∃ task, heldRun.pipeline.tasks.get? id = some task ∧ heldRun.sources.get? id = some () ∧
      task.phase = .fetch ∧ (heldRun.round heldContext id task ()).1 = .ok .atHead := by
  have hround : (heldRun.pipeline.tasks.get? id).map (fun task =>
        (heldRun.sources.get? id, task.phase, (heldRun.round heldContext id task ()).1)) =
      some (some (), .fetch, .ok .atHead) := by
    rcases hid with rfl | rfl <;> cbv
  obtain ⟨task, htask, heq⟩ := Option.map_eq_some_iff.1 hround
  simp only [Prod.mk.injEq] at heq
  exact ⟨task, htask, heq⟩

theorem heldRun_quiet : heldRun.Quiet heldContext := by
  intro id lane hget
  have hlane : standing (id, lane) ∈ heldRun.pipeline.orderer.lanes.entries.map standing :=
    List.mem_map_of_mem (Table.mem_entries_iff.2 hget)
  rw [heldRun_lanes, standing] at hlane
  simp only [List.mem_cons, List.not_mem_nil, or_false, Prod.mk.injEq] at hlane
  have hitems : lane.queue.items = [] := hlane.elim (·.2.1) (·.2.1)
  obtain ⟨task, htask, hsource, hphase, hround⟩ := heldRun_atHead id (hlane.imp (·.1) (·.1))
  exact ⟨hitems, Or.inr ⟨task, (), htask, hsource, Or.inl hphase, hround⟩⟩

/-- The event of the second chain is never released in that run: the first chain is at its head, but
its lane has taken no batch that says so. -/
theorem heldRun_strands :
    Underway heldContext heldRun ∧ heldRun.Quiet heldContext ∧
      ¬ ∃ steps, (heldRun.pipeline.orderer.stepped steps).Empty := by
  have hlane : ∀ held ∈ [(1, [], false, false, []), (2, [], false, true, [Event.placed 2 1 0])],
      ∃ lane, heldRun.pipeline.orderer.lanes.get? held.1 = some lane ∧
        standing (held.1, lane) = held := by
    intro held hheld
    rw [← heldRun_lanes] at hheld
    obtain ⟨⟨id, lane⟩, hentry, rfl⟩ := List.mem_map.1 hheld
    exact ⟨lane, Table.mem_entries_iff.1 hentry, rfl⟩
  have hown : heldContext.source.AnswersOwn := .ofLogs heldLogs 1
  refine ⟨heldRun_underway, heldRun_quiet, fun hreleased => ?_⟩
  rcases (heldRun_underway.released_iff rfl hown heldRun_quiet).1 hreleased with hempty | hfetched
  · obtain ⟨lane, hget, hstanding⟩ := hlane _ (List.mem_cons_of_mem _ List.mem_cons_self)
    simp only [standing, Prod.mk.injEq, hempty 2 lane hget] at hstanding
    exact absurd hstanding.2.2.2.2 (List.cons_ne_nil _ _).symm
  · obtain ⟨lane, hget, hstanding⟩ := hlane _ List.mem_cons_self
    simp only [standing, Prod.mk.injEq] at hstanding
    have hlacks := hfetched 1 lane hget
    rw [hstanding.2.2.1, hstanding.2.2.2.1] at hlacks
    exact hlacks.elim nofun nofun

end Indexer

end ChainIndexer
