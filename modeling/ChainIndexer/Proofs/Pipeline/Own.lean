import ChainIndexer.Proofs.Release.Heads
import ChainIndexer.Proofs.Runs

/-!
# What belongs to a chain

If a source answers with events of the chain that it is asked for, all that a lane has and all that
its fetcher brings is of the chain that the lane is for. This holds along every run.
-/

namespace ChainIndexer

/-- Whether an item brings nothing but what is of a chain. -/
def QueueItem.IsOf (id : ChainId) : QueueItem → Prop
  | .batch fetched => ∀ event ∈ fetched.events, event.chain = id
  | .reorg noticed => noticed.chain = id
  | .finished => True

/-- Whether a lane has, and its fetcher brings, nothing but what is of a chain. -/
structure Standing.IsOf (id : ChainId) (standing : Standing) : Prop where
  chain : standing.lane.chain = id
  pending : ∀ event ∈ standing.lane.pending, event.chain = id
  reorg : ∀ reorg ∈ standing.lane.reorg, reorg.chain = id
  incoming : ∀ item ∈ standing.lane.incoming standing.task, item.IsOf id
  fetcher : standing.task.isFetching = true → standing.task.fetcher.chain = id

variable {id : ChainId} {standing : Standing}

/-- What is kept when a lane takes the first item of its queue is kept when it takes all that it
can. -/
theorem Standing.drained {Q : Standing → Prop} (h : Q standing)
    (hclosed : ∀ {standing}, Q standing → ∀ isClosed,
      Q { standing with lane := { standing.lane with isClosed := isClosed } })
    (habsorb : ∀ {standing item rest}, Q standing →
      standing.lane.queue.items = item :: rest → standing.lane.pending = [] →
      Q { standing with
        lane := { standing.lane with
          queue := { standing.lane.queue with items := rest } }.absorb item }) :
    Q { standing with lane := standing.lane.drainReady } := by
  refine Lane.drainItems_induction (P := fun lane items => Q { standing with
      lane := { lane with queue := { lane.queue with items := items } } })
    h (fun _ _ isClosed hkept => hclosed hkept isClosed) fun lane item rest hempty hkept => ?_
  have hnext := habsorb hkept rfl hempty
  cases item <;> exact hnext

namespace Standing.IsOf

theorem close (h : standing.IsOf id) (hasSender isClosed : Bool) :
    IsOf id { standing with
      lane := { standing.lane with
        queue := { standing.lane.queue with hasSender := hasSender }, isClosed := isClosed } } :=
  ⟨h.chain, h.pending, h.reorg, h.incoming, h.fetcher⟩

theorem absorb (h : standing.IsOf id) {item : QueueItem} {rest : List QueueItem}
    (hitems : standing.lane.queue.items = item :: rest) :
    IsOf id { standing with
      lane := { standing.lane with
        queue := { standing.lane.queue with items := rest } }.absorb item } := by
  have hincoming := h.incoming
  rw [Lane.incoming_absorb _ hitems] at hincoming
  obtain ⟨hitem, hrest⟩ := List.forall_mem_cons.1 hincoming
  cases item with
  | batch batch =>
    refine ⟨h.chain, fun event hevent => ?_, h.reorg, hrest, h.fetcher⟩
    exact (List.mem_append.1 hevent).elim (h.pending event) (hitem event)
  | reorg reorg =>
    refine ⟨h.chain, h.pending, fun found hfound => ?_, hrest, h.fetcher⟩
    cases hfound
    exact hitem
  | finished => exact ⟨h.chain, h.pending, h.reorg, hrest, h.fetcher⟩

theorem drain (h : standing.IsOf id) :
    IsOf id { standing with lane := standing.lane.drainReady } :=
  Standing.drained h (fun hkept isClosed => hkept.close _ isClosed) fun hkept hitems _ =>
    hkept.absorb hitems

theorem start (chain : Chain) (checkpoint : Checkpoint) (window : BlockWindow)
    (settings : FetchSettings) (generation clock depth : Nat) (stored : Option Checkpoint) :
    IsOf chain.id ⟨.start chain.id depth,
      .start (.start chain checkpoint window settings) generation clock, checkpoint, stored⟩ := by
  refine ⟨rfl, ?_, ?_, ?_, fun _ => rfl⟩
  · exact fun _ hevent => absurd hevent List.not_mem_nil
  · exact fun _ hreorg => absurd hreorg (Option.not_mem_none _)
  · exact fun _ hitem => absurd hitem List.not_mem_nil

/-- What a lane has left once it has reported is of its chain as before. -/
theorem report (h : standing.IsOf id) {committed rest : List Event} {lane : Lane}
    {reported : Option (Progress × List RecordedBlock)}
    (hpending : standing.lane.pending = committed ++ rest)
    (hprogress : Lane.progress { standing.lane with pending := rest } committed = (reported, lane))
    (tracked : Checkpoint) (stored : Option Checkpoint) :
    IsOf id ⟨lane, standing.task, tracked, stored⟩ := by
  obtain ⟨unrecorded, hasNewProgress, -, hlane⟩ :=
    Lane.progress_lane { standing.lane with pending := rest } committed
  rw [hprogress] at hlane
  dsimp only at hlane
  rw [hlane]
  refine ⟨h.chain, fun event hevent => h.pending event ?_, h.reorg, h.incoming, h.fetcher⟩
  rw [hpending]
  exact List.mem_append_right _ hevent

theorem upheld (chains : List Chain) : Upheld chains Standing.IsOf fun _ => True where
  chain := fun h => h.chain
  own := fun h => h.pending
  drain := drain
  takeReorg := fun h =>
    ⟨h.chain, h.pending, fun _ hreorg => absurd hreorg (Option.not_mem_none _), h.incoming,
      h.fetcher⟩
  report := fun h hpending hprogress _ => h.report hpending hprogress _ _
  reported := fun _ _ _ _ _ _ => trivial
  rewind := fun _ _ => trivial
  start := fun _ _ settings window generation clock depth stored =>
    start _ _ window settings generation clock depth stored

variable {τ : Type} {context : FetchContext τ} {source : τ} {result : Except FetchError Fetched}
  {state : FetchState τ}

/-- A fetcher that ends brings nothing more than it sends. -/
theorem of_ended (h : standing.IsOf id) {task : FetcherTask} (hfetching : task.isFetching = false)
    (hsending : ∀ item ∈ task.sending, item.IsOf id) :
    IsOf id { standing with task := task } := by
  refine ⟨h.chain, h.pending, h.reorg, fun item hitem => ?_, fun hfetches => ?_⟩
  · rcases List.mem_append.1 hitem with hqueued | hsent
    · exact h.incoming item (List.mem_append_left _ hqueued)
    · exact hsending item hsent
  · rw [hfetching] at hfetches
    cases hfetches

theorem round (h : standing.IsOf id) (hown : context.source.AnswersOwn)
    (hfetching : standing.task.isFetching = true)
    (hround : Fetcher.fetchNext context ⟨standing.task.fetcher, source, 0⟩ = (result, state))
    (clock : Nat) :
    IsOf id { standing with
      task := { standing.task with fetcher := state.fetcher }.afterRound clock result } := by
  have hchain := h.fetcher hfetching
  have hqueued : ∀ item ∈ standing.lane.queue.items, item.IsOf id := fun item hitem =>
    h.incoming item (List.mem_append_left _ hitem)
  have hreach := Fetcher.fetchNext_reach hround
  cases Fetcher.round_of_fetchNext hround with
  | finished =>
    refine h.of_ended rfl fun item hitem => ?_
    rw [List.mem_singleton.1 hitem]
    trivial
  | headFailed => exact h.of_ended rfl fun _ hitem => absurd hitem List.not_mem_nil
  | eventsFailed => exact h.of_ended rfl fun _ hitem => absurd hitem List.not_mem_nil
  | atHead hstays =>
    refine ⟨h.chain, h.pending, h.reorg, fun item hitem => hqueued item ?_,
      fun _ => hstays.chain.trans hchain⟩
    exact (List.mem_append.1 hitem).resolve_right List.not_mem_nil
  | batch =>
    obtain ⟨hsame, -, -, hevents⟩ := hreach
    refine ⟨h.chain, h.pending, h.reorg, fun item hitem => ?_, fun _ => hsame.trans hchain⟩
    rcases List.mem_append.1 hitem with hold | hnew
    · exact hqueued item hold
    · rw [List.mem_singleton.1 hnew]
      exact fun event hevent => (hevents hown event hevent).trans hchain
  | @fork _ _ _ _ _ located _ _ _ hstays _ _ hlocated =>
    cases located with
    | error error => exact h.of_ended rfl fun _ hitem => absurd hitem List.not_mem_nil
    | ok reorg =>
      refine h.of_ended rfl fun item hitem => ?_
      rw [List.mem_singleton.1 hitem]
      exact (Fetcher.locateSafeBlock_eq_ok hlocated).1.trans (hstays.chain.trans hchain)

theorem pause (h : standing.IsOf id) (hphase : standing.task.phase = .fetch) (dueAt : Nat) :
    IsOf id { standing with task := standing.task.goOn .take dueAt } := by
  refine ⟨h.chain, h.pending, h.reorg, fun item hitem => h.incoming item ?_, fun _ => ?_⟩
  · exact List.mem_append_left _ ((List.mem_append.1 hitem).resolve_right List.not_mem_nil)
  · exact h.fetcher (FetcherTask.isFetching_of_round (Or.inl hphase))

theorem send (h : standing.IsOf id) {item : QueueItem} (hphase : standing.task.phase = .send item)
    (clock : Nat) :
    IsOf id { standing with
      lane := { standing.lane with queue := standing.lane.queue.push item }
      task := standing.task.goOn (FetcherTask.phaseAfter item) clock } := by
  have hsent := standing.lane.incoming_push hphase clock
  refine ⟨h.chain, h.pending, h.reorg, ?_, fun hfetches => h.fetcher ?_⟩
  · dsimp only
    rw [hsent]
    exact h.incoming
  · exact (FetcherTask.isFetching_phaseAfter hphase clock).symm.trans hfetches

theorem fed {source : ChainSource τ} (hown : source.AnswersOwn) : Fed source Standing.IsOf where
  close := fun h => h.close false _
  pause := fun h hphase dueAt => h.pause hphase dueAt
  round := fun h _ hfetching _ _ _ _ hsource hround clock =>
    h.round (hsource ▸ hown) hfetching hround clock
  send := fun h hphase clock => h.send hphase clock

end Standing.IsOf

end ChainIndexer
