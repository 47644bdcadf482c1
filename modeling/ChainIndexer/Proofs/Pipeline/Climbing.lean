import ChainIndexer.Proofs.Pipeline.Pacing
import ChainIndexer.Proofs.Release.Reports

/-!
# Lanes that only climb

A fetcher goes on behind the last block that it brought. If its source keeps to the blocks that it
is asked for, what a lane still has to commit thus lies in the first block that is not processed, or
above it, in the order of its blocks.
-/

namespace ChainIndexer

/-- Whether a source answers from the first block that it is asked for, through the last one that it
says is covered. -/
def ChainSource.AnswersFrom {τ : Type} (source : ChainSource τ) : Prop :=
  ∀ chain fromBlock toBlock watched before page after, fromBlock ≤ toBlock →
    source.events chain fromBlock toBlock watched before = (.ok page, after) →
      fromBlock ≤ page.lastBlock.number ∧
        ∀ event ∈ page.events, fromBlock ≤ event.block ∧ event.block ≤ page.lastBlock.number

theorem Checkpoint.openAfter_le_resumeBlock (checkpoint : Checkpoint) :
    openAfter checkpoint.processed ≤ checkpoint.resumeBlock := by
  rw [resumeBlock]
  cases hskip : checkpoint.skipThrough with
  | some position =>
    have habove := (Option.filter_eq_some_iff.1 hskip).2
    cases hprocessed : checkpoint.processed with
    | none => exact Nat.zero_le _
    | some processed =>
      rw [hprocessed] at habove
      exact of_decide_eq_true habove
  | none =>
    cases checkpoint.processed with
    | none => exact Nat.zero_le _
    | some processed => exact Nat.le_max_left ..

/-- Whatever a fetcher that is over still sends has no events. -/
theorem FetcherTask.sending_of_over {task : FetcherTask} (h : task.isFetching = false)
    (last : Option Block) : eventsOf task.sending = [] ∧ Contiguous last task.sending := by
  rw [isFetching] at h
  rw [sending]
  cases hphase : task.phase with
  | fetch =>
    rw [hphase] at h
    cases h
  | take =>
    rw [hphase] at h
    cases h
  | ended => exact ⟨rfl, trivial⟩
  | send item =>
    cases item with
    | batch batch =>
      rw [hphase] at h
      cases h
    | reorg reorg => exact ⟨rfl, trivial, trivial⟩
    | finished => exact ⟨rfl, trivial, trivial⟩

/-- Whether all that a lane has, and all that its fetcher brings, goes on from what is processed. -/
structure Standing.Climbs (id : ChainId) (standing : Standing) : Prop where
  own : standing.IsOf id
  pending : RunsThrough standing.lane.pending standing.lane.fetchedThrough
  incoming : Contiguous standing.lane.fetchedThrough (standing.lane.incoming standing.task)
  above : ∀ event ∈ standing.lane.ahead standing.task,
    openAfter standing.tracked.processed ≤ event.block
  next : standing.task.isFetching = true →
    (∀ last ∈ endOf standing.lane.fetchedThrough (standing.lane.incoming standing.task),
      standing.task.fetcher.nextBlock = last.number + 1) ∧
    openAfter standing.tracked.processed ≤ standing.task.fetcher.nextBlock

namespace Standing.Climbs

variable {id : ChainId} {standing : Standing}

theorem start (chain : Chain) (checkpoint : Checkpoint) (window : BlockWindow)
    (settings : FetchSettings) (generation clock depth : Nat) (stored : Option Checkpoint) :
    Climbs chain.id ⟨.start chain.id depth,
      .start (.start chain checkpoint window settings) generation clock, checkpoint, stored⟩ := by
  refine ⟨.start chain checkpoint window settings generation clock depth stored, ?_, trivial, ?_,
    fun _ => ⟨fun _ hnone => (nomatch hnone), checkpoint.openAfter_le_resumeBlock⟩⟩
  · exact ⟨List.Pairwise.nil, fun _ hevent => absurd hevent List.not_mem_nil⟩
  · exact fun _ hevent => absurd hevent List.not_mem_nil

theorem close (h : standing.Climbs id) (hasSender isClosed : Bool) :
    Climbs id { standing with
      lane := { standing.lane with
        queue := { standing.lane.queue with hasSender := hasSender }, isClosed := isClosed } } :=
  ⟨h.own.close hasSender isClosed, h.pending, h.incoming, h.above, h.next⟩

theorem absorb (h : standing.Climbs id) {item : QueueItem} {rest : List QueueItem}
    (hitems : standing.lane.queue.items = item :: rest) (hempty : standing.lane.pending = []) :
    Climbs id { standing with
      lane := { standing.lane with
        queue := { standing.lane.queue with items := rest } }.absorb item } := by
  let taken : Lane :=
    { standing.lane with queue := { standing.lane.queue with items := rest } }.absorb item
  have hincoming : standing.lane.incoming standing.task = item :: taken.incoming standing.task :=
    Lane.incoming_absorb _ hitems
  have hthrough : taken.fetchedThrough = item.through standing.lane.fetchedThrough :=
    Lane.fetchedThrough_absorb _ item
  have hahead : taken.ahead standing.task = standing.lane.ahead standing.task := by
    rw [Lane.ahead, Lane.ahead, hincoming, eventsOf_cons, ← List.append_assoc]
    exact congrArg (· ++ _) (Lane.absorb_pending _ item)
  have hcontiguous := h.incoming
  have hnext := h.next
  rw [hincoming] at hcontiguous hnext
  obtain ⟨hgoes, hrest⟩ := hcontiguous
  refine ⟨h.own.absorb hitems, ?_, ?_, ?_, fun hfetching => ?_⟩
  · cases item with
    | batch batch =>
      change RunsThrough (standing.lane.pending ++ batch.events) (some batch.lastBlock)
      rw [hempty, List.nil_append]
      exact ⟨hgoes.2.sorted.imp Position.block_le_of_le, fun event hevent =>
        ⟨batch.lastBlock, rfl, (hgoes.2.inside event hevent).2⟩⟩
    | reorg reorg => exact h.pending
    | finished => exact h.pending
  · change Contiguous taken.fetchedThrough _
    rw [hthrough]
    exact hrest
  · change ∀ event ∈ taken.ahead standing.task, _
    rw [hahead]
    exact h.above
  · obtain ⟨hlast, hopen⟩ := hnext hfetching
    refine ⟨?_, hopen⟩
    change ∀ last ∈ endOf taken.fetchedThrough _, _
    rw [hthrough]
    exact hlast

theorem drain (h : standing.Climbs id) :
    Climbs id { standing with lane := standing.lane.drainReady } :=
  Standing.drained h (fun hkept isClosed => hkept.close _ isClosed) fun hkept hitems hempty =>
    hkept.absorb hitems hempty

/-! ### Reports -/

section Report

variable {committed rest : List Event} {progress : Progress} {recorded : List RecordedBlock}
  {lane : Lane}

/-- What is left lies above what a report says is processed, and so does what is to come. -/
theorem openAfter_processed_le (h : standing.Climbs id)
    (hpending : standing.lane.pending = committed ++ rest) :
    (∀ event ∈ rest ++ eventsOf (standing.lane.incoming standing.task),
      openAfter (Lane.processed { standing.lane with pending := rest }) ≤ event.block) ∧
    (standing.task.isFetching = true →
      openAfter (Lane.processed { standing.lane with pending := rest }) ≤
        standing.task.fetcher.nextBlock) := by
  obtain ⟨hsorted, hthrough⟩ := h.pending
  rw [hpending] at hsorted hthrough
  cases rest with
  | nil =>
    change (∀ event ∈ eventsOf _, openAfter (standing.lane.fetchedThrough.map (·.number)) ≤ _) ∧
      (_ → openAfter (standing.lane.fetchedThrough.map (·.number)) ≤ _)
    cases hfetched : standing.lane.fetchedThrough with
    | none => exact ⟨fun _ _ => Nat.zero_le _, fun _ => Nat.zero_le _⟩
    | some last =>
      refine ⟨fun event hevent => ?_, fun hfetching => ?_⟩
      · exact (h.incoming.events event hevent).1 last hfetched
      · obtain ⟨stop, hstop, hle⟩ := h.incoming.le_endOf last hfetched
        rw [(h.next hfetching).1 stop hstop]
        exact Nat.succ_le_succ hle
  | cons first others =>
    obtain ⟨last, hlast, hle⟩ := hthrough first (by simp)
    have hothers := (List.pairwise_cons.1 (List.pairwise_append.1 hsorted).2.1).1
    change (∀ event ∈ _, openAfter (Word.checkedSub first.block 1) ≤ _) ∧
      (_ → openAfter (Word.checkedSub first.block 1) ≤ _)
    rw [openAfter_checkedSub]
    refine ⟨fun event hevent => ?_, fun hfetching => ?_⟩
    · rcases List.mem_append.1 hevent with hleft | hnew
      · rcases List.mem_cons.1 hleft with rfl | hlater
        · exact Nat.le_refl _
        · exact hothers event hlater
      · have habove := (h.incoming.events event hnew).1 last hlast
        omega
    · obtain ⟨stop, hstop, hstop_le⟩ := h.incoming.le_endOf last hlast
      rw [(h.next hfetching).1 stop hstop]
      omega

theorem report (h : standing.Climbs id) (hpending : standing.lane.pending = committed ++ rest)
    (hprogress : Lane.progress { standing.lane with pending := rest } committed =
      (some (progress, recorded), lane)) (now : Int) (stored : Option Checkpoint) :
    Climbs id ⟨lane, standing.task, standing.tracked.update progress now, stored⟩ := by
  have hown := h.own.report hpending hprogress (standing.tracked.update progress now) stored
  obtain ⟨hprocessed, -, -, unrecorded, rfl⟩ := Lane.report_eq hprogress
  obtain ⟨hleft, hnext⟩ := h.openAfter_processed_le hpending
  have habove := h.above
  rw [Lane.ahead, hpending, List.append_assoc] at habove
  have hopen : openAfter (standing.tracked.update progress now).processed =
      max (openAfter standing.tracked.processed)
        (openAfter (Lane.processed { standing.lane with pending := rest })) :=
    (Checkpoint.openAfter_update ..).trans (congrArg (max _ <| openAfter ·) hprocessed)
  obtain ⟨hsorted, hthrough⟩ := h.pending
  rw [hpending] at hsorted hthrough
  refine ⟨hown, ⟨(List.pairwise_append.1 hsorted).2.1, fun event hevent =>
    hthrough event (List.mem_append_right _ hevent)⟩, h.incoming, fun event hevent => ?_,
    fun hfetching => ⟨(h.next hfetching).1, ?_⟩⟩
  · change openAfter (standing.tracked.update progress now).processed ≤ _
    rw [hopen]
    exact Nat.max_le.2 ⟨habove event (List.mem_append_right _ hevent), hleft event hevent⟩
  · change openAfter (standing.tracked.update progress now).processed ≤ _
    rw [hopen]
    exact Nat.max_le.2 ⟨(h.next hfetching).2, hnext hfetching⟩

end Report

theorem upheld (chains : List Chain) : Upheld chains Climbs fun _ => True where
  chain := fun h => h.own.chain
  own := fun h => h.own.pending
  drain := drain
  takeReorg := fun h =>
    ⟨(Standing.IsOf.upheld chains).takeReorg h.own, h.pending, h.incoming, h.above, h.next⟩
  report := fun h hpending hprogress now => h.report hpending hprogress now _
  reported := fun _ _ _ _ _ _ => trivial
  rewind := fun _ _ => trivial
  start := fun _ _ settings window generation clock depth stored =>
    start _ _ window settings generation clock depth stored

/-! ### Fetchers -/

/-- What a fetcher does next goes on from what is processed if this holds of what it is about to
send. -/
theorem with_task (h : standing.Climbs id) (hidle : standing.task.sending = [])
    {task : FetcherTask} (hown : IsOf id { standing with task := task })
    (hsending : Contiguous (endOf standing.lane.fetchedThrough standing.lane.queue.items)
      task.sending)
    (habove : ∀ event ∈ eventsOf task.sending,
      openAfter standing.tracked.processed ≤ event.block)
    (hnext : task.isFetching = true →
      (∀ last ∈ endOf (endOf standing.lane.fetchedThrough standing.lane.queue.items) task.sending,
        task.fetcher.nextBlock = last.number + 1) ∧
      openAfter standing.tracked.processed ≤ task.fetcher.nextBlock) :
    Climbs id { standing with task := task } := by
  have hqueued := standing.lane.incoming_of_idle hidle
  have hincoming := h.incoming
  have hahead := h.above
  rw [Lane.ahead] at hahead
  rw [hqueued] at hincoming hahead
  refine ⟨hown, h.pending, contiguous_append.2 ⟨hincoming, hsending⟩, fun event hevent => ?_,
    fun hfetching => ?_⟩
  · change event ∈ standing.lane.pending ++ eventsOf (standing.lane.queue.items ++ _) at hevent
    rw [eventsOf_append, ← List.append_assoc] at hevent
    exact (List.mem_append.1 hevent).elim (hahead event) (habove event)
  · change (∀ last ∈ endOf _ (standing.lane.queue.items ++ _), _) ∧ _
    rw [endOf_append]
    exact hnext hfetching

/-- A fetcher that is over goes on nowhere. -/
theorem of_over (h : standing.Climbs id) (hidle : standing.task.sending = []) {task : FetcherTask}
    (hown : IsOf id { standing with task := task }) (hover : task.isFetching = false) :
    Climbs id { standing with task := task } := by
  obtain ⟨hevents, hsending⟩ := task.sending_of_over hover
    (endOf standing.lane.fetchedThrough standing.lane.queue.items)
  refine h.with_task hidle hown hsending (fun event hevent => ?_) fun hfetching => ?_
  · rw [hevents] at hevent
    cases hevent
  · rw [hover] at hfetching
    cases hfetching

variable {τ : Type} {context : FetchContext τ} {source : τ} {result : Except FetchError Fetched}
  {state : FetchState τ}

theorem round (h : standing.Climbs id) (hsource : context.source.AnswersOwn)
    (hfrom : context.source.AnswersFrom) (hpaced : standing.task.Paced)
    (hidle : standing.task.sending = []) (hfetching : standing.task.isFetching = true)
    (hround : Fetcher.fetchNext context ⟨standing.task.fetcher, source, 0⟩ = (result, state))
    (clock : Nat) :
    Climbs id { standing with
      task := { standing.task with fetcher := state.fetcher }.afterRound clock result } := by
  have hown := h.own.round hsource hfetching hround clock
  obtain ⟨hlast, hopen⟩ := h.next hfetching
  rw [standing.lane.incoming_of_idle hidle] at hlast
  cases Fetcher.round_of_fetchNext hround with
  | finished => exact h.of_over hidle hown rfl
  | headFailed => exact h.of_over hidle hown rfl
  | eventsFailed => exact h.of_over hidle hown rfl
  | atHead hstays =>
    refine h.with_task hidle hown trivial (fun _ hevent => absurd hevent List.not_mem_nil)
      fun _ => ?_
    change (∀ last ∈ endOf _ _, state.fetcher.nextBlock = _) ∧ _ ≤ state.fetcher.nextBlock
    rw [hstays.nextBlock]
    exact ⟨hlast, hopen⟩
  | @batch head asked answered page hend hasked hhead hle hstays hpage hfollows =>
    obtain ⟨toBlock, before, last, hasks, hanswer⟩ :=
      Fetcher.answered_of_requestEvents hasked (hpaced hfetching) hend hle hpage
    obtain ⟨hrange, hinside⟩ := hfrom _ _ _ _ _ _ _ hasks hanswer
    have hcontained : (Fetcher.toBatch context answered.fetcher head page).1.Contained := by
      refine ⟨?_, Event.sortByPosition_pairwise _, fun event hevent => ?_⟩
      · exact hstays.nextBlock.trans_le hrange
      · have hwanted := Event.mem_sortByPosition.1 hevent
        exact (hinside event (List.mem_of_mem_filter hwanted)).imp_left hstays.nextBlock.trans_le
    refine h.with_task hidle hown ⟨⟨fun last hmem => ?_, hcontained⟩, trivial⟩
      (fun event hevent => ?_) fun _ => ⟨fun last hmem => ?_, ?_⟩
    · exact hstays.nextBlock.trans (hlast last hmem)
    · rw [FetcherTask.sending] at hevent
      change event ∈ (Fetcher.toBatch context answered.fetcher head page).1.events ++ [] at hevent
      rw [List.append_nil] at hevent
      have hfirst := (hcontained.inside event hevent).1
      exact Nat.le_trans (hopen.trans_eq hstays.nextBlock.symm) hfirst
    · cases hmem
      rfl
    · exact Nat.le_succ_of_le (Nat.le_trans hopen hrange)
  | @fork _ _ _ _ _ located =>
    cases located with
    | error error => exact h.of_over hidle hown rfl
    | ok reorg => exact h.of_over hidle hown rfl

theorem pause (h : standing.Climbs id) (hphase : standing.task.phase = .fetch) (dueAt : Nat) :
    Climbs id { standing with task := standing.task.goOn .take dueAt } := by
  have hidle := FetcherTask.sending_of_round (Or.inl hphase)
  have hfetching := FetcherTask.isFetching_of_round (Or.inl hphase)
  have hnext := h.next hfetching
  rw [standing.lane.incoming_of_idle hidle] at hnext
  exact h.with_task hidle (h.own.pause hphase dueAt) trivial
    (fun _ hevent => absurd hevent List.not_mem_nil) fun _ => hnext

theorem send (h : standing.Climbs id) {item : QueueItem}
    (hphase : standing.task.phase = .send item) (clock : Nat) :
    Climbs id { standing with
      lane := { standing.lane with queue := standing.lane.queue.push item }
      task := standing.task.goOn (FetcherTask.phaseAfter item) clock } := by
  have hown := h.own.send hphase clock
  have hsent := standing.lane.incoming_push hphase clock
  have hfetching := FetcherTask.isFetching_phaseAfter hphase clock
  have habove := h.above
  rw [Lane.ahead, ← hsent] at habove
  refine ⟨hown, h.pending, ?_, habove, ?_⟩
  · rw [hsent]
    exact h.incoming
  · rw [hsent, hfetching]
    exact h.next

end Standing.Climbs

end ChainIndexer
