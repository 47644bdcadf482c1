import ChainIndexer.Proofs.Integrity
import ChainIndexer.Proofs.Release.Bounds

/-!
# Ordered runs

An orderer in ordered mode takes events from streams in key order, and its units are processed and
committed as it releases them. If an event overtook another one, the lane of the other one was live
with nothing pending. So, unless two such events change one entity, a reorg makes the last records
of each entity stale, which is what a rollback relies on.
-/

namespace ChainIndexer

/-- Whether a later event stands before a released one, whose release did not wait for it. -/
def Release.Overtook (release later : Release) : Prop :=
  later.event.chain ∈ release.idle ∧ later.event.key < release.event.key

instance (release later : Release) : Decidable (release.Overtook later) :=
  inferInstanceAs (Decidable (_ ∧ _))

theorem Release.Bounds.overtook {release later : Release} (h : release.Bounds later.event)
    (hlt : later.event.key < release.event.key) : release.Overtook later :=
  ⟨h.resolve_right fun hle => EventKey.not_lt.2 hle hlt, hlt⟩

/-- In ordered mode what stands behind a stale event is stale. -/
theorem RollbackScope.invalidates_of_le {reorg : Reorg} {a b : Event} (h : a.key ≤ b.key)
    (hstale : (ofReorg .ordered reorg).invalidatesOrigin a.origin = true) :
    (ofReorg .ordered reorg).invalidatesOrigin b.origin = true := by
  rw [EventKey.le_iff, EventKey.lt_iff] at h
  have hbehind := of_decide_eq_true hstale
  refine decide_eq_true ?_
  simp only [Event.key, Event.origin] at h hbehind ⊢
  unfold ChainId at *
  omega

/-- An orderer with what still comes to its lanes, what it has released, and what this came to. -/
structure OrderedRun where
  /-- What the fetcher of each chain still brings. -/
  coming : ChainId → List QueueItem
  orderer : Orderer
  registry : Registry
  store : Store
  released : List Release

namespace OrderedRun

/-- Puts the next item of a chain into its queue. -/
def arrive (run : OrderedRun) (chain : ChainId) : OrderedRun :=
  match run.coming chain with
  | [] => run
  | item :: rest =>
    { run with
      coming := Function.update run.coming chain rest
      orderer := run.orderer.changeLane chain fun lane =>
        { lane with queue := lane.queue.push item } }

/-- Takes a unit of which some events are applied, and puts in the store that it is committed to. -/
def commit (run : OrderedRun) (handlers : HandlerTable) (events : List Event) (applied : Nat)
    (store : Store) : OrderedRun where
  coming := run.coming
  orderer := ((run.orderer.nextStep.2.restore (events.drop applied)).progress
    (events.take applied)).2.2
  registry := (processEvents Repo.inMemory handlers run.registry events run.store).registry
  store := store
  released := run.released ++
    (Orderer.takeReleases run.orderer.maxEventsPerUnit run.orderer.drain).take applied

/-- Fetches a chain again, with other items to come. -/
def refetch (run : OrderedRun) (chain : ChainId) (items : List QueueItem) (depth : Nat) :
    OrderedRun :=
  { run with
    coming := Function.update run.coming chain items
    orderer := run.orderer.addLane (.start chain depth) }

/-- What an orderer in ordered mode comes to. It starts with a lane for each of some chains; items
arrive, and fetchers end, at any time; whenever it releases a unit this is processed and committed.
After an event that registers addresses the chain of this event is fetched again from there on. -/
inductive Reached (handlers : HandlerTable) : OrderedRun → Prop
  | start {coming : ChainId → List QueueItem} {orderer : Orderer} {registry : Registry}
      (hmode : orderer.mode = .ordered)
      (hlanes : ∀ entry ∈ orderer.lanes.entries,
        entry.1 ≠ 0 ∧ entry.2 = .start entry.1 entry.2.queue.depth)
      (hcoming : ∀ chain, InKeyOrder chain (coming chain)) :
      Reached handlers ⟨coming, orderer, registry, .empty, []⟩
  | arrive {run : OrderedRun} (before : Reached handlers run) (chain : ChainId) :
      Reached handlers (run.arrive chain)
  | close {run : OrderedRun} (before : Reached handlers run) (chain : ChainId) :
      Reached handlers
        { run with
          orderer := run.orderer.changeLane chain fun lane =>
            { lane with queue := lane.queue.close } }
  | signal {run : OrderedRun} (before : Reached handlers run) (failures : List ChainFailure)
      (stopRequested : Bool) :
      Reached handlers
        { run with
          orderer := { run.orderer with failures := failures, stopRequested := stopRequested } }
  | wait {run : OrderedRun} {chain : ChainId} {lane lane' : Lane} (before : Reached handlers run)
      (hlane : run.orderer.lanes.get? chain = some lane) (hwait : lane.waitItem = some lane') :
      Reached handlers { run with orderer := run.orderer.changeLane chain fun _ => lane' }
  | pause {run : OrderedRun} (before : Reached handlers run)
      (hpause : ∀ events, run.orderer.nextStep.1 ≠ .unit events) :
      Reached handlers { run with orderer := run.orderer.nextStep.2 }
  | unit {run : OrderedRun} {events : List Event} {processed : ProcessedUnit}
      {checkpoints : List Checkpoint} {blocks : List RecordedBlock} {store : Store}
      (before : Reached handlers run) (hstep : run.orderer.nextStep.1 = .unit events)
      (hprocess : (processEvents Repo.inMemory handlers run.registry events run.store).result =
        .ok processed)
      (hcommit : run.store.commit
        { rawEvents := events.take processed.applied
          changes := processed.changes
          history := processed.history
          registrations := processed.registrations
          checkpoints := checkpoints
          blocks := blocks } = .ok store) :
      Reached handlers (run.commit handlers events processed.applied store)
  | refetch {run : OrderedRun} {items : List QueueItem} {last : Release}
      (before : Reached handlers run) (hlast : run.released.getLast? = some last)
      (hitems : InKeyOrder last.event.chain items)
      (hfrom : ∀ event ∈ eventsOf items, last.event.key ≤ event.key) (depth : Nat) :
      Reached handlers (run.refetch last.event.chain items depth)

/-- What holds all along an ordered run. -/
structure Upholds (run : OrderedRun) : Prop where
  mode : run.orderer.mode = .ordered
  ahead : run.orderer.Ahead run.coming
  chains : ∀ chain lane, run.orderer.lanes.get? chain = some lane → chain ≠ 0
  released : run.released.Pairwise fun a b => a.Bounds b.event
  bounds : ∀ release ∈ run.released, ∀ chain, ∀ later ∈ run.orderer.future run.coming chain,
    release.Bounds later
  committed : ∃ deeds, run.store.Ledger (writesOf deeds) ∧
    deeds.map (·.event) = run.released.map (·.event)
  configured : ∀ release ∈ run.released, release.event.chain ≠ 0

variable {handlers : HandlerTable} {run : OrderedRun}

/-- A step after which nothing is ahead that was not ahead before upholds what held. -/
theorem Upholds.follows (h : run.Upholds) {orderer : Orderer} {coming : ChainId → List QueueItem}
    (hfollows : orderer.Follows run.orderer coming run.coming) (hmode : orderer.mode = .ordered) :
    { run with coming := coming, orderer := orderer }.Upholds where
  mode := hmode
  ahead := hfollows.ahead h.ahead
  chains := fun chain lane hget => by
    obtain ⟨before, hbefore, _⟩ := hfollows chain lane hget
    exact h.chains chain before hbefore
  released := h.released
  bounds := fun release hrelease chain later hlater =>
    h.bounds release hrelease chain later (hfollows.future_subset h.ahead chain hlater)
  committed := h.committed
  configured := h.configured

/-- So does a change of one lane after which nothing is ahead there that was not ahead before. -/
theorem Upholds.changeLane (h : run.Upholds) (chain : ChainId) (items : List QueueItem)
    {f : Lane → Lane}
    (hf : ∀ lane, run.orderer.lanes.get? chain = some lane →
      (f lane).Keeps lane chain items (run.coming chain)) :
    { run with
      coming := Function.update run.coming chain items
      orderer := run.orderer.changeLane chain f }.Upholds :=
  h.follows (Orderer.follows_changeLane chain items hf) h.mode

theorem Upholds.arrive (h : run.Upholds) (chain : ChainId) : (run.arrive chain).Upholds := by
  rw [OrderedRun.arrive]
  split
  next => exact h
  next item rest hcoming =>
    exact h.changeLane chain rest fun lane _ => hcoming ▸ lane.keeps_push

theorem Upholds.drain_reorg (h : run.Upholds) :
    ∀ chain lane, run.orderer.drain.lanes.get? chain = some lane → lane.reorg = none :=
  fun chain lane hget =>
    (((run.orderer.follows_drain run.coming).ahead h.ahead) chain lane hget).steady.1

theorem Upholds.pause (h : run.Upholds) (hpause : ∀ events, run.orderer.nextStep.1 ≠ .unit events) :
    { run with orderer := run.orderer.nextStep.2 }.Upholds := by
  have hdrain := run.orderer.follows_drain run.coming
  generalize hnext : run.orderer.nextStep = next at hpause ⊢
  obtain ⟨step, orderer⟩ := next
  obtain ⟨hmode, hgives⟩ := Orderer.nextStep_gives (hdrain.ahead h.ahead).own h.drain_reorg hnext
  have hnothing : run.orderer.drain.Gives orderer [] := by
    cases step with
    | unit events => exact absurd rfl (hpause events)
    | reorg reorg => exact hgives.elim
    | failure failure => exact hgives
    | stopped => exact hgives
    | finished => exact hgives
    | blocked awaited => exact hgives
  exact h.follows ((hnothing.follows run.coming).trans hdrain) (hmode.trans h.mode)

/-- What a unit releases was ahead. -/
theorem Upholds.releases_future (h : run.Upholds) :
    ∀ release ∈ Orderer.takeReleases run.orderer.maxEventsPerUnit run.orderer.drain,
      release.event ∈ run.orderer.future run.coming release.event.chain := by
  have hdrain := run.orderer.follows_drain run.coming
  exact fun release hrelease => hdrain.future_subset h.ahead _
    (Orderer.takeReleases_future (hdrain.ahead h.ahead) _ release hrelease)

theorem Upholds.releases_chains (h : run.Upholds) :
    ∀ release ∈ Orderer.takeReleases run.orderer.maxEventsPerUnit run.orderer.drain,
      release.event.chain ≠ 0 := by
  intro release hrelease
  obtain ⟨lane, hget, _⟩ := Orderer.mem_future.1 (h.releases_future release hrelease)
  exact h.chains _ lane hget

/-- What a unit releases is bounded by all releases before, and bounds what is ahead then. -/
theorem Upholds.commit (h : run.Upholds) {events : List Event}
    (hstep : run.orderer.nextStep.1 = .unit events) (applied : Nat) {store : Store}
    (hcommitted : ∃ deeds, store.Ledger (writesOf deeds) ∧
      deeds.map (·.event) = run.released.map (·.event) ++ events.take applied) :
    (run.commit handlers events applied store).Upholds := by
  have hdrain := run.orderer.follows_drain run.coming
  have hahead := hdrain.ahead h.ahead
  obtain ⟨hevents, horderer⟩ := Orderer.nextStep_unit h.mode hstep
  have hgives := Orderer.takeOrdered_gives hahead.own run.orderer.maxEventsPerUnit
  rw [← Orderer.takeReleases_events, ← hevents, ← horderer] at hgives
  have hrestore := hgives.follows_restore applied run.coming
  have hprogress := (run.orderer.nextStep.2.restore (events.drop applied)).follows_progress
    (events.take applied) run.coming
  have hmode : run.orderer.nextStep.2.mode = .ordered := by
    rw [horderer]
    exact (Orderer.takeOrdered_mode _ _).trans h.mode
  have hkept := h.follows ((hprogress.trans hrestore).trans hdrain) hmode
  refine ⟨hkept.mode, hkept.ahead, hkept.chains, ?_, ?_, ?_, ?_⟩
  · refine List.pairwise_append.2 ⟨h.released, ?_, fun a ha b hb => ?_⟩
    · exact (Orderer.takeReleases_pairwise hahead _).sublist (List.take_sublist _ _)
    · exact h.bounds a ha _ _ (h.releases_future b (List.mem_of_mem_take hb))
  · intro release hrelease chain later hlater
    rcases List.mem_append.1 hrelease with hold | hreleased
    · exact hkept.bounds release hold chain later hlater
    · have hleft := hprogress.future_subset (hrestore.ahead hahead) chain hlater
      rw [hevents, horderer, Orderer.takeReleases_events] at hleft
      exact Orderer.takeReleases_bound hahead _ applied chain release hreleased later hleft
  · rw [hevents, ← List.map_take, ← List.map_append] at hcommitted
    exact hcommitted
  · intro release hrelease
    rcases List.mem_append.1 hrelease with hold | hreleased
    · exact h.configured release hold
    · exact h.releases_chains release (List.mem_of_mem_take hreleased)

/-- The records of a unit are of what it released. -/
theorem Upholds.unit (h : run.Upholds) {events : List Event} {processed : ProcessedUnit}
    {checkpoints : List Checkpoint} {blocks : List RecordedBlock} {store : Store}
    (hstep : run.orderer.nextStep.1 = .unit events)
    (hprocess : (processEvents Repo.inMemory handlers run.registry events run.store).result =
      .ok processed)
    (hcommit : run.store.commit
      { rawEvents := events.take processed.applied
        changes := processed.changes
        history := processed.history
        registrations := processed.registrations
        checkpoints := checkpoints
        blocks := blocks } = .ok store) :
    ∃ deeds, store.Ledger (writesOf deeds) ∧
      deeds.map (·.event) = run.released.map (·.event) ++ events.take processed.applied := by
  obtain ⟨deeds, hledger, hevents⟩ := h.committed
  obtain ⟨handled, added, rfl, hoverlay, hwrites, hadded, _⟩ :=
    Store.deeds_of_processEvents hprocess
  obtain ⟨hnone, rfl⟩ := Store.commit_eq_ok hcommit
  refine ⟨deeds ++ added, ?_, by rw [List.map_append, hevents, hadded]⟩
  rw [writesOf_append, ← hwrites]
  refine hledger.write hoverlay (fun write hwrite => ?_) rfl rfl hnone
  rw [hwrites] at hwrite
  obtain ⟨deed, hdeed, hmem⟩ := List.mem_flatMap.1 hwrite
  obtain ⟨change, _, rfl⟩ := List.mem_map.1 hmem
  have hevent := List.mem_map_of_mem (f := (·.event)) hdeed
  rw [hadded, (Orderer.nextStep_unit h.mode hstep).1] at hevent
  obtain ⟨release, hrelease, hsame⟩ := List.mem_map.1 (List.mem_of_mem_take hevent)
  change deed.event.chain ≠ 0
  rw [← hsame]
  exact h.releases_chains release hrelease

/-- A chain that is fetched again from its last released event on brings nothing that an earlier
release does not bound. -/
theorem Upholds.refetch (h : run.Upholds) {last : Release} {items : List QueueItem}
    (hlast : run.released.getLast? = some last) (hitems : InKeyOrder last.event.chain items)
    (hfrom : ∀ event ∈ eventsOf items, last.event.key ≤ event.key) (depth : Nat) :
    (run.refetch last.event.chain items depth).Upholds := by
  obtain ⟨hahead, hfuture⟩ := h.ahead.addLane hitems depth
  have hmem : last ∈ run.released := List.mem_of_getLast? hlast
  refine ⟨h.mode, hahead, fun chain lane hget => ?_, h.released,
    fun release hrelease chain later hlater => ?_, h.committed, h.configured⟩
  · rw [OrderedRun.refetch, Orderer.addLane, Table.get?_insert] at hget
    split at hget
    next hchain =>
      rw [hchain]
      exact h.configured last hmem
    next => exact h.chains chain lane hget
  · rcases hfuture chain later hlater with hnew | hbefore
    · have hbounds : release.Bounds last.event := by
        obtain ⟨front, hsplit⟩ := List.getLast?_eq_some_iff.1 hlast
        have hordered := h.released
        rw [hsplit] at hordered
        replace hrelease : release ∈ run.released := hrelease
        rw [hsplit] at hrelease
        rcases List.mem_append.1 hrelease with hearlier | hsame
        · exact (List.pairwise_append.1 hordered).2.2 release hearlier last List.mem_cons_self
        · obtain rfl := List.mem_singleton.1 hsame
          exact Or.inr (EventKey.le_refl _)
      rcases hbounds with hidle | hle
      · exact Or.inl ((hitems.own later hnew).symm ▸ hidle)
      · exact Or.inr (EventKey.le_trans hle (hfrom later hnew))
    · exact h.bounds release hrelease chain later hbefore

theorem Reached.upholds (h : Reached handlers run) : run.Upholds := by
  induction h with
  | @start coming orderer registry hmode hlanes hcoming =>
    have hfresh : ∀ chain lane, orderer.lanes.get? chain = some lane →
        chain ≠ 0 ∧ lane = .start chain lane.queue.depth := fun chain lane hget =>
      hlanes (chain, lane) (Table.mem_entries_iff.2 hget)
    refine ⟨hmode, fun chain lane hget => ?_, fun chain lane hget => (hfresh chain lane hget).1,
      .nil, fun _ h => absurd h List.not_mem_nil, ⟨[], .empty, rfl⟩,
      fun _ h => absurd h List.not_mem_nil⟩
    rw [(hfresh chain lane hget).2]
    exact .start (hcoming chain) _
  | arrive before chain ih => exact ih.arrive chain
  | @close run before chain ih =>
    have hclose := ih.changeLane chain (run.coming chain) fun lane _ => lane.keeps_close
    rwa [Function.update_eq_self] at hclose
  | signal before failures stopRequested ih =>
    exact ih.follows (Orderer.follows_of_lanes rfl) ih.mode
  | @wait run chain lane lane' before hlane hwait ih =>
    have hnow := ih.changeLane chain (run.coming chain) (f := fun _ => lane') fun other hget => by
      rw [hlane] at hget
      cases hget
      exact Lane.keeps_waitItem hwait
    rwa [Function.update_eq_self] at hnow
  | pause before hpause ih => exact ih.pause hpause
  | unit before hstep hprocess hcommit ih =>
    exact ih.commit hstep _ (ih.unit hstep hprocess hcommit)
  | refetch before hlast hitems hfrom depth ih => exact ih.refetch hlast hitems hfrom depth

/-- Whether events of which one overtook the other change different entities. -/
def OvertakesApart (run : OrderedRun) : Prop :=
  run.released.Pairwise fun a b => a.Overtook b →
    ∀ earlier ∈ run.store.history, ∀ later ∈ run.store.history,
      earlier.origin = a.event.origin → later.origin = b.event.origin → earlier.key ≠ later.key

instance (run : OrderedRun) : Decidable run.OvertakesApart :=
  inferInstanceAs (Decidable (List.Pairwise _ _))

/-- Of two events that change one entity the later one does not stand before the earlier one. -/
theorem Upholds.history_pairwise (h : run.Upholds) (hapart : run.OvertakesApart) {p : Origin → Bool}
    (hp : ∀ a b : Event, a.key ≤ b.key → p a.origin = true → p b.origin = true) :
    run.store.history.Pairwise fun a b =>
      a.key = b.key → p a.origin = true → p b.origin = true := by
  obtain ⟨deeds, hledger, hevents⟩ := h.committed
  have hrecord : ∀ deed ∈ deeds, ∀ change ∈ deed.changes, ∃ record ∈ run.store.history,
      record.key = change.key ∧ record.origin = deed.event.origin := by
    intro deed hdeed change hchange
    have hwrite : (change, deed.event.origin) ∈ writesOf deeds :=
      List.mem_flatMap.2 ⟨deed, hdeed, List.mem_map_of_mem hchange⟩
    rw [← hledger.holds.history_writes] at hwrite
    obtain ⟨record, hmem, heq⟩ := List.mem_map.1 hwrite
    obtain ⟨rfl, horigin⟩ := Prod.mk.inj heq
    exact ⟨record, hmem, (HistoryEntry.toChange_key _).symm, horigin⟩
  have hreleased : (run.released.map (·.event)).Pairwise fun a b => a.key ≤ b.key ∨
      ∀ earlier ∈ run.store.history, ∀ later ∈ run.store.history,
        earlier.origin = a.origin → later.origin = b.origin → earlier.key ≠ later.key := by
    rw [List.pairwise_map]
    refine (h.released.and hapart).imp fun {a b} ⟨hbounds, hovertook⟩ => ?_
    by_cases hlt : b.event.key < a.event.key
    · exact Or.inr (hovertook (hbounds.overtook hlt))
    · exact Or.inl (EventKey.not_lt.1 hlt)
  rw [← hevents, List.pairwise_map] at hreleased
  have hwrites : (writesOf deeds).Pairwise fun a b =>
      a.1.key = b.1.key → p a.2 = true → p b.2 = true := by
    refine List.pairwise_flatMap.2 ⟨fun deed _ => ?_, ?_⟩
    · refine List.pairwise_of_forall_mem_list fun a ha b hb _ hpa => ?_
      obtain ⟨_, _, rfl⟩ := List.mem_map.1 ha
      obtain ⟨_, _, rfl⟩ := List.mem_map.1 hb
      exact hpa
    · refine hreleased.imp_of_mem fun {a b} ha hb hor write hwrite write' hwrite' hkey hstale => ?_
      obtain ⟨change, hchange, rfl⟩ := List.mem_map.1 hwrite
      obtain ⟨change', hchange', rfl⟩ := List.mem_map.1 hwrite'
      rcases hor with hle | hdifferent
      · exact hp _ _ hle hstale
      · obtain ⟨earlier, hearlier, hearlierKey, horigin⟩ := hrecord a ha change hchange
        obtain ⟨later, hlater, hlaterKey, horigin'⟩ := hrecord b hb change' hchange'
        refine absurd ?_ (hdifferent earlier hearlier later hlater horigin horigin')
        rw [hearlierKey, hlaterKey]
        exact hkey
  rw [← hledger.holds.history_writes, List.pairwise_map] at hwrites
  refine hwrites.imp fun hpair hkey => hpair ?_
  rw [HistoryEntry.toChange_key, HistoryEntry.toChange_key]
  exact hkey

/-- In an ordered run a reorg makes the last records of each entity stale, and the back-reference of
the first stale one leads to the value that the last record that stays left behind. This is so if no
event overtook another one that changes the same entity. -/
theorem Reached.ends_stale (h : Reached handlers run) (hapart : run.OvertakesApart)
    (reorg : Reorg) :
    run.store.EndsStale (.ofReorg .ordered reorg) ∧
      ∀ key record,
        (run.store.historyIn (.ofReorg .ordered reorg)).find? (·.key = key) = some record →
          ∃ change, run.store.restore? record = some change ∧ change.key = key ∧
            change.fields? = ((run.store.recordsOf key).filter fun record =>
              RollbackPlan.keeps .ordered reorg record.origin).getLast?.bind
                fun record => record.toChange.fields? := by
  have hends : run.store.EndsStale (.ofReorg .ordered reorg) :=
    Store.endsStale_iff.2 (h.upholds.history_pairwise hapart fun _ _ =>
      RollbackScope.invalidates_of_le)
  obtain ⟨deeds, hledger, _⟩ := h.upholds.committed
  exact ⟨hends, fun key record hfirst => hledger.restores hends hfirst⟩

/-- A batch that reaches the head of its chain. -/
def batchUpTo (chain : ChainId) (last : Nat) (events : List Event) : QueueItem :=
  .batch ⟨chain, 0, ⟨last, "", "", 10 * last⟩, last, events, 1, []⟩

/-- A run over two chains of which the first one goes on once it has reached its head. -/
def twoHeads : OrderedRun where
  coming chain :=
    if chain = 1 then [batchUpTo 1 9 [], batchUpTo 1 16 [.placed 1 15 0]]
    else if chain = 2 then [batchUpTo 2 25 [.placed 2 20 0]]
    else []
  orderer := ((Orderer.start .ordered 1).addLane (.start 1 2)).addLane (.start 2 2)
  registry := default
  store := .empty
  released := []

theorem twoHeads_reached : twoHeads.Reached handlers := by
  refine .start rfl (by decide) fun chain => ?_
  split
  next hfirst =>
    subst hfirst
    refine ⟨by decide, by decide, ?_, by decide⟩
    rw [List.pairwise_pair]
    intro event hevent
    obtain rfl := List.mem_singleton.1 hevent
    exact (by decide : Lane.keyAfter 1 ⟨9, "", "", 90⟩ ≤ (Event.placed 1 15 0).key)
  next =>
    split
    next hsecond =>
      subst hsecond
      exact ⟨by decide, by decide, by simp, by decide⟩
    next => exact ⟨by simp, by simp, .nil, by simp⟩

/-- What an event writes that marks an entity, with the origin of the mark before. -/
def markOf (event : Event) (previous : Origin) : WriteUnit where
  rawEvents := [event]
  changes := [.set ⟨"", ""⟩ default]
  history := [.ofChange (.set ⟨"", ""⟩ default) event.origin previous]
  registrations := []
  checkpoints := []
  blocks := []

/-- Commits a unit of one event that marks an entity. -/
def mark (run : OrderedRun) (event : Event) (previous : Origin) : OrderedRun :=
  run.commit ⟨[("", .marking)]⟩ [event] 1 (run.store.write (markOf event previous))

/-- Both batches of the first chain arrive before the second chain brings anything. -/
def inTurn : OrderedRun :=
  ((((twoHeads.arrive 1).arrive 1).arrive 2).mark (.placed 1 15 0) .genesis).mark
    (.placed 2 20 0) ⟨1, 15, 150, 0⟩

/-- The second batch of the first chain arrives once the other chain was served. -/
def late : OrderedRun :=
  ((((twoHeads.arrive 1).arrive 2).mark (.placed 2 20 0) .genesis).arrive 1).mark
    (.placed 1 15 0) ⟨2, 20, 200, 0⟩

theorem Reached.mark (h : run.Reached ⟨[("", .marking)]⟩) (event : Event) (previous : Origin)
    (hstep : run.orderer.nextStep.1 = .unit [event])
    (hprocess : (processEvents Repo.inMemory ⟨[("", .marking)]⟩ run.registry [event]
        run.store).result = .ok ⟨1, (markOf event previous).changes,
          (markOf event previous).history, []⟩)
    (hcommit : run.store.commit (markOf event previous) =
      .ok (run.store.write (markOf event previous))) :
    (run.mark event previous).Reached ⟨[("", .marking)]⟩ :=
  h.unit hstep hprocess hcommit

/-- If the marks come in the order of keys, the second one is stale after a reorg between them. -/
theorem ends_stale_in_turn :
    inTurn.Reached ⟨[("", .marking)]⟩ ∧ inTurn.OvertakesApart ∧
      inTurn.store.EndsStale (.ofReorg .ordered (.placed 2 17)) := by
  have hstart : twoHeads.Reached ⟨[("", .marking)]⟩ := twoHeads_reached
  have hfirst := (((hstart.arrive 1).arrive 1).arrive 2).mark (.placed 1 15 0) .genesis rfl rfl rfl
  have hsecond : inTurn.Reached ⟨[("", .marking)]⟩ := hfirst.mark _ _ rfl rfl rfl
  have hapart : inTurn.OvertakesApart := by decide
  exact ⟨hsecond, hapart, (hsecond.ends_stale hapart (.placed 2 17)).1⟩

/-- A late event marks the entity behind an event that stands after it. When that one is stale, the
later mark stays. -/
theorem late_event_stays :
    late.Reached ⟨[("", .marking)]⟩ ∧
      ¬ late.store.EndsStale (.ofReorg .ordered (.placed 2 17)) := by
  have hstart : twoHeads.Reached ⟨[("", .marking)]⟩ := twoHeads_reached
  have hearly := ((hstart.arrive 1).arrive 2).mark (.placed 2 20 0) .genesis rfl rfl rfl
  have hlate : late.Reached ⟨[("", .marking)]⟩ := (hearly.arrive 1).mark _ _ rfl rfl rfl
  refine ⟨hlate, ?_⟩
  rw [Store.endsStale_iff]
  decide

end OrderedRun

end ChainIndexer
