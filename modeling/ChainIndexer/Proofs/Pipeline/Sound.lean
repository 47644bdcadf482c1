import ChainIndexer.Proofs.Progress

/-!
# Sound pipelines

A pipeline is sound if its store holds of each chain exactly what the checkpoint of the chain
covers. If its lanes bring exactly what is left, a commit moves events from the one to the other.
-/

namespace ChainIndexer

/-- Whether a store accounts for every configured chain. -/
structure Store.Sound (store : Store) (config : Config) (handlers : HandlerTable)
    (logs : (chain : ChainId) → ChainLog chain) : Prop where
  keyed : ∀ chain checkpoint, store.checkpoints.get? chain = some checkpoint →
    checkpoint.chain = chain
  startBlock : ∀ chain ∈ config.chains, (store.checkpointOf chain).startBlock = chain.startBlock
  position : ∀ chain ∈ config.chains, ∀ last, (store.checkpointOf chain).position = some last →
    chain.startBlock ≤ last.block
  registers : store.Registers config.contracts
  accurate : ∀ chain ∈ config.chains,
    store.Accurate config.contracts handlers chain (logs chain.id)
  blocks : ∀ chain, ∀ block ∈ store.blocksOf chain, (logs chain).Has block

namespace Pipeline

/-- Whether the tracker and the registry of a pipeline stand where its store does, and all its lanes
are lanes of configured chains. -/
structure Sound (pipeline : Pipeline Store) (config : Config) (handlers : HandlerTable)
    (logs : (chain : ChainId) → ChainLog chain) : Prop where
  store : pipeline.repo.Sound config handlers logs
  reflects : pipeline.registry.Reflects config.contracts pipeline.repo
  keyed : pipeline.tracker.Keyed
  tracks : ∀ chain ∈ config.chains, ∃ checkpoint, pipeline.tracker.get? chain.id = some checkpoint ∧
    checkpoint.AgreesWith (pipeline.repo.checkpointOf chain)
  mode : pipeline.orderer.mode = config.mode
  lanes : ∀ chain lane, pipeline.orderer.lanes.get? chain = some lane →
    lane.chain = chain ∧ ∃ configured ∈ config.chains, configured.id = chain

/-- The events of a chain that a pipeline has yet to commit. -/
def left (pipeline : Pipeline Store) (handlers : HandlerTable)
    (logs : (chain : ChainId) → ChainLog chain) (chain : Chain) : List Event :=
  pipeline.repo.left pipeline.registry handlers chain (logs chain.id)

/-- Whether the lane of a chain, if there is one, brings what is left of the chain behind some
events that were taken from it. -/
def Serves (pipeline : Pipeline Store) (handlers : HandlerTable)
    (logs : (chain : ChainId) → ChainLog chain) (chain : Chain) (taken : List Event) : Prop :=
  match pipeline.orderer.lanes.get? chain.id with
  | none => taken = []
  | some lane => ∃ task, pipeline.tasks.get? chain.id = some task ∧
    lane.Serves task (logs chain.id) (pipeline.repo.checkpointOf chain).covers
      (pipeline.left handlers logs chain) taken

/-- The pipeline once a unit is stored. -/
def stored (pipeline : Pipeline Store) (unit : WriteUnit) : Pipeline Store :=
  noteCommit unit
    { pipeline with
      registry := pipeline.registry.extend unit.registrations
      orderer := (pipeline.orderer.progress unit.rawEvents).2.2
      repo := pipeline.repo.write unit }

end Pipeline

/-- Whether what a unit registers is new and registered by its last event, which is then named. -/
def WriteUnit.RegistersAt (unit : WriteUnit) (registry : Registry) :
    (registering : Option Event) → Prop
  | none => unit.registrations = []
  | some last => unit.rawEvents.getLast? = some last ∧ ∀ registration ∈ unit.registrations,
      registration.IsFor last ∧ registry.watched.get? registration.key = none

theorem Store.mem_blocksOf {store : Store} {chain : ChainId} {block : Block} :
    block ∈ store.blocksOf chain ↔
      ∃ key, store.blocks.get? key = some block ∧ key.chain = chain := by
  simp only [blocksOf, List.mem_map, List.mem_filter, decide_eq_true_eq, Prod.exists,
    Table.mem_entries_iff]
  constructor
  · rintro ⟨key, _, ⟨hget, hchain⟩, rfl⟩
    exact ⟨key, hget, hchain⟩
  · rintro ⟨key, hget, hchain⟩
    exact ⟨key, block, ⟨hget, hchain⟩, rfl⟩

theorem Store.mem_blocksOf_write {store : Store} {unit : WriteUnit} {chain : ChainId}
    {block : Block} (h : block ∈ (store.write unit).blocksOf chain) :
    block ∈ store.blocksOf chain ∨
      ∃ recorded ∈ unit.blocks, recorded.chain = chain ∧ recorded.block = block := by
  obtain ⟨key, hget, hchain⟩ := mem_blocksOf.1 h
  change (store.blocks.insertAll _).get? key = some block at hget
  rw [Table.get?_insertAll, Option.or_eq_some_iff] at hget
  rcases hget with hnew | ⟨-, hold⟩
  · obtain ⟨entry, hfind, rfl⟩ := Option.map_eq_some_iff.1 hnew
    have hkey : entry.1 = key := by simpa using List.find?_some hfind
    obtain ⟨recorded, hrecorded, rfl⟩ :=
      List.mem_map.1 (List.mem_reverse.1 (List.mem_of_find?_eq_some hfind))
    exact Or.inr ⟨recorded, hrecorded, (congrArg BlockKey.chain hkey).trans hchain, rfl⟩
  · exact Or.inl (mem_blocksOf.2 ⟨key, hold, hchain⟩)

theorem Store.Sound.le_of_not_covers {store : Store} {config : Config} {handlers : HandlerTable}
    {logs : (chain : ChainId) → ChainLog chain} (h : store.Sound config handlers logs)
    {chain : Chain} (hchain : chain ∈ config.chains) {position : Position}
    (hcovers : (store.checkpointOf chain).covers position = false) :
    chain.startBlock ≤ position.block := by
  refine Nat.not_lt.1 fun hlt => ?_
  rw [← h.startBlock chain hchain] at hlt
  rw [Checkpoint.covers_of_block_lt_start (fun last hlast => ?_) hlt] at hcovers
  · cases hcovers
  · rw [h.startBlock chain hchain]
    exact h.position chain hchain last hlast

section Commit

variable {pipeline : Pipeline Store} {config : Config} {handlers : HandlerTable}
  {logs : (chain : ChainId) → ChainLog chain} {unit : WriteUnit} {registering : Option Event}
  {now : Int} {chain : Chain}

/-- What the progress of a unit reaches of a chain. -/
def Orderer.reached (orderer : Orderer) (committed : List Event) (registering : Option Event)
    (chain : ChainId) (position : Position) : Bool :=
  ((orderer.report? committed chain).map (Progress.held registering)).any (·.reaches position)

theorem Pipeline.left_inOrder (pipeline : Pipeline Store) (handlers : HandlerTable)
    (logs : (chain : ChainId) → ChainLog chain) (chain : Chain) :
    InOrder (pipeline.left handlers logs chain) :=
  (logs chain.id).inOrder.filter _

theorem Pipeline.Serves.report (h : pipeline.Serves handlers logs chain
      (unit.rawEvents.filter (·.chain = chain.id))) :
    (pipeline.orderer.report? unit.rawEvents chain.id = none ∧
        unit.rawEvents.filter (·.chain = chain.id) = []) ∨
      ∃ lane progress, pipeline.orderer.lanes.get? chain.id = some lane ∧
        pipeline.orderer.report? unit.rawEvents chain.id = some progress ∧
        progress.chain = chain.id ∧
        lane.Reports (unit.rawEvents.filter (·.chain = chain.id)) progress ∧
        progress.events = (unit.rawEvents.filter (·.chain = chain.id)).length := by
  rw [Pipeline.Serves] at h
  rw [Orderer.report?]
  cases hlane : pipeline.orderer.lanes.get? chain.id with
  | none =>
    rw [hlane] at h
    exact Or.inl ⟨rfl, h⟩
  | some lane =>
    rw [hlane] at h
    obtain ⟨task, -, hserves⟩ := h
    rw [Option.bind_some]
    cases hprogress : lane.progress (unit.rawEvents.filter (·.chain = chain.id)) with
    | mk report after =>
      cases report with
      | none => exact Or.inl ⟨rfl, (Lane.progress_eq_none hprogress).1⟩
      | some reported =>
        obtain ⟨hchain, hreports⟩ := Lane.reports_progress hprogress
        have hevents := congrArg Progress.events (Lane.progress_eq_some hprogress).1
        exact Or.inr ⟨lane, reported.1, rfl, rfl, hchain.trans hserves.laneChain, hreports, hevents⟩

/-- Of what is left of a chain a unit reaches the events that it commits, and its lane brings the
others. -/
theorem Pipeline.Serves.reached (h : pipeline.Serves handlers logs chain
      (unit.rawEvents.filter (·.chain = chain.id))) (registering : Option Event) :
    (pipeline.left handlers logs chain).filter (fun event =>
        pipeline.orderer.reached unit.rawEvents registering chain.id event.position) =
        unit.rawEvents.filter (·.chain = chain.id) ∧
      ∀ lane, pipeline.orderer.lanes.get? chain.id = some lane →
        ∃ task, pipeline.tasks.get? chain.id = some task ∧
          lane.Serves task (logs chain.id)
            (fun position => (pipeline.repo.checkpointOf chain).covers position
              || pipeline.orderer.reached unit.rawEvents registering chain.id position)
            ((pipeline.left handlers logs chain).filter fun event =>
              !pipeline.orderer.reached unit.rawEvents registering chain.id event.position) [] := by
  have hreport := h.report
  rw [Pipeline.Serves] at h
  rcases hreport with ⟨hnone, hnil⟩ | ⟨lane, progress, hlane, hsome, -, hreports, -⟩
  · have hreached : ∀ position,
        pipeline.orderer.reached unit.rawEvents registering chain.id position = false := by
      intro position
      rw [Orderer.reached, hnone]
      rfl
    simp only [hreached, Bool.or_false, Bool.not_false, List.filter_true, hnil]
    refine ⟨List.filter_eq_nil_iff.2 fun _ _ => Bool.false_ne_true, fun lane hlane => ?_⟩
    rw [hlane, hnil] at h
    exact h
  · have hreached : ∀ position,
        pipeline.orderer.reached unit.rawEvents registering chain.id position =
          (progress.held registering).reaches position := by
      intro position
      rw [Orderer.reached, hsome]
      rfl
    rw [hlane] at h
    obtain ⟨task, htask, hserves⟩ := h
    obtain ⟨hcommitted, hrest⟩ := hserves.commit (pipeline.left_inOrder handlers logs chain)
      (hreports.held registering)
    simp only [hreached]
    refine ⟨hcommitted, fun other hother => ?_⟩
    rw [hlane] at hother
    cases hother
    exact ⟨task, htask, hrest⟩

namespace Pipeline.Sound

/-- Nothing but the lanes that a pipeline has matters besides what it knows of its store. -/
theorem of_lanes {after : Pipeline Store} (h : pipeline.Sound config handlers logs)
    (hrepo : after.repo = pipeline.repo) (hregistry : after.registry = pipeline.registry)
    (htracker : after.tracker = pipeline.tracker)
    (hmode : after.orderer.mode = pipeline.orderer.mode)
    (hlanes : ∀ id lane, after.orderer.lanes.get? id = some lane →
      ∃ before, pipeline.orderer.lanes.get? id = some before ∧ lane.chain = before.chain) :
    after.Sound config handlers logs := by
  refine ⟨?_, ?_, ?_, ?_, hmode.trans h.mode, fun id lane hlane => ?_⟩
  · rw [hrepo]
    exact h.store
  · rw [hrepo, hregistry]
    exact h.reflects
  · rw [htracker]
    exact h.keyed
  · rw [hrepo, htracker]
    exact h.tracks
  · obtain ⟨before, hbefore, hchain⟩ := hlanes id lane hlane
    rw [hchain]
    exact h.lanes id before hbefore

theorem stored_checkpoint (h : pipeline.Sound config handlers logs)
    (hcheckpoints : unit.checkpoints = pipeline.tracker.updated
      ((pipeline.orderer.progress unit.rawEvents).1.map (Progress.held registering)) now)
    (id : ChainId) :
    (pipeline.repo.write unit).checkpoints.get? id =
        (pipeline.orderer.checkpoint? unit.rawEvents registering pipeline.tracker now id).or
          (pipeline.repo.checkpoints.get? id) ∧
      (pipeline.tracker.replace unit.checkpoints).get? id =
        (pipeline.orderer.checkpoint? unit.rawEvents registering pipeline.tracker now id).or
          (pipeline.tracker.get? id) := by
  have hlanes := fun chain lane hlane => (h.lanes chain lane hlane).1
  refine ⟨?_, ?_⟩
  · change (Store.putCheckpoints _ unit.checkpoints).get? id = _
    rw [Store.putCheckpoints, hcheckpoints]
    exact Orderer.get?_insertAll_updated _ h.keyed hlanes registering now
  · rw [Tracker.replace, Tracker.get?, hcheckpoints]
    exact Orderer.get?_insertAll_updated _ h.keyed hlanes registering now

/-- What becomes of the checkpoint of a chain: it covers what the unit reaches, too. -/
theorem stored_covers (h : pipeline.Sound config handlers logs) (hchain : chain ∈ config.chains)
    (hserves : pipeline.Serves handlers logs chain (unit.rawEvents.filter (·.chain = chain.id)))
    (hcheckpoints : unit.checkpoints = pipeline.tracker.updated
      ((pipeline.orderer.progress unit.rawEvents).1.map (Progress.held registering)) now) :
    ((pipeline.repo.write unit).checkpointOf chain).startBlock = chain.startBlock ∧
      (∀ last, ((pipeline.repo.write unit).checkpointOf chain).position = some last →
        chain.startBlock ≤ last.block) ∧
      (∀ position, ((pipeline.repo.write unit).checkpointOf chain).covers position =
        ((pipeline.repo.checkpointOf chain).covers position
          || pipeline.orderer.reached unit.rawEvents registering chain.id position)) ∧
      ((pipeline.repo.write unit).checkpointOf chain).events =
        (pipeline.repo.checkpointOf chain).events
          + (unit.rawEvents.filter (·.chain = chain.id)).length ∧
      ∃ checkpoint, (pipeline.tracker.replace unit.checkpoints).get? chain.id = some checkpoint ∧
        checkpoint.AgreesWith ((pipeline.repo.write unit).checkpointOf chain) := by
  obtain ⟨tracked, htracked, hagrees⟩ := h.tracks chain hchain
  obtain ⟨hstore, htracker⟩ := h.stored_checkpoint hcheckpoints chain.id
  have hreached := (hserves.reached registering).1
  rw [Orderer.checkpoint?] at hstore htracker
  rcases hserves.report with ⟨hnone, hnil⟩ | ⟨lane, progress, -, hsome, -, hreports, hevents⟩
  · rw [hnone, Option.bind_none, Option.none_or] at hstore htracker
    have hsame : (pipeline.repo.write unit).checkpointOf chain =
        pipeline.repo.checkpointOf chain := by
      rw [Store.checkpointOf, hstore, Store.checkpointOf]
    rw [hsame, hnil]
    refine ⟨h.store.startBlock chain hchain, h.store.position chain hchain, fun position => ?_, rfl,
      tracked, htracker.trans htracked, hagrees⟩
    rw [Orderer.reached, hnone, Option.map_none, Option.any_none, Bool.or_false]
  · rw [hsome, Option.bind_some, htracked, Option.map_some, Option.some_or] at hstore htracker
    have hupdated : (pipeline.repo.write unit).checkpointOf chain =
        tracked.update (progress.held registering) now := by
      rw [Store.checkpointOf, hstore, Option.getD_some]
    have hstart : tracked.startBlock = chain.startBlock :=
      hagrees.startBlock.trans (h.store.startBlock chain hchain)
    have hold : ∀ last, tracked.position = some last → tracked.startBlock ≤ last.block := by
      intro last hlast
      rw [hstart]
      exact h.store.position chain hchain last (hagrees.position ▸ hlast)
    have hnew : ∀ last, (progress.held registering).position = some last →
        tracked.startBlock ≤ last.block := by
      intro last hlast
      rw [(hreports.held registering).position, Option.map_eq_some_iff] at hlast
      obtain ⟨event, hevent, rfl⟩ := hlast
      have hmem := List.mem_of_getLast? hevent
      rw [← hreached, Pipeline.left, Store.left, List.mem_filter, List.mem_filter,
        Bool.and_eq_true, Bool.not_eq_true'] at hmem
      rw [hstart]
      exact h.store.le_of_not_covers hchain hmem.1.2.2
    rw [hupdated]
    refine ⟨hstart, fun last hlast => ?_, fun position => ?_, ?_, _, htracker,
      rfl, rfl, rfl, rfl, rfl⟩
    · rw [← hstart]
      exact (Checkpoint.max_position_eq_some hlast).elim (hold last) (hnew last)
    · rw [Checkpoint.covers_update now hold hnew, hagrees.covers, Orderer.reached, hsome]
      rfl
    · rw [Checkpoint.update, Progress.held_events, hevents, hagrees.events]

theorem registers_write (h : pipeline.Sound config handlers logs)
    (hregisters : unit.RegistersAt pipeline.registry registering) :
    (pipeline.repo.write unit).Registers config.contracts := by
  refine h.store.registers.write fun registration hmem => ?_
  cases registering with
  | none =>
    rw [show unit.registrations = [] from hregisters] at hmem
    cases hmem
  | some last =>
    obtain ⟨hlast, hnew⟩ := hregisters
    obtain ⟨hfor, hunwatched⟩ := hnew registration hmem
    rw [h.reflects, Option.or_eq_none_iff] at hunwatched
    exact ⟨hunwatched.1, last, List.mem_of_getLast? hlast, hfor⟩

/-- What a unit registers for a chain comes from the last event that it commits of the chain. -/
theorem registersLast (hserves : pipeline.Serves handlers logs chain
      (unit.rawEvents.filter (·.chain = chain.id)))
    (hregisters : unit.RegistersAt pipeline.registry registering) :
    pipeline.repo.RegistersLast unit chain
      (pipeline.orderer.reached unit.rawEvents registering chain.id) := by
  intro registration hmem hchain
  cases registering with
  | none =>
    rw [show unit.registrations = [] from hregisters] at hmem
    cases hmem
  | some last =>
    obtain ⟨hlast, hnew⟩ := hregisters
    obtain ⟨hfor, -⟩ := hnew registration hmem
    have hown : last.chain = chain.id := hfor.chain.symm.trans hchain
    have hend : (unit.rawEvents.filter (·.chain = chain.id)).getLast? = some last := by
      obtain ⟨before, hbefore⟩ := List.getLast?_eq_some_iff.1 hlast
      rw [hbefore, List.filter_append, List.filter_singleton, decide_eq_true hown]
      exact List.getLast?_concat ..
    have hleft := List.mem_of_getLast? hend
    rw [← (hserves.reached (some last)).1, Pipeline.left, Store.left, List.mem_filter,
      List.mem_filter, Bool.and_eq_true, Bool.not_eq_true'] at hleft
    rw [hfor.position]
    refine ⟨hleft.1.2.2, fun position hreached => ?_⟩
    rcases hserves.report with ⟨hnone, -⟩ | ⟨lane, progress, -, hsome, hprogress, hreports, -⟩
    · rw [Orderer.reached, hnone] at hreached
      cases hreached
    · rw [Orderer.reached, hsome] at hreached
      refine Progress.le_of_reaches_holdBefore (hprogress.trans hown.symm) ?_ hreached
      rw [hreports.position, hend, Option.map_some]

theorem has_of_recorded (h : pipeline.Sound config handlers logs)
    (hserves : ∀ chain ∈ config.chains,
      pipeline.Serves handlers logs chain (unit.rawEvents.filter (·.chain = chain.id)))
    {recorded : RecordedBlock}
    (hrecorded : recorded ∈ (pipeline.orderer.progress unit.rawEvents).2.1) :
    (logs recorded.chain).Has recorded.block := by
  obtain ⟨id, lane, hlane, hchain, hblock⟩ := Orderer.mem_progress_recorded hrecorded
  obtain ⟨hid, chain, hmem, rfl⟩ := h.lanes id lane hlane
  have hchainServes := hserves chain hmem
  rw [Pipeline.Serves, hlane] at hchainServes
  obtain ⟨task, -, hbrings⟩ := hchainServes
  rw [hchain, hid]
  exact hbrings.follows.unrecorded recorded.block hblock

theorem checkpoint?_chain (h : pipeline.Sound config handlers logs) {id : ChainId}
    {checkpoint : Checkpoint}
    (hcheckpoint : pipeline.orderer.checkpoint? unit.rawEvents registering pipeline.tracker now id =
      some checkpoint) : checkpoint.chain = id := by
  rw [Orderer.checkpoint?, Option.bind_eq_some_iff] at hcheckpoint
  obtain ⟨progress, -, hupdated⟩ := hcheckpoint
  obtain ⟨tracked, htracked, rfl⟩ := Option.map_eq_some_iff.1 hupdated
  exact h.keyed id tracked htracked

/-- A unit whose events were taken from the lanes keeps the store accurate. -/
theorem stored_store (h : pipeline.Sound config handlers logs)
    (hserves : ∀ chain ∈ config.chains,
      pipeline.Serves handlers logs chain (unit.rawEvents.filter (·.chain = chain.id)))
    (hcheckpoints : unit.checkpoints = pipeline.tracker.updated
      ((pipeline.orderer.progress unit.rawEvents).1.map (Progress.held registering)) now)
    (hblocks : ∀ recorded ∈ unit.blocks,
      recorded ∈ (pipeline.orderer.progress unit.rawEvents).2.1)
    (hregisters : unit.RegistersAt pipeline.registry registering) :
    (pipeline.repo.write unit).Sound config handlers logs where
  keyed := by
    intro id checkpoint hget
    rw [(h.stored_checkpoint hcheckpoints id).1, Option.or_eq_some_iff] at hget
    rcases hget with hnew | ⟨-, hold⟩
    · exact h.checkpoint?_chain hnew
    · exact h.store.keyed id checkpoint hold
  startBlock := fun chain hchain => (h.stored_covers hchain (hserves chain hchain) hcheckpoints).1
  position := fun chain hchain => (h.stored_covers hchain (hserves chain hchain) hcheckpoints).2.1
  registers := h.registers_write hregisters
  accurate := by
    intro chain hchain
    obtain ⟨-, -, hcovers, hevents, -⟩ := h.stored_covers hchain (hserves chain hchain) hcheckpoints
    exact (h.store.accurate chain hchain).write
      (fun position => h.store.le_of_not_covers hchain) h.store.registers h.reflects
      (h.registers_write hregisters) (registersLast (hserves chain hchain) hregisters) hcovers
      ((hserves chain hchain).reached registering).1.symm hevents
  blocks := by
    intro id block hblock
    rcases Store.mem_blocksOf_write hblock with hold | ⟨recorded, hrecorded, rfl, rfl⟩
    · exact h.store.blocks id block hold
    · exact h.has_of_recorded hserves (hblocks recorded hrecorded)

/-- After a unit every lane brings what is left then, but for the lane of a chain with new
addresses. -/
theorem stored_serves (h : pipeline.Sound config handlers logs) (hchain : chain ∈ config.chains)
    (hserves : pipeline.Serves handlers logs chain (unit.rawEvents.filter (·.chain = chain.id)))
    (hcheckpoints : unit.checkpoints = pipeline.tracker.updated
      ((pipeline.orderer.progress unit.rawEvents).1.map (Progress.held registering)) now)
    (hregisters : unit.RegistersAt pipeline.registry registering)
    (hother : ∀ event ∈ registering, event.chain ≠ chain.id) :
    (pipeline.stored unit).Serves handlers logs chain [] := by
  obtain ⟨-, -, hcovers, -, -⟩ := h.stored_covers hchain hserves hcheckpoints
  have hwants : ∀ event ∈ (logs chain.id).events,
      (pipeline.registry.extend unit.registrations).wants handlers event =
        pipeline.registry.wants handlers event := by
    intro event hevent
    refine Registry.wants_extend (fun registration hmem => ?_) handlers
    rw [(logs chain.id).own event hevent]
    cases registering with
    | none =>
      rw [show unit.registrations = [] from hregisters] at hmem
      cases hmem
    | some last =>
      rw [(hregisters.2 registration hmem).1.chain]
      exact hother last rfl
  have hleft : (pipeline.stored unit).left handlers logs chain =
      (pipeline.left handlers logs chain).filter fun event =>
        !pipeline.orderer.reached unit.rawEvents registering chain.id event.position :=
    Store.left_write hcovers hwants
  have hlane : (pipeline.stored unit).orderer.lanes.get? chain.id =
      (pipeline.orderer.lanes.get? chain.id).map fun lane =>
        (lane.progress (unit.rawEvents.filter (·.chain = chain.id))).2 :=
    Orderer.get?_progress ..
  rw [Pipeline.Serves, hlane, hleft]
  cases hfound : pipeline.orderer.lanes.get? chain.id with
  | none => rfl
  | some lane =>
    obtain ⟨task, htask, hbrings⟩ := (hserves.reached registering).2 lane hfound
    refine ⟨task, htask, ?_⟩
    have hsame : ((pipeline.stored unit).repo.checkpointOf chain).covers = fun position =>
        (pipeline.repo.checkpointOf chain).covers position
          || pipeline.orderer.reached unit.rawEvents registering chain.id position :=
      funext hcovers
    rw [hsame]
    exact hbrings.progress _

theorem stored (h : pipeline.Sound config handlers logs)
    (hserves : ∀ chain ∈ config.chains,
      pipeline.Serves handlers logs chain (unit.rawEvents.filter (·.chain = chain.id)))
    (hcheckpoints : unit.checkpoints = pipeline.tracker.updated
      ((pipeline.orderer.progress unit.rawEvents).1.map (Progress.held registering)) now)
    (hblocks : ∀ recorded ∈ unit.blocks,
      recorded ∈ (pipeline.orderer.progress unit.rawEvents).2.1)
    (hregisters : unit.RegistersAt pipeline.registry registering) :
    (pipeline.stored unit).Sound config handlers logs where
  store := h.stored_store hserves hcheckpoints hblocks hregisters
  reflects := h.reflects.write unit
  keyed := by
    intro id checkpoint hget
    change (pipeline.tracker.replace unit.checkpoints).get? id = some checkpoint at hget
    rw [(h.stored_checkpoint hcheckpoints id).2, Option.or_eq_some_iff] at hget
    rcases hget with hnew | ⟨-, hold⟩
    · exact h.checkpoint?_chain hnew
    · exact h.keyed id checkpoint hold
  tracks := by
    intro chain hchain
    obtain ⟨-, -, -, -, htracks⟩ := h.stored_covers hchain (hserves chain hchain) hcheckpoints
    exact htracks
  mode := h.mode
  lanes := by
    intro id lane hget
    change (pipeline.orderer.progress unit.rawEvents).2.2.lanes.get? id = some lane at hget
    rw [Orderer.get?_progress, Option.map_eq_some_iff] at hget
    obtain ⟨before, hbefore, rfl⟩ := hget
    rw [Lane.progress_chain]
    exact h.lanes id before hbefore

end Pipeline.Sound

end Commit

end ChainIndexer
