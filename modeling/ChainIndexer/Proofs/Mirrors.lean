import ChainIndexer.Proofs.ExactlyOnce
import ChainIndexer.Proofs.Recording

/-!
# What a pipeline mirrors of its store

A pipeline holds the watched addresses and the checkpoints in memory as well. Both agree with the
store whenever the pipeline is between two steps: the addresses all along, the checkpoints of a
chain from the first time they are written.
-/

namespace ChainIndexer

variable {τ σ : Type}

/-- Whether each registration stands under its own key, with its address in lowercase. -/
def Store.RegistersLowercase (store : Store) : Prop :=
  ∀ key registration, store.registrations.get? key = some registration →
    registration.key = key ∧ Text.lowercase registration.address = registration.address

/-- Whether what a pipeline has in memory agrees with its store, given the chains whose checkpoints
it has written. -/
structure Pipeline.Mirrors (pipeline : Pipeline σ) (contracts : List Contract) (store : Store)
    (written : List ChainId) : Prop where
  reflects : pipeline.registry.Reflects contracts store
  distinct : (store.registrations.values.map fun registration =>
    (registration.chain, Text.lowercase registration.address)).Nodup
  tracks : ∀ id ∈ written, ∃ checkpoint,
    pipeline.tracker.get? id = some checkpoint ∧ store.checkpoints.get? id = some checkpoint
  reload : pipeline.registry.reload store.registrations.values = pipeline.registry

/-- What a pipeline keeps of its registry, its tracker and its store so that they agree. -/
structure Pipeline.KeepsBooks (pipeline : Pipeline σ) (contracts : List Contract)
    (recorded : Recorded Store) : Prop where
  fixed : pipeline.registry.fixed = (Registry.ofContracts contracts).fixed
  reflects : pipeline.registry.Reflects contracts recorded.inner
  registers : recorded.inner.RegistersLowercase
  tracks : ∀ id ∈ recorded.written, ∃ checkpoint,
    pipeline.tracker.get? id = some checkpoint ∧
      recorded.inner.checkpoints.get? id = some checkpoint

section Registrations

variable {store : Store} {contracts : List Contract} {registry : Registry}

theorem Store.RegistersLowercase.write (h : store.RegistersLowercase) {unit : WriteUnit}
    (hlower : ∀ registration ∈ unit.registrations,
      Text.lowercase registration.address = registration.address) :
    (store.write unit).RegistersLowercase := by
  intro key registration hget
  rw [get?_write_registrations, Option.or_eq_some_iff] at hget
  rcases hget with hold | ⟨-, hnew⟩
  · exact h key registration hold
  · refine ⟨?_, hlower registration (List.mem_of_find?_eq_some hnew)⟩
    simpa using List.find?_some hnew

theorem Store.RegistersLowercase.applyRollback (h : store.RegistersLowercase)
    (plan : RollbackPlan) : (store.applyRollback plan).RegistersLowercase := by
  intro key registration hget
  rw [Store.applyRollback, Table.get?_filter, Option.filter_eq_some_iff] at hget
  exact h key registration hget.1

theorem Store.RegistersLowercase.nodup (h : store.RegistersLowercase) :
    (store.registrations.values.map fun registration =>
      (registration.chain, Text.lowercase registration.address)).Nodup := by
  have hkeys : (store.registrations.values.map Registration.key).Nodup :=
    Table.values_map_nodup fun key registration hget => (h key registration hget).1
  have hlower : (store.registrations.values.map fun registration =>
        (registration.chain, Text.lowercase registration.address)) =
      (store.registrations.values.map Registration.key).map fun key =>
        (key.chain, key.address) := by
    rw [List.map_map]
    refine List.map_congr_left fun registration hmem => ?_
    obtain ⟨key, hget⟩ := Table.mem_values_iff.1 hmem
    rw [(h key registration hget).2]
    rfl
  rw [hlower]
  refine hkeys.map fun first second heq => ?_
  obtain ⟨hchain, haddress⟩ := Prod.mk.inj heq
  cases first
  cases second
  exact congr (congrArg _ hchain) haddress

/-- What is registered once more is what a registry reflects. -/
theorem Registry.reflects_reload (hfixed : registry.fixed = (ofContracts contracts).fixed)
    (h : store.RegistersLowercase) :
    (registry.reload store.registrations.values).Reflects contracts store := by
  have hreload : (registry.reload store.registrations.values).watched =
      ((ofContracts contracts).reload store.registrations.values).watched := by
    rw [reload, reload, hfixed]
  intro key
  rw [hreload]
  exact reload_reflects (fun key registration hget => (h key registration hget).1) key

theorem Registry.Reflects.eq {other : Registry} (h : registry.Reflects contracts store)
    (hother : other.Reflects contracts store) (hcontracts : other.contracts = registry.contracts)
    (hfixed : other.fixed = registry.fixed) : other = registry := by
  have hwatched : other.watched = registry.watched :=
    Table.ext_get? fun key => (hother key).trans (h key).symm
  cases registry
  cases other
  congr

end Registrations

/-- Checkpoints that a tracker and a store take over agree from then on. -/
theorem tracks_put {tracker : Tracker} {stored : Table ChainId Checkpoint}
    {written : List ChainId}
    (h : ∀ id ∈ written, ∃ checkpoint,
      tracker.get? id = some checkpoint ∧ stored.get? id = some checkpoint)
    (checkpoints : List Checkpoint) :
    ∀ id ∈ written ++ checkpoints.map (·.chain), ∃ checkpoint,
      (tracker.replace checkpoints).get? id = some checkpoint ∧
        (Store.putCheckpoints stored checkpoints).get? id = some checkpoint := by
  intro id hid
  rw [Tracker.get?, Tracker.replace, Store.putCheckpoints, Table.get?_insertAll,
    Table.get?_insertAll]
  cases hfind : ((checkpoints.map fun checkpoint =>
      (checkpoint.chain, checkpoint)).reverse.find? (·.1 = id)) with
  | some entry => exact ⟨entry.2, rfl, rfl⟩
  | none =>
    refine h id ((List.mem_append.1 hid).resolve_right fun hnew => ?_)
    obtain ⟨checkpoint, hmem, rfl⟩ := List.mem_map.1 hnew
    have hentry := List.find?_eq_none.1 hfind (checkpoint.chain, checkpoint)
      (List.mem_reverse.2 (List.mem_map.2 ⟨checkpoint, hmem, rfl⟩))
    exact hentry (decide_eq_true rfl)

namespace Pipeline

variable {context : PipelineContext σ} {view : σ → Recorded Store} {before after : Pipeline σ}
  {contracts : List Contract} {recorded recorded' : Recorded Store}

theorem KeepsBooks.mirrors_forget {pipeline : Pipeline (Recorded σ)}
    (h : pipeline.KeepsBooks contracts recorded) :
    pipeline.forget.Mirrors contracts recorded.inner recorded.written where
  reflects := h.reflects
  distinct := h.registers.nodup
  tracks := h.tracks
  reload := h.reflects.eq (Registry.reflects_reload h.fixed h.registers) rfl rfl

theorem KeepsBooks.congr (h : before.KeepsBooks contracts recorded)
    (hregistry : after.registry = before.registry) (htracker : after.tracker = before.tracker)
    (hregistrations : recorded'.inner.registrations = recorded.inner.registrations)
    (hcheckpoints : recorded'.inner.checkpoints = recorded.inner.checkpoints)
    (hwritten : recorded'.written = recorded.written) :
    after.KeepsBooks contracts recorded' := by
  refine ⟨?_, ?_, ?_, ?_⟩
  · rw [hregistry]
    exact h.fixed
  · rw [hregistry, Registry.Reflects, hregistrations]
    exact h.reflects
  · rw [Store.RegistersLowercase, hregistrations]
    exact h.registers
  · rw [htracker, hcheckpoints, hwritten]
    exact h.tracks

theorem Prunes.leaves {ids : List ChainId}
    (h : Prunes Repo.inMemory.recording ids recorded recorded') :
    recorded'.inner.registrations = recorded.inner.registrations ∧
      recorded'.inner.checkpoints = recorded.inner.checkpoints ∧
      recorded'.written = recorded.written := by
  induction h with
  | nil => exact ⟨rfl, rfl, rfl⟩
  | skip _ ih => exact ih
  | prune hprune _ ih =>
    cases hprune
    exact ih

/-- Each step keeps the books of a pipeline. -/
theorem Step.keepsBooks {status : PipelineStatus}
    (h : Step context Repo.inMemory.recording view before status after)
    (hbefore : before.KeepsBooks contracts (view before.repo)) :
    after.KeepsBooks contracts (view after.repo) := by
  cases h with
  | halted => exact hbefore
  | rested => exact hbefore.congr rfl rfl rfl rfl rfl
  | ignored => exact hbefore.congr rfl rfl rfl rfl rfl
  | lost => exact hbefore.congr rfl rfl rfl rfl rfl
  | @gaveUp _ _ _ repo _ _ _ _ hview =>
    change KeepsBooks _ _ (view repo)
    rw [hview]
    exact hbefore.congr rfl rfl rfl rfl rfl
  | @idle _ _ _ repo _ _ _ hview =>
    change KeepsBooks _ _ (view repo)
    rw [hview]
    exact hbefore.congr rfl rfl rfl rfl rfl
  | @committed events processed unit orderer repo last notes started schedule hstep hunit hlower
      hwrite hrestarts hprunes =>
    obtain ⟨hcommit, hwritten⟩ := Call.noting_eq_ok hwrite
    have hinner := Repo.inMemory_commit_eq_ok hcommit
    have hbooks := hrestarts.sameBooks
    obtain ⟨hregistrations, hcheckpoints, hnoted⟩ := hprunes.leaves
    rw [hbooks.view] at hregistrations hcheckpoints hnoted
    have hstored : (noteCommit unit
        { before with
          registry := before.registry.extend unit.registrations
          orderer := (report orderer events processed).2.2
          notes := notes
          repo := repo }).KeepsBooks contracts (view repo) := by
      refine ⟨hbefore.fixed, ?_, ?_, ?_⟩
      · rw [hinner]
        exact hbefore.reflects.write unit
      · rw [hinner]
        refine hbefore.registers.write ?_
        rw [hunit]
        exact hlower
      · rw [hwritten, hinner]
        exact tracks_put hbefore.tracks unit.checkpoints
    exact hstored.congr hbooks.registry hbooks.tracker hregistrations hcheckpoints hnoted
  | @rolledBack reorg plan registrations orderer repo after hstep hplan hwrite hread hrestarts =>
    have hnoting : Call.noting (plan.checkpoints.map (·.chain)) (Repo.inMemory.applyRollback plan)
        (view before.repo) = (.ok (), view repo) := hwrite
    obtain ⟨happly, hwritten⟩ := Call.noting_eq_ok hnoting
    have hinner : (view repo).inner = (view before.repo).inner.applyRollback plan :=
      (Prod.mk.inj happly).2.symm
    have hregistrations : registrations = (view repo).inner.registrations.values :=
      (Except.ok.inj (Prod.mk.inj hread).1).symm
    have hbooks := hrestarts.sameBooks
    have hregisters : (view repo).inner.RegistersLowercase := by
      rw [hinner]
      exact hbefore.registers.applyRollback plan
    have hstored : { before with
          orderer := orderer
          repo := repo
          tracker := before.tracker.replace plan.checkpoints
          registry := before.registry.reload registrations
          rollbacks := before.rollbacks + 1 }.KeepsBooks contracts (view repo) := by
      refine ⟨hbefore.fixed, ?_, hregisters, ?_⟩
      · rw [hregistrations]
        exact Registry.reflects_reload hbefore.fixed hregisters
      · rw [hwritten, hinner]
        exact tracks_put hbefore.tracks plan.checkpoints
    rw [hbooks.view]
    exact hstored.congr hbooks.registry hbooks.tracker rfl rfl rfl

end Pipeline

namespace Indexer

variable {context : IndexerContext τ σ} {first indexer : Indexer τ σ} {view : σ → Recorded Store}

theorem start_keepsBooks (hrepo : context.repo.Backed Repo.inMemory.recording view)
    {sources : Table ChainId τ} {state : σ} (hstore : (view state).inner.RegistersLowercase)
    (hwritten : (view state).written = [])
    (hstart : start context sources state = (.ok (), first)) :
    first.pipeline.KeepsBooks context.config.contracts (view first.pipeline.repo) := by
  obtain ⟨booted, repo, hboot, hrestarts⟩ := restarts_of_start hrepo hstart
  have hbooks := hrestarts.sameBooks
  rw [boot_recording] at hboot
  obtain ⟨hbooted, hview⟩ := Prod.mk.inj hboot
  have hinner := Prod.ext (y := (.ok booted, (view repo).inner)) hbooted
    (congrArg Recorded.inner hview)
  obtain ⟨-, hreset, rfl⟩ := Pipeline.boot_eq_ok hinner
  have hregisters : (view repo).inner.RegistersLowercase := by
    rcases hreset with heq | ⟨resetCount, heq⟩
    · rw [heq]
      exact hstore
    · rw [heq]
      exact fun _ _ hget => nomatch hget
  have hnone : (view repo).written = [] :=
    (congrArg Recorded.written hview).symm.trans hwritten
  have hbooted : (Pipeline.ofBooted context.config
      ⟨.start context.config.chains (view repo).inner.checkpoints.values,
        (Registry.ofContracts context.config.contracts).reload
          (view repo).inner.registrations.values⟩ repo).KeepsBooks context.config.contracts
      (view repo) := by
    refine ⟨rfl, Registry.reflects_reload rfl hregisters, hregisters, fun id hid => ?_⟩
    rw [hnone] at hid
    cases hid
  rw [hbooks.view]
  exact hbooted.congr hbooks.registry hbooks.tracker rfl rfl rfl

theorem Continues.keepsBooks (hrepo : context.repo.Backed Repo.inMemory.recording view)
    {sources : Table ChainId τ} {state : σ} (hstore : (view state).inner.RegistersLowercase)
    (hwritten : (view state).written = [])
    (hstart : start context sources state = (.ok (), first))
    (h : Continues context first indexer) :
    indexer.pipeline.KeepsBooks context.config.contracts (view indexer.pipeline.repo) := by
  induction h with
  | refl => exact start_keepsBooks hrepo hstore hwritten hstart
  | tail _ hmove ih =>
    obtain ⟨now, status, hstep⟩ | hbooks := hmove.cases hrepo
    · exact hstep.keepsBooks ih
    · rw [hbooks.view]
      exact ih.congr hbooks.registry hbooks.tracker rfl rfl rfl

section Mirrors

variable {context : IndexerContext τ σ} {first indexer : Indexer τ σ} {view : σ → Store}
  {sources : Table ChainId τ} {state : σ}

/-- A run leaves registrations behind from which a later run can go on. -/
theorem Continues.registersLowercase (hrepo : context.repo.Backed Repo.inMemory view)
    (hstore : (view state).RegistersLowercase)
    (hstart : start context sources state = (.ok (), first))
    (h : Continues context first indexer) :
    (view indexer.pipeline.repo).RegistersLowercase := by
  obtain ⟨written, started, recorded, hstarted, hrun, rfl, -⟩ := h.exists_writes hstart
  exact (hrun.keepsBooks hrepo.recording hstore rfl hstarted).registers

/-- Between any two steps of a run the addresses and the checkpoints in memory agree with the store,
and another run may start from there. -/
theorem Continues.mirrors (hrepo : context.repo.Backed Repo.inMemory view)
    (hstore : (view state).RegistersLowercase)
    (hstart : start context sources state = (.ok (), first))
    (h : Continues context first indexer) :
    (∃ written, Writes context sources state indexer written) ∧
      (∀ written, Writes context sources state indexer written →
        indexer.pipeline.Mirrors context.config.contracts (view indexer.pipeline.repo)
          written) ∧
      (view indexer.pipeline.repo).RegistersLowercase := by
  refine ⟨h.exists_writes hstart, ?_, h.registersLowercase hrepo hstore hstart⟩
  rintro written ⟨started, recorded, hstarted, hrun, rfl, rfl⟩
  exact (hrun.keepsBooks hrepo.recording hstore rfl hstarted).mirrors_forget

end Mirrors

/-! ### A sample -/

/-- The sample with a handler that registers an address at each event. -/
def registeringContext : IndexerContext Unit Store :=
  { sampleContext with
    handlers := ⟨[("", ⟨"", fun _ => .done (), fun _ => .register "" "Pool" (.done ())⟩)]⟩ }

/-- A run of it that fetched and committed one batch. -/
def registeringRun : Indexer Unit Store :=
  let started := (start registeringContext (.ofList [(1, ())]) .empty).2
  let fetched := (started.runTask registeringContext 1).runTask registeringContext 1
  { fetched with
    pipeline := (Pipeline.advance (fetched.pipelineContext registeringContext) fetched.pipeline).2 }

theorem registeringRun_mirrors :
    registeringRun.pipeline.repo.registrations.values.map Registration.watchedAddress =
        [⟨"pool", "", 0⟩] ∧
      ∃ written, Writes registeringContext (.ofList [(1, ())]) .empty registeringRun written ∧
        registeringRun.pipeline.Mirrors registeringContext.config.contracts
          registeringRun.pipeline.repo written := by
  let started := (start registeringContext (.ofList [(1, ())]) .empty).2
  let asked := started.runTask registeringContext 1
  let fetched := asked.runTask registeringContext 1
  have hstart : start registeringContext (.ofList [(1, ())]) .empty = (.ok (), started) :=
    Prod.ext (by decide +kernel) rfl
  have hadvance : (Pipeline.advance (fetched.pipelineContext registeringContext)
      fetched.pipeline).1 = .ok .advanced := by decide +kernel
  have hrun : Continues registeringContext started registeringRun :=
    ((Relation.ReflTransGen.single (.fetch 1)).tail (.fetch 1)).tail
      (.advance none (Prod.ext hadvance rfl))
  have hempty : (id Store.empty).RegistersLowercase := fun _ _ hget => nomatch hget
  obtain ⟨⟨written, hwrites⟩, hmirrors, -⟩ :=
    Continues.mirrors Repo.inMemory_backed hempty hstart hrun
  exact ⟨by decide +kernel, written, hwrites, hmirrors written hwrites⟩

end Indexer

end ChainIndexer
