import ChainIndexer.Proofs.Pruning.Schedule
import ChainIndexer.Proofs.Resets

/-!
# Stores under watch

A store that is watched notes, by a clock of its own, whose progress is reported to it and what is
pruned in it, and otherwise answers as it would. Of all calls only commits and prunes leave a note,
and only if they succeed.
-/

namespace ChainIndexer

/-! ### Stores that are quiet -/

section Quiet

variable {σ τ ε α β : Type}

theorem Call.Keeps.mapM {ready : σ → Prop} {see : σ → τ} {items : List β} {call : β → Call σ ε α}
    (h : ∀ item, (call item).Keeps ready see) : (items.mapM call).Keeps ready see := by
  induction items with
  | nil => exact .pure []
  | cons first rest ih =>
    rw [List.mapM_cons]
    exact (h first).bind fun value => ih.bind fun values => .pure (value :: values)

/-- Whether a call leaves alone what is seen, though it fails. -/
abbrev Call.Hides (see : σ → τ) (call : Call σ ε α) : Prop := call.Keeps (fun _ => True) see

/-- Whether only commits and prunes change what is seen of a store. -/
structure Repo.Quiet (repo : Repo σ) (see : σ → τ) : Prop where
  migrate : repo.migrate.Hides see
  reset : repo.reset.Hides see
  resetCount : repo.resetCount.Hides see
  countReset : repo.countReset.Hides see
  entity : ∀ key, (repo.entity key).Hides see
  checkpoints : repo.checkpoints.Hides see
  registrations : repo.registrations.Hides see
  recentBlocks : ∀ chain limit, (repo.recentBlocks chain limit).Hides see
  latestOrigins : ∀ keys, (repo.latestOrigins keys).Hides see
  historyIn : ∀ scope, (repo.historyIn scope).Hides see
  recordAt : ∀ key origin, (repo.recordAt key origin).Hides see
  firstInvalidatedBlocks : ∀ scope, (repo.firstInvalidatedBlocks scope).Hides see
  applyRollback : ∀ plan, (repo.applyRollback plan).Hides see

namespace Repo.Quiet

variable {repo : Repo σ} {see : σ → τ} {state after : σ}

theorem countResets (h : repo.Quiet see) (times : Nat) : (countResets repo times).Hides see := by
  induction times with
  | zero => exact .pure ()
  | succ times ih => exact h.countReset.bind fun _ => ih

theorem boot (h : repo.Quiet see) {config : Config} {result : Except IndexingError Booted}
    (hboot : boot repo config state = (result, after)) : see after = see state := by
  have hread : (bootRepo repo config).Hides see := by
    refine h.migrate.bind fun _ => Call.Keeps.bind ?_ fun _ => ?_
    · refine h.resetCount.bind fun made => ?_
      split
      next => exact h.reset.bind fun _ => h.countResets _
      next => exact .pure ()
    · exact h.checkpoints.bind fun _ => h.registrations.bind fun _ => .pure _
  rw [ChainIndexer.boot] at hboot
  split at hboot
  next =>
    cases hboot
    rfl
  next =>
    split at hboot
    next hcall =>
      cases hboot
      exact (hread _ _ _ trivial hcall).2
    next hcall =>
      cases hboot
      exact (hread _ _ _ trivial hcall).2

theorem make (h : repo.Quiet see) (mode : Mode) (reorg : Reorg) (tracker : Tracker) :
    (RollbackPlan.make repo mode reorg tracker).Hides see := by
  refine (h.historyIn _).bind fun records => Call.Keeps.bind (.mapM fun entry => ?_) fun _ => ?_
  · rw [RollbackPlan.restore]
    split
    next => exact .pure _
    next =>
      refine (h.recordAt _ _).bind fun found => ?_
      cases found with
      | none => exact .throw _
      | some previous => exact .pure _
  · refine Call.Keeps.bind ?_ fun rewinds => .pure _
    unfold RollbackPlan.rewindsFor
    cases RollbackScope.ofReorg mode reorg with
    | chain reorged safeBlock => exact .pure _
    | global reorged safeBlock safeTimestamp =>
      exact (h.firstInvalidatedBlocks _).bind fun first => .pure _

theorem runLoader (h : repo.Quiet see) (loader : Loader α) (loaded : LoadedEntities) (state : σ) :
    see (loader.run repo loaded state).2.2 = see state := by
  induction loader generalizing loaded state with
  | done value => rfl
  | fail error => rfl
  | load key next ih =>
    rw [Loader.run]
    split
    next => exact ih _ _ _
    next =>
      cases hread : repo.entity key state with
      | mk result after =>
        have hkept := (h.entity key state result after trivial hread).2
        cases result with
        | ok fields => exact (ih _ _ after).trans hkept
        | error error => exact (ih _ _ after).trans hkept

theorem runLoaders (h : repo.Quiet see) (handlers : HandlerTable) (events : List Event)
    (loaded : LoadedEntities) (state : σ) :
    see (runLoaders repo handlers events loaded state).2 = see state := by
  induction events generalizing loaded state with
  | nil => rfl
  | cons event rest ih =>
    rw [ChainIndexer.runLoaders]
    cases handlers.forEvent? event with
    | none => exact ih _ _
    | some handler =>
      dsimp only
      have hkept := h.runLoader (handler.load event) loaded state
      cases hrun : (handler.load event).run repo loaded state with
      | mk outcome last =>
        rw [hrun] at hkept
        cases outcome with
        | ok value => exact (ih _ _).trans hkept
        | error cause => exact hkept

theorem processEvents (h : repo.Quiet see) (handlers : HandlerTable) (registry : Registry)
    (events : List Event) (state : σ) :
    see (processEvents repo handlers registry events state).repo = see state := by
  have hloaded := h.runLoaders handlers events .empty state
  rw [ChainIndexer.processEvents]
  cases hload : ChainIndexer.runLoaders repo handlers events .empty state with
  | mk loading between =>
    rw [hload] at hloaded
    cases loading with
    | error error => exact hloaded
    | ok loaded =>
      dsimp only
      cases runHandlers handlers loaded events (.start registry) with
      | mk handled failure =>
        cases failure with
        | some error => exact hloaded
        | none =>
          dsimp only
          by_cases hempty : handled.writes.isEmpty = true
          · rw [if_pos hempty]
            exact hloaded
          · rw [if_neg hempty]
            generalize (handled.writes.map (·.1.key)).eraseDups = keys
            cases hlatest : repo.latestOrigins keys between with
            | mk result after =>
              have hkept := (h.latestOrigins keys between result after trivial hlatest).2
              cases result with
              | ok latest => exact hkept.trans hloaded
              | error error => exact hkept.trans hloaded

end Repo.Quiet

end Quiet

/-! ### Watching a store -/

/-- A prune of a store. -/
structure Prune where
  chain : ChainId
  /-- The lowest block that keeps its rows. -/
  minBlock : Nat
  time : Int
deriving DecidableEq, Repr

/-- The prune that follows a look if the chain is due. -/
def Look.prune (config : PruningConfig) (look : Look) : Prune :=
  ⟨look.chain, config.minBlock look.processed, look.ended⟩

/-- What was noted about a store. -/
structure Watch where
  /-- The time of day, in seconds. -/
  time : Int
  /-- The progress that was reported. -/
  looks : List Look
  prunes : List Prune

structure Watched (σ : Type) where
  inner : σ
  watch : Watch

variable {σ ε α : Type}

/-- What there is to look at after some progress, given the checkpoints that report it. -/
def looksAt (now : Int) (checkpoints : List Checkpoint) : List Look :=
  checkpoints.filterMap fun checkpoint =>
    checkpoint.processed.map fun processed => ⟨checkpoint.chain, processed, now, now⟩

namespace Watch

def commit (unit : WriteUnit) (watch : Watch) : Watch :=
  { watch with looks := watch.looks ++ looksAt watch.time unit.checkpoints }

def prune (chain : ChainId) (minBlock : Nat) (watch : Watch) : Watch :=
  { watch with prunes := watch.prunes ++ [⟨chain, minBlock, watch.time⟩] }

end Watch

/-- A call that leaves a note if it succeeds. -/
def Call.watched (note : Watch → Watch) (call : Call σ ε α) : Call (Watched σ) ε α := fun state =>
  match call state.inner with
  | (.ok value, inner) => (.ok value, ⟨inner, note state.watch⟩)
  | (.error error, inner) => (.error error, ⟨inner, state.watch⟩)

def Repo.watched (repo : Repo σ) : Repo (Watched σ) where
  migrate := repo.migrate.watched id
  reset := repo.reset.watched id
  resetCount := repo.resetCount.watched id
  countReset := repo.countReset.watched id
  commit unit := (repo.commit unit).watched (Watch.commit unit)
  entity key := (repo.entity key).watched id
  checkpoints := repo.checkpoints.watched id
  registrations := repo.registrations.watched id
  recentBlocks chain limit := (repo.recentBlocks chain limit).watched id
  latestOrigins keys := (repo.latestOrigins keys).watched id
  historyIn scope := (repo.historyIn scope).watched id
  recordAt key origin := (repo.recordAt key origin).watched id
  firstInvalidatedBlocks scope := (repo.firstInvalidatedBlocks scope).watched id
  applyRollback plan := (repo.applyRollback plan).watched id
  prune chain minBlock := (repo.prune chain minBlock).watched (Watch.prune chain minBlock)

theorem Call.watched_cases {note : Watch → Watch} {call : Call σ ε α} {state after : Watched σ}
    {result : Except ε α} (h : call.watched note state = (result, after)) :
    ((∃ value, result = .ok value) ∧ after.watch = note state.watch) ∨
      ((∃ error, result = .error error) ∧ after.watch = state.watch) := by
  rw [watched] at h
  split at h
  next value _ _ =>
    cases h
    exact Or.inl ⟨⟨value, rfl⟩, rfl⟩
  next error _ _ =>
    cases h
    exact Or.inr ⟨⟨error, rfl⟩, rfl⟩

theorem Call.watched_hides (call : Call σ ε α) : (call.watched id).Hides Watched.watch := by
  intro state result after _ hrun
  obtain ⟨-, hwatch⟩ | ⟨-, hwatch⟩ := watched_cases hrun
  · exact ⟨trivial, hwatch⟩
  · exact ⟨trivial, hwatch⟩

theorem Repo.watched_quiet (repo : Repo σ) : repo.watched.Quiet Watched.watch where
  migrate := Call.watched_hides _
  reset := Call.watched_hides _
  resetCount := Call.watched_hides _
  countReset := Call.watched_hides _
  entity _ := Call.watched_hides _
  checkpoints := Call.watched_hides _
  registrations := Call.watched_hides _
  recentBlocks _ _ := Call.watched_hides _
  latestOrigins _ := Call.watched_hides _
  historyIn _ := Call.watched_hides _
  recordAt _ _ := Call.watched_hides _
  firstInvalidatedBlocks _ := Call.watched_hides _
  applyRollback _ := Call.watched_hides _

end ChainIndexer
