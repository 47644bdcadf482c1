import ChainIndexer.Processing
import ChainIndexer.Proofs.Fetch
import ChainIndexer.Proofs.Lowercase
import ChainIndexer.Proofs.Pipeline.Boot
import ChainIndexer.Proofs.Processing
import ChainIndexer.Repo.Refusing

/-!
# Stores that may fail

A store need not answer every call. What is proved of runs holds of any store whose calls, when they
answer, do what the calls of a store in memory do with the part of the state that is seen, and which
leaves that part alone when they fail. A handler may notice a failed read and a commit may be tried
again, so a run over such a store is not the run over the store in memory.
-/

namespace ChainIndexer

/-! ### Calls -/

namespace Call

variable {σ ν ε α β : Type} {view : σ → ν} {call : Call σ ε α} {seen : Call ν ε α}

/-- Whether a call that answers does what another one does with what is seen of the state. -/
def Follows (view : σ → ν) (call : Call σ ε α) (seen : Call ν ε α) : Prop :=
  ∀ state value after, call state = (.ok value, after) →
    seen (view state) = (.ok value, view after)

/-- Whether a call changes nothing of what is seen if it fails, besides. -/
structure Backs (view : σ → ν) (call : Call σ ε α) (seen : Call ν ε α) : Prop where
  ok : call.Follows view seen
  error : ∀ state error after, call state = (.error error, after) → view after = view state

/-- Whether a call changes nothing of what is seen at all. -/
structure Reads (view : σ → ν) (call : Call σ ε α) (seen : Call ν ε α) : Prop where
  ok : call.Follows view seen
  keeps : ∀ state result after, call state = (result, after) → view after = view state

theorem Follows.bind {next : α → Call σ ε β} {seenNext : α → Call ν ε β}
    (h : call.Follows view seen) (hnext : ∀ value, (next value).Follows view (seenNext value)) :
    (call >>= next).Follows view (seen >>= seenNext) := by
  intro state result after hrun
  obtain ⟨value, between, hcall, hrest⟩ := bind_eq_ok hrun
  rw [bind_apply, h state value between hcall]
  exact hnext value between result after hrest

theorem Reads.backs (h : call.Reads view seen) : call.Backs view seen :=
  ⟨h.ok, fun state error after hcall => h.keeps state (.error error) after hcall⟩

theorem Reads.pure (value : α) : (pure value : Call σ ε α).Reads view (pure value) := by
  refine ⟨fun state result after hrun => ?_, fun state result after hrun => ?_⟩
  · cases hrun
    rfl
  · cases hrun
    rfl

theorem Reads.throw (error : ε) : (throw error : Call σ ε α).Reads view (throw error) := by
  refine ⟨fun state result after hrun => ?_, fun state result after hrun => ?_⟩
  · cases hrun
  · cases hrun
    rfl

theorem Reads.bind {next : α → Call σ ε β} {seenNext : α → Call ν ε β}
    (h : call.Reads view seen)
    (hnext : ∀ value, (next value).Reads view (seenNext value)) :
    (call >>= next).Reads view (seen >>= seenNext) := by
  refine ⟨h.ok.bind fun value => (hnext value).ok, fun state result after hrun => ?_⟩
  rw [bind_apply] at hrun
  cases hcall : call state with
  | mk first between =>
    have hkept := h.keeps state first between hcall
    rw [hcall] at hrun
    cases first with
    | ok value => exact ((hnext value).keeps between result after hrun).trans hkept
    | error error =>
      cases hrun
      exact hkept

theorem Reads.mapM {items : List β} {call : β → Call σ ε α} {seen : β → Call ν ε α}
    (h : ∀ item, (call item).Reads view (seen item)) :
    (items.mapM call).Reads view (items.mapM seen) := by
  induction items with
  | nil => exact .pure []
  | cons first rest ih =>
    rw [List.mapM_cons, List.mapM_cons]
    exact (h first).bind fun value => ih.bind fun values => .pure (value :: values)

end Call

/-! ### Stores -/

variable {σ ν : Type} {repo : Repo σ} {memory : Repo ν} {view : σ → ν}

/-- Whether a store does what another one does with what is seen of its state, or fails and leaves
that alone. -/
structure Repo.Backed (repo : Repo σ) (memory : Repo ν) (view : σ → ν) : Prop where
  migrate : repo.migrate.Backs view memory.migrate
  reset : repo.reset.Backs view memory.reset
  resetCount : repo.resetCount.Reads view memory.resetCount
  countReset : repo.countReset.Backs view memory.countReset
  commit : ∀ unit, (repo.commit unit).Backs view (memory.commit unit)
  entity : ∀ key, (repo.entity key).Reads view (memory.entity key)
  checkpoints : repo.checkpoints.Reads view memory.checkpoints
  registrations : repo.registrations.Reads view memory.registrations
  recentBlocks : ∀ chain limit,
    (repo.recentBlocks chain limit).Reads view (memory.recentBlocks chain limit)
  latestOrigins : ∀ keys, (repo.latestOrigins keys).Reads view (memory.latestOrigins keys)
  historyIn : ∀ scope, (repo.historyIn scope).Reads view (memory.historyIn scope)
  recordAt : ∀ key origin, (repo.recordAt key origin).Reads view (memory.recordAt key origin)
  firstInvalidatedBlocks : ∀ scope,
    (repo.firstInvalidatedBlocks scope).Reads view (memory.firstInvalidatedBlocks scope)
  applyRollback : ∀ plan, (repo.applyRollback plan).Backs view (memory.applyRollback plan)
  prune : ∀ chain minBlock, (repo.prune chain minBlock).Backs view (memory.prune chain minBlock)

theorem Call.backs_id {ε α : Type} {call : Call σ ε α}
    (h : ∀ state error after, call state = (.error error, after) → after = state) :
    call.Backs id call :=
  ⟨fun _ _ _ hcall => hcall, h⟩

theorem Call.reads_answer {ε α : Type} (f : σ → α) :
    (Call.answer f : Call σ ε α).Reads id (Call.answer f) := by
  refine ⟨fun _ _ _ hcall => hcall, fun state result after hcall => ?_⟩
  cases hcall
  rfl

theorem Call.backs_update {ε : Type} (f : σ → σ) :
    (Call.update f : Call σ ε Unit).Backs id (Call.update f) :=
  backs_id fun _ _ _ hcall => nomatch hcall

theorem Repo.inMemory_backed : Repo.inMemory.Backed Repo.inMemory id where
  migrate := Call.backs_update _
  reset := Call.backs_update _
  resetCount := Call.reads_answer _
  countReset := Call.backs_update _
  commit unit := by
    refine Call.backs_id fun store error after hcall => ?_
    rcases Repo.inMemory_commit unit store with hok | ⟨cause, hcause⟩
    · rw [hok] at hcall
      cases hcall
    · rw [hcause] at hcall
      cases hcall
      rfl
  entity _ := Call.reads_answer _
  checkpoints := Call.reads_answer _
  registrations := Call.reads_answer _
  recentBlocks _ _ := Call.reads_answer _
  latestOrigins _ := Call.reads_answer _
  historyIn _ := Call.reads_answer _
  recordAt _ _ := Call.reads_answer _
  firstInvalidatedBlocks _ := Call.reads_answer _
  applyRollback _ := Call.backs_update _
  prune _ _ := Call.backs_update _

theorem Repo.inMemory_commit_eq_ok {unit : WriteUnit} {store after : Store}
    (h : Repo.inMemory.commit unit store = (.ok (), after)) : after = store.write unit := by
  rcases Repo.inMemory_commit unit store with hok | ⟨cause, hcause⟩
  · rw [hok] at h
    exact (Prod.mk.inj h).2.symm
  · rw [hcause] at h
    cases h

namespace Guarded

variable {α : Type} {call : Call σ RepoError α} {seen : Call ν RepoError α}

/-- A guard passes a call on or makes it fail. -/
theorem guard_cases {failure : RepoCall → QueryFailure} {name : RepoCall}
    {guarded after : Guarded σ} {result : Except RepoError α}
    (h : guard failure name call guarded = (result, after)) :
    call guarded.inner = (result, after.inner) ∨
      (∃ error, result = .error error) ∧ after.inner = guarded.inner := by
  rw [guard] at h
  dsimp only at h
  split at h
  next =>
    cases h
    exact Or.inl rfl
  next =>
    cases h
    exact Or.inr ⟨⟨_, rfl⟩, rfl⟩

theorem guard_backs (h : call.Backs view seen) (failure : RepoCall → QueryFailure)
    (name : RepoCall) : (guard failure name call).Backs (fun state => view state.inner) seen := by
  refine ⟨fun state value after hrun => ?_, fun state error after hrun => ?_⟩
  · obtain hcall | ⟨⟨_, hfailed⟩, -⟩ := guard_cases hrun
    · exact h.ok _ _ _ hcall
    · cases hfailed
  · obtain hcall | ⟨-, hsame⟩ := guard_cases hrun
    · exact h.error _ _ _ hcall
    · exact congrArg view hsame

theorem guard_reads (h : call.Reads view seen) (failure : RepoCall → QueryFailure)
    (name : RepoCall) : (guard failure name call).Reads (fun state => view state.inner) seen := by
  refine ⟨(guard_backs h.backs failure name).ok, fun state result after hrun => ?_⟩
  obtain hcall | ⟨-, hsame⟩ := guard_cases hrun
  · exact h.keeps _ _ _ hcall
  · exact congrArg view hsame

end Guarded

/-- A guard only adds failures. -/
theorem Repo.Backed.guarded (h : repo.Backed memory view) (failure : RepoCall → QueryFailure) :
    (repo.guarded failure).Backed memory fun state => view state.inner where
  migrate := Guarded.guard_backs h.migrate failure _
  reset := Guarded.guard_backs h.reset failure _
  resetCount := Guarded.guard_reads h.resetCount failure _
  countReset := Guarded.guard_backs h.countReset failure _
  commit unit := Guarded.guard_backs (h.commit unit) failure _
  entity key := Guarded.guard_reads (h.entity key) failure _
  checkpoints := Guarded.guard_reads h.checkpoints failure _
  registrations := Guarded.guard_reads h.registrations failure _
  recentBlocks chain limit := Guarded.guard_reads (h.recentBlocks chain limit) failure _
  latestOrigins keys := Guarded.guard_reads (h.latestOrigins keys) failure _
  historyIn scope := Guarded.guard_reads (h.historyIn scope) failure _
  recordAt key origin := Guarded.guard_reads (h.recordAt key origin) failure _
  firstInvalidatedBlocks scope := Guarded.guard_reads (h.firstInvalidatedBlocks scope) failure _
  applyRollback plan := Guarded.guard_backs (h.applyRollback plan) failure _
  prune chain minBlock := Guarded.guard_backs (h.prune chain minBlock) failure _

/-! ### What is made of the calls -/

/-- A write that succeeds in the end was made once, on the state as it was seen before. -/
theorem RetryPolicy.write_eq_ok {policy : RetryPolicy} {call : Call σ RepoError Unit}
    {seen : Call ν RepoError Unit} (h : call.Backs view seen) {state : σ}
    (hwrite : (policy.write call state).result = .ok ()) :
    seen (view state) = (.ok (), view (policy.write call state).repo) := by
  rcases write_cases policy h.error state with ⟨-, before, hbefore, hcall⟩ | ⟨⟨error, herror⟩, -⟩
  · rw [← hbefore]
    exact h.ok _ _ _ hcall
  · rw [herror] at hwrite
    cases hwrite

namespace Repo.Backed

theorem countResets (h : repo.Backed memory view) (times : Nat) :
    (countResets repo times).Follows view (countResets memory times) := by
  induction times with
  | zero => exact (Call.Reads.pure ()).ok
  | succ times ih => exact h.countReset.ok.bind fun _ => ih

theorem resetIfAsked (h : repo.Backed memory view) (asked : Nat) :
    (resetIfAsked repo asked).Follows view (resetIfAsked memory asked) := by
  refine h.resetCount.ok.bind fun made => ?_
  split
  next => exact h.reset.ok.bind fun _ => h.countResets _
  next => exact (Call.Reads.pure ()).ok

theorem boot (h : repo.Backed memory view) {config : Config} {state after : σ} {booted : Booted}
    (hboot : boot repo config state = (.ok booted, after)) :
    ChainIndexer.boot memory config (view state) = (.ok booted, view after) := by
  have hread : (bootRepo repo config).Follows view (bootRepo memory config) := by
    refine h.migrate.ok.bind fun _ => (h.resetIfAsked _).bind fun _ => ?_
    refine h.checkpoints.ok.bind fun _ => h.registrations.ok.bind fun _ => ?_
    exact (Call.Reads.pure _).ok
  rw [ChainIndexer.boot] at hboot ⊢
  cases hvalidate : config.validate with
  | error error =>
    rw [hvalidate] at hboot
    cases hboot
  | ok value =>
    rw [hvalidate] at hboot
    cases hcall : bootRepo repo config state with
    | mk result last =>
      rw [hcall] at hboot
      cases result with
      | error error => cases hboot
      | ok found =>
        cases hboot
        dsimp only
        rw [hread _ _ _ hcall]

theorem make (h : repo.Backed memory view) (mode : Mode) (reorg : Reorg) (tracker : Tracker) :
    (RollbackPlan.make repo mode reorg tracker).Reads view
      (RollbackPlan.make memory mode reorg tracker) := by
  refine (h.historyIn _).bind fun records => ?_
  refine Call.Reads.bind (Call.Reads.mapM fun entry => ?_) fun restores => ?_
  · rw [RollbackPlan.restore, RollbackPlan.restore]
    split
    next => exact .pure _
    next =>
      refine (h.recordAt _ _).bind fun found => ?_
      cases found with
      | none => exact .throw _
      | some previous => exact .pure _
  · refine Call.Reads.bind ?_ fun rewinds => .pure _
    unfold RollbackPlan.rewindsFor
    cases RollbackScope.ofReorg mode reorg with
    | chain reorged safeBlock => exact .pure _
    | global reorged safeBlock safeTimestamp =>
      exact (h.firstInvalidatedBlocks _).bind fun first => .pure _

end Repo.Backed

/-! ### Processing -/

section Processing

variable {α : Type} {handlers : HandlerTable} {events : List Event}

/-- A loader sees nothing change, whatever it makes of reads that fail. -/
theorem Loader.run_view (h : repo.Backed memory view) (loader : Loader α) (loaded : LoadedEntities)
    (state : σ) : view (loader.run repo loaded state).2.2 = view state := by
  induction loader generalizing loaded state with
  | done value => rfl
  | fail error => rfl
  | load key next ih =>
    rw [run]
    split
    next => exact ih _ _ _
    next =>
      cases hread : repo.entity key state with
      | mk result after =>
        have hkept := (h.entity key).keeps state result after hread
        cases result with
        | ok fields => exact (ih _ _ after).trans hkept
        | error error => exact (ih _ _ after).trans hkept

theorem runLoaders_view (h : repo.Backed memory view) {loaded : LoadedEntities} {state after : σ}
    {result : Except ProcessingError LoadedEntities}
    (hload : runLoaders repo handlers events loaded state = (result, after)) :
    view after = view state ∧
      ∀ error, result = .error error → ∃ event ∈ events, ∃ cause, error = .handler event cause := by
  induction events generalizing loaded state with
  | nil =>
    cases hload
    exact ⟨rfl, nofun⟩
  | cons event rest ih =>
    rw [runLoaders] at hload
    cases hhandler : handlers.forEvent? event with
    | none =>
      rw [hhandler] at hload
      obtain ⟨hkept, hfailed⟩ := ih hload
      refine ⟨hkept, fun error herror => ?_⟩
      obtain ⟨failed, hmem, hcause⟩ := hfailed error herror
      exact ⟨failed, List.mem_cons_of_mem _ hmem, hcause⟩
    | some handler =>
      rw [hhandler] at hload
      dsimp only at hload
      have hview := (handler.load event).run_view h loaded state
      cases hrun : (handler.load event).run repo loaded state with
      | mk outcome last =>
        obtain ⟨more, now⟩ := last
        rw [hrun] at hload hview
        cases outcome with
        | error cause =>
          cases hload
          refine ⟨hview, fun error herror => ?_⟩
          cases herror
          exact ⟨event, List.mem_cons_self, cause, rfl⟩
        | ok value =>
          obtain ⟨hkept, hfailed⟩ := ih hload
          refine ⟨hkept.trans hview, fun error herror => ?_⟩
          obtain ⟨failed, hmem, hcause⟩ := hfailed error herror
          exact ⟨failed, List.mem_cons_of_mem _ hmem, hcause⟩

theorem runHandlers_eq_ok {loaded : LoadedEntities} {registry : Registry} {after : HandledEvents}
    (h : runHandlers handlers loaded events (.start registry) = (after, none)) :
    after.registry = registry.extend after.registrations := by
  obtain ⟨count, _, _, hrun, hall⟩ := handlesAll_of_runHandlers h
  obtain ⟨_, _, _, hregistry, hregistrations⟩ := handlesAll_adds .empty hrun hall rfl
  rw [hregistry, hregistrations]
  rfl

theorem Registry.register_lowercase {registry after : Registry} {chain : ChainId}
    {address contract : String} {event : Event} {registration : Registration}
    (h : registry.register chain address contract event = .ok (some registration, after)) :
    Text.lowercase registration.address = registration.address := by
  rw [register] at h
  split at h
  next =>
    dsimp only at h
    split at h
    next => cases h
    next =>
      cases h
      exact Text.lowercase_lowercase address
  next => cases h

theorem HandledEvents.registerAll_lowercase {event : Event} {requests : List RegistrationRequest}
    {registry after : Registry} {registered registrations : List Registration}
    (h : registerAll event requests registry registered = .ok (registrations, after))
    (hbefore : ∀ registration ∈ registered,
      Text.lowercase registration.address = registration.address) :
    ∀ registration ∈ registrations,
      Text.lowercase registration.address = registration.address := by
  induction requests generalizing registry registered with
  | nil =>
    cases h
    exact hbefore
  | cons request rest ih =>
    rw [registerAll] at h
    split at h
    next first between hregister =>
      refine ih h fun registration hmem => ?_
      rcases List.mem_append.1 hmem with hold | hnew
      · exact hbefore registration hold
      · rw [List.mem_singleton.1 hnew]
        exact Registry.register_lowercase hregister
    next => exact ih h hbefore
    next => cases h

theorem runHandlers_lowercase {loaded : LoadedEntities} {handled after : HandledEvents}
    (h : runHandlers handlers loaded events handled = (after, none))
    (hbefore : ∀ registration ∈ handled.registrations,
      Text.lowercase registration.address = registration.address) :
    ∀ registration ∈ after.registrations,
      Text.lowercase registration.address = registration.address := by
  induction events generalizing handled with
  | nil =>
    cases h
    exact hbefore
  | cons event rest ih =>
    obtain ⟨changes, registrations, hresult, hrest⟩ := runHandlers_cons_eq_none h
    have hadded := (handledThrough_adds hresult).registrations
    obtain ⟨rfl, hrun⟩ | ⟨hsome, rfl⟩ := hrest
    · rw [if_pos rfl] at hadded
      refine ih hrun ?_
      rwa [hadded]
    · rw [hadded, if_neg hsome]
      obtain ⟨-, -, hnone⟩ | ⟨_, _, _, _, _, _, hregister⟩ := handleEvent_eq_ok hresult
      · exact absurd hnone hsome
      · rw [HandledEvents.registerFor] at hregister
        split at hregister
        next => cases hregister
        next =>
          exact HandledEvents.registerAll_lowercase hregister fun _ hmem =>
            absurd hmem List.not_mem_nil

/-- What processing a unit comes to: nothing is stored, and unless the unit succeeds nothing is
registered, either. -/
theorem Repo.Backed.processEvents (h : repo.Backed memory view) (handlers : HandlerTable)
    (registry : Registry) (events : List Event) (state : σ) :
    view (processEvents repo handlers registry events state).repo = view state ∧
      match (ChainIndexer.processEvents repo handlers registry events state).result with
      | .ok processed =>
        (ChainIndexer.processEvents repo handlers registry events state).registry =
            registry.extend processed.registrations ∧
          ∀ registration ∈ processed.registrations,
            Text.lowercase registration.address = registration.address
      | .error (.handler event _) =>
        (ChainIndexer.processEvents repo handlers registry events state).registry = registry ∧
          event ∈ events
      | .error (.repo _) => True := by
  unfold ChainIndexer.processEvents
  cases hload : runLoaders repo handlers events .empty state with
  | mk loading loadedState =>
    obtain ⟨hview, hfailed⟩ := runLoaders_view h hload
    cases loading with
    | error error =>
      obtain ⟨event, hmem, cause, rfl⟩ := hfailed error rfl
      exact ⟨hview, rfl, hmem⟩
    | ok loaded =>
      dsimp only
      cases hrun : runHandlers handlers loaded events (.start registry) with
      | mk handled failure =>
        cases failure with
        | some error =>
          obtain ⟨hregistry, event, hmem, cause, rfl⟩ := runHandlers_error hrun
          exact ⟨hview, hregistry, hmem⟩
        | none =>
          have hregistry := runHandlers_eq_ok hrun
          have hlower := runHandlers_lowercase hrun fun _ hmem => absurd hmem List.not_mem_nil
          dsimp only
          by_cases hempty : handled.writes.isEmpty = true
          · rw [if_pos hempty]
            exact ⟨hview, hregistry, hlower⟩
          · rw [if_neg hempty]
            generalize hkeys : (handled.writes.map (·.1.key)).eraseDups = keys
            cases hlatest : repo.latestOrigins keys loadedState with
            | mk result after =>
              have hkept := ((h.latestOrigins keys).keeps _ _ _ hlatest).trans hview
              cases result with
              | ok latest => exact ⟨hkept, hregistry, hlower⟩
              | error error => exact ⟨hkept, trivial⟩

end Processing

end ChainIndexer
