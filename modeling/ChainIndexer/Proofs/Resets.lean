import ChainIndexer.Proofs.Backed

/-!
# Resets

A boot resets storage if more resets are asked for than were made: it drops all data and counts the
resets one after the other, and each of these calls may fail. As the data goes before the first
count, a count that reached what is asked for says that no older data is left, whatever failed in
between. A boot that asks for no more than is counted touches nothing.
-/

namespace ChainIndexer

namespace Call

variable {σ ε α β τ : Type} {call : Call σ ε α} {ready : σ → Prop} {see : σ → τ}

/-- Whether a call on a state that is ready leaves it ready, and leaves what is seen of it as it is,
though it fails. -/
def Keeps (ready : σ → Prop) (see : σ → τ) (call : Call σ ε α) : Prop :=
  ∀ state result after, ready state → call state = (result, after) →
    ready after ∧ see after = see state

theorem Keeps.pure (value : α) : (pure value : Call σ ε α).Keeps ready see := by
  intro state result after hready hrun
  cases hrun
  exact ⟨hready, rfl⟩

theorem Keeps.throw (error : ε) : (throw error : Call σ ε α).Keeps ready see := by
  intro state result after hready hrun
  cases hrun
  exact ⟨hready, rfl⟩

theorem Keeps.and {τ' : Type} {see' : σ → τ'} (h : call.Keeps ready see)
    (h' : call.Keeps ready see') : call.Keeps ready fun state => (see state, see' state) :=
  fun state result after hready hrun =>
    ⟨(h state result after hready hrun).1,
      Prod.ext (h state result after hready hrun).2 (h' state result after hready hrun).2⟩

theorem Keeps.map {τ' : Type} (h : call.Keeps ready see) (see' : τ → τ') :
    call.Keeps ready fun state => see' (see state) := fun state result after hready hrun =>
  ⟨(h state result after hready hrun).1, congrArg see' (h state result after hready hrun).2⟩

theorem Keeps.get_bind {next : σ → Call σ ε β}
    (hnext : ∀ state, (next state).Keeps ready see) : (get >>= next).Keeps ready see := by
  intro state result after hready hrun
  rw [bind_apply, get_apply] at hrun
  exact hnext state state result after hready hrun

theorem Keeps.bind {next : α → Call σ ε β} (h : call.Keeps ready see)
    (hnext : ∀ value, (next value).Keeps ready see) : (call >>= next).Keeps ready see := by
  intro state result after hready hrun
  rw [bind_apply] at hrun
  cases hcall : call state with
  | mk first between =>
    obtain ⟨hbetween, hkept⟩ := h state first between hready hcall
    rw [hcall] at hrun
    cases first with
    | ok value =>
      obtain ⟨hafter, hrest⟩ := hnext value between result after hbetween hrun
      exact ⟨hafter, hrest.trans hkept⟩
    | error error =>
      cases hrun
      exact ⟨hbetween, hkept⟩

end Call

/-- A use of a store by a run that has booted: any call besides those of a boot that change the
store. -/
inductive Repo.Uses {σ : Type} (repo : Repo σ) : {α : Type} → Call σ RepoError α → Prop
  | commit (unit : WriteUnit) : repo.Uses (repo.commit unit)
  | entity (key : EntityKey) : repo.Uses (repo.entity key)
  | checkpoints : repo.Uses repo.checkpoints
  | registrations : repo.Uses repo.registrations
  | recentBlocks (chain : ChainId) (limit : Nat) : repo.Uses (repo.recentBlocks chain limit)
  | latestOrigins (keys : List EntityKey) : repo.Uses (repo.latestOrigins keys)
  | historyIn (scope : RollbackScope) : repo.Uses (repo.historyIn scope)
  | recordAt (key : EntityKey) (origin : Origin) : repo.Uses (repo.recordAt key origin)
  | firstInvalidatedBlocks (scope : RollbackScope) :
    repo.Uses (repo.firstInvalidatedBlocks scope)
  | applyRollback (plan : RollbackPlan) : repo.Uses (repo.applyRollback plan)
  | prune (chain : ChainId) (minBlock : Nat) : repo.Uses (repo.prune chain minBlock)

variable {σ δ : Type} {repo : Repo σ} {ready : σ → Prop} {count : σ → Nat} {data : σ → δ}
  {wiped : δ}

/-- Whether a store that counts resets wipes its data with each reset, though not more than these
calls say: a reset that fails may have dropped any part of the data, and a count that fails may have
taken effect. All calls come at states that are ready, and lead to such states. Stores in memory are
such stores, behind a guard too, and so are stores on a server. -/
structure Repo.Resettable (repo : Repo σ) (ready : σ → Prop) (count : σ → Nat) (data : σ → δ)
    (wiped : δ) : Prop where
  migrate : repo.migrate.Keeps ready fun state => (count state, data state)
  reset : repo.reset.Keeps ready count
  wipes : ∀ state after, ready state → repo.reset state = (.ok (), after) → data after = wiped
  resetCount : repo.resetCount.Keeps ready fun state => (count state, data state)
  answers : ∀ state made after, ready state → repo.resetCount state = (.ok made, after) →
    made = count state
  countReset : repo.countReset.Keeps ready data
  counts : ∀ state after, ready state → repo.countReset state = (.ok (), after) →
    count after = count state + 1
  countsOnce : ∀ state error after, ready state → repo.countReset state = (.error error, after) →
    count after = count state ∨ count after = count state + 1
  checkpoints : repo.checkpoints.Keeps ready data
  registrations : repo.registrations.Keeps ready data
  uses : ∀ {α : Type} {call : Call σ RepoError α}, repo.Uses call → call.Keeps ready count

/-- What one attempt to reset, or several, make of a store: the count does not reach what is asked
for before all data is dropped, and reaches it if the last attempt comes to its end. -/
structure ResetAttempt (count : σ → Nat) (data : σ → δ) (wiped : δ) (asked : Nat)
    (before after : σ) (ended : Prop) : Prop where
  spared : asked ≤ count before → count after = count before ∧ data after = data before
  range : count before < asked → count before ≤ count after ∧ count after ≤ asked
  wiped : count before < asked → count after = asked → data after = wiped
  ended : ended → count before < asked → count after = asked

namespace ResetAttempt

variable {asked : Nat} {before after before' after' : σ} {ended : Prop}

variable {last : σ}

theorem of_same (hcount : count after = count before) (hdata : data after = data before)
    (hunended : ¬ ended) : ResetAttempt count data wiped asked before after ended where
  spared := fun _ => ⟨hcount, hdata⟩
  range := fun hlt => ⟨hcount.ge, hcount ▸ hlt.le⟩
  wiped := fun hlt heq => absurd hlt (Nat.not_lt.2 (heq.symm.trans hcount).le)
  ended := fun h => absurd h hunended

/-- Only what is seen of the store matters. -/
theorem congr (h : ResetAttempt count data wiped asked before after ended)
    (hbefore : (count before', data before') = (count before, data before))
    (hafter : (count after', data after') = (count after, data after)) :
    ResetAttempt count data wiped asked before' after' ended := by
  obtain ⟨hcount, hdata⟩ := Prod.mk.inj hbefore
  obtain ⟨hcount', hdata'⟩ := Prod.mk.inj hafter
  obtain ⟨hspared, hrange, hwiped, hended⟩ := h
  rw [← hcount, ← hcount'] at hspared hrange hwiped hended
  rw [← hdata, ← hdata'] at hspared
  rw [← hdata'] at hwiped
  exact ⟨hspared, hrange, hwiped, hended⟩

/-- An attempt may follow one that did not come to its end. -/
theorem trans (h : ResetAttempt count data wiped asked before after False)
    (h' : ResetAttempt count data wiped asked after last ended) :
    ResetAttempt count data wiped asked before last ended := by
  -- If the first attempt reached what is asked for, the second one touches nothing.
  have hreached (hlt : count before < asked) (hle : asked ≤ count after) :
      count last = asked ∧ data last = wiped := by
    obtain ⟨hcount, hdata⟩ := h'.spared hle
    have hasked : count after = asked := Nat.le_antisymm (h.range hlt).2 hle
    exact ⟨hcount.trans hasked, hdata.trans (h.wiped hlt hasked)⟩
  refine ⟨fun hle => ?_, fun hlt => ?_, fun hlt hasked => ?_, fun hend hlt => ?_⟩
  · obtain ⟨hcount, hdata⟩ := h.spared hle
    obtain ⟨hcount', hdata'⟩ := h'.spared (hcount ▸ hle)
    exact ⟨hcount'.trans hcount, hdata'.trans hdata⟩
  · obtain ⟨hge, -⟩ := h.range hlt
    rcases Nat.lt_or_ge (count after) asked with hless | hreach
    · obtain ⟨hge', hle'⟩ := h'.range hless
      exact ⟨Nat.le_trans hge hge', hle'⟩
    · obtain ⟨hcount, -⟩ := hreached hlt hreach
      omega
  · rcases Nat.lt_or_ge (count after) asked with hless | hreach
    · exact h'.wiped hless hasked
    · exact (hreached hlt hreach).2
  · rcases Nat.lt_or_ge (count after) asked with hless | hreach
    · exact h'.ended hend hless
    · exact (hreached hlt hreach).1

end ResetAttempt

namespace Repo.Resettable

variable {config : Config} {state before after : σ} {result : Except RepoError Unit}
  {asked times : Nat}

/-- Counting resets may stop anywhere, and leaves the data alone. -/
theorem countResets (h : repo.Resettable ready count data wiped) (hready : ready before)
    (hrun : ChainIndexer.countResets repo times before = (result, after)) :
    ready after ∧ data after = data before ∧ count before ≤ count after ∧
      count after ≤ count before + times ∧
      (result = .ok () → count after = count before + times) := by
  induction times generalizing before with
  | zero =>
    cases hrun
    exact ⟨hready, rfl, Nat.le_refl _, Nat.le_refl _, fun _ => rfl⟩
  | succ times ih =>
    rw [ChainIndexer.countResets, Call.bind_apply] at hrun
    cases hcall : repo.countReset before with
    | mk first between =>
      obtain ⟨hbetween, hdata⟩ := h.countReset before first between hready hcall
      rw [hcall] at hrun
      cases first with
      | ok value =>
        have hcounted := h.counts before between hready hcall
        obtain ⟨hafter, hrest, hle, hbound, hend⟩ := ih hbetween hrun
        refine ⟨hafter, hrest.trans hdata, by omega, by omega, fun hok => ?_⟩
        rw [hend hok, hcounted]
        omega
      | error error =>
        cases hrun
        have hcounted := h.countsOnce before error after hready hcall
        exact ⟨hbetween, hdata, by omega, by omega, by simp⟩

theorem resetIfAsked (h : repo.Resettable ready count data wiped) (hready : ready before)
    (hrun : ChainIndexer.resetIfAsked repo asked before = (result, after)) :
    ready after ∧ ResetAttempt count data wiped asked before after (result = .ok ()) := by
  rw [ChainIndexer.resetIfAsked, Call.bind_apply] at hrun
  cases hcall : repo.resetCount before with
  | mk first between =>
    obtain ⟨hbetween, hread⟩ := h.resetCount before first between hready hcall
    suffices hattempt : ready after ∧
        ResetAttempt count data wiped asked between after (result = .ok ()) from
      ⟨hattempt.1, hattempt.2.congr hread.symm rfl⟩
    rw [hcall] at hrun
    cases first with
    | error error =>
      cases hrun
      exact ⟨hbetween, .of_same rfl rfl (by simp)⟩
    | ok made =>
      obtain rfl : made = count between :=
        (h.answers before made between hready hcall).trans (Prod.mk.inj hread).1.symm
      dsimp only at hrun
      split at hrun
      next hasked =>
        rw [Call.bind_apply] at hrun
        cases hreset : repo.reset between with
        | mk second emptied =>
          obtain ⟨hemptied, hcount⟩ := h.reset between second emptied hbetween hreset
          rw [hreset] at hrun
          cases second with
          | error error =>
            -- Data may be gone, but the count still says that it has to go.
            cases hrun
            exact ⟨hemptied, fun hle => by omega, fun _ => by omega, fun _ hall => by omega,
              by simp⟩
          | ok value =>
            obtain ⟨hafter, hdata, hle, hbound, hend⟩ := h.countResets hemptied hrun
            refine ⟨hafter, fun hle => by omega, fun _ => by omega, fun _ _ => ?_, fun hok _ => ?_⟩
            · exact hdata.trans (h.wipes between emptied hbetween hreset)
            · have hcounted := hend hok
              omega
      next hasked =>
        cases hrun
        exact ⟨hbetween, fun _ => ⟨rfl, rfl⟩, fun hlt => absurd hlt hasked,
          fun hlt => absurd hlt hasked, fun _ hlt => absurd hlt hasked⟩

/-- What a boot reads once storage is prepared leaves storage alone. -/
theorem keeps_reading (h : repo.Resettable ready count data wiped) (config : Config) :
    (do
      let tracker := Tracker.start config.chains (← repo.checkpoints)
      let registrations ← repo.registrations
      return ⟨tracker, (Registry.ofContracts config.contracts).reload registrations⟩ :
      Call σ RepoError Booted).Keeps ready fun state => (count state, data state) := by
  have hcheckpoints := (h.uses .checkpoints).and h.checkpoints
  have hregistrations := (h.uses .registrations).and h.registrations
  exact hcheckpoints.bind fun _ => hregistrations.bind fun _ => .pure _

/-- Whatever a boot comes to, it attempted a reset. -/
theorem bootRepo (h : repo.Resettable ready count data wiped) (hready : ready before)
    {result : Except RepoError Booted}
    (hrun : ChainIndexer.bootRepo repo config before = (result, after)) :
    ready after ∧ ResetAttempt count data wiped config.resetCount before after
      (∃ booted, result = .ok booted) := by
  rw [ChainIndexer.bootRepo, Call.bind_apply] at hrun
  cases hmigrate : repo.migrate before with
  | mk first migrated =>
    obtain ⟨hmigrated, hseen⟩ := h.migrate before first migrated hready hmigrate
    suffices hattempt : ready after ∧ ResetAttempt count data wiped config.resetCount migrated after
        (∃ booted, result = .ok booted) from ⟨hattempt.1, hattempt.2.congr hseen.symm rfl⟩
    rw [hmigrate] at hrun
    cases first with
    | error error =>
      cases hrun
      exact ⟨hmigrated, .of_same rfl rfl (by simp)⟩
    | ok value =>
      dsimp only at hrun
      rw [Call.bind_apply] at hrun
      cases hreset : ChainIndexer.resetIfAsked repo config.resetCount migrated with
      | mk second reset =>
        obtain ⟨hdone, hspared, hrange, hwiped, hended⟩ := h.resetIfAsked hmigrated hreset
        rw [hreset] at hrun
        cases second with
        | error error =>
          cases hrun
          exact ⟨hdone, hspared, hrange, hwiped, by simp⟩
        | ok value =>
          obtain ⟨hafter, hread⟩ := h.keeps_reading config reset result after hdone hrun
          have hattempt : ResetAttempt count data wiped config.resetCount migrated reset
              (∃ booted, result = .ok booted) := ⟨hspared, hrange, hwiped, fun _ => hended rfl⟩
          exact ⟨hafter, hattempt.congr rfl hread⟩

theorem boot (h : repo.Resettable ready count data wiped) (hready : ready before)
    {result : Except IndexingError Booted}
    (hrun : ChainIndexer.boot repo config before = (result, after)) :
    ready after ∧ ResetAttempt count data wiped config.resetCount before after
      (∃ booted, result = .ok booted) := by
  rw [ChainIndexer.boot] at hrun
  split at hrun
  next =>
    cases hrun
    exact ⟨hready, .of_same rfl rfl (by simp)⟩
  next =>
    split at hrun
    next booted reached hboot =>
      cases hrun
      obtain ⟨hafter, hspared, hrange, hwiped, hended⟩ := h.bootRepo hready hboot
      exact ⟨hafter, hspared, hrange, hwiped, fun _ => hended ⟨booted, rfl⟩⟩
    next error reached hboot =>
      cases hrun
      obtain ⟨hafter, hspared, hrange, hwiped, -⟩ := h.bootRepo hready hboot
      exact ⟨hafter, hspared, hrange, hwiped, by simp⟩

end Repo.Resettable

/-! ### Stores in memory -/

/-- What a store holds besides the count of resets. -/
def Store.uncounted (store : Store) : Store := { store with resetCount := 0 }

section Backed

variable {view : σ → Store} {α τ : Type} {call : Call σ RepoError α} {seen : Call Store RepoError α}

theorem Call.Reads.keeps_see (h : call.Reads view seen) (see : Store → τ) :
    call.Keeps (fun _ => True) fun state => see (view state) :=
  fun state result after _ hrun => ⟨trivial, congrArg see (h.keeps state result after hrun)⟩

theorem Call.Backs.keeps_see (h : call.Backs view seen) (see : Store → τ)
    (hseen : ∀ store, see (seen store).2 = see store) :
    call.Keeps (fun _ => True) fun state => see (view state) := by
  intro state result after _ hrun
  refine ⟨trivial, ?_⟩
  cases result with
  | ok value =>
    have hkept := hseen (view state)
    rw [h.ok state value after hrun] at hkept
    exact hkept
  | error error => exact congrArg see (h.error state error after hrun)

theorem Repo.resetCount_commit (unit : WriteUnit) (store : Store) :
    (Repo.inMemory.commit unit store).2.resetCount = store.resetCount := by
  rcases Repo.inMemory_commit unit store with hok | ⟨cause, hcause⟩
  · rw [hok]
    rfl
  · rw [hcause]

/-- A store that does what the store in memory does, or fails and changes nothing, can be reset. -/
theorem Repo.Backed.resettable (h : repo.Backed Repo.inMemory view) :
    repo.Resettable (fun _ => True) (fun state => (view state).resetCount)
      (fun state => (view state).uncounted) Store.empty where
  migrate := h.migrate.keeps_see (fun store => (store.resetCount, store.uncounted)) fun _ => rfl
  reset := h.reset.keeps_see (·.resetCount) fun _ => rfl
  wipes := fun state after _ hrun => by
    have hreset := (Prod.mk.inj (h.reset.ok state () after hrun)).2
    exact (congrArg Store.uncounted hreset).symm
  resetCount := h.resetCount.keeps_see fun store => (store.resetCount, store.uncounted)
  answers := fun state made after _ hrun =>
    (Except.ok.inj (Prod.mk.inj (h.resetCount.ok state made after hrun)).1).symm
  countReset := h.countReset.keeps_see Store.uncounted fun _ => rfl
  counts := fun state after _ hrun => by
    have hcounted := (Prod.mk.inj (h.countReset.ok state () after hrun)).2
    exact (congrArg (·.resetCount) hcounted).symm
  countsOnce := fun state error after _ hrun =>
    Or.inl (congrArg (·.resetCount) (h.countReset.error state error after hrun))
  checkpoints := h.checkpoints.keeps_see Store.uncounted
  registrations := h.registrations.keeps_see Store.uncounted
  uses := fun huse => by
    cases huse with
    | commit unit => exact (h.commit unit).keeps_see _ (Repo.resetCount_commit unit)
    | entity key => exact (h.entity key).keeps_see (·.resetCount)
    | checkpoints => exact h.checkpoints.keeps_see (·.resetCount)
    | registrations => exact h.registrations.keeps_see (·.resetCount)
    | recentBlocks chain limit => exact (h.recentBlocks chain limit).keeps_see (·.resetCount)
    | latestOrigins keys => exact (h.latestOrigins keys).keeps_see (·.resetCount)
    | historyIn scope => exact (h.historyIn scope).keeps_see (·.resetCount)
    | recordAt key origin => exact (h.recordAt key origin).keeps_see (·.resetCount)
    | firstInvalidatedBlocks scope =>
      exact (h.firstInvalidatedBlocks scope).keeps_see (·.resetCount)
    | applyRollback plan => exact (h.applyRollback plan).keeps_see (·.resetCount) fun _ => rfl
    | prune chain minBlock => exact (h.prune chain minBlock).keeps_see (·.resetCount) fun _ => rfl

end Backed

/-! ### Boots over time -/

/-- A series of boots that ask for the same resets and fail. -/
inductive FailedBoots (repo : Repo σ) (asked : Nat) : σ → σ → Prop
  | none (state : σ) : FailedBoots repo asked state state
  | boot {first before after : σ} {config : Config} {error : IndexingError}
      (earlier : FailedBoots repo asked first before) (hasked : config.resetCount = asked)
      (hboot : boot repo config before = (.error error, after)) :
      FailedBoots repo asked first after

/-- What happens to a store over time: boots, whatever they ask for and come to, and uses by
runs. -/
inductive Served (repo : Repo σ) : σ → σ → Prop
  | none (state : σ) : Served repo state state
  | boot {first before after : σ} {config : Config} {result : Except IndexingError Booted}
      (earlier : Served repo first before) (hboot : boot repo config before = (result, after)) :
      Served repo first after
  | use {first before after : σ} {α : Type} {call : Call σ RepoError α}
      {result : Except RepoError α} (earlier : Served repo first before) (huse : repo.Uses call)
      (hcall : call before = (result, after)) : Served repo first after

namespace Repo.Resettable

variable {asked : Nat} {before after : σ}

theorem failedBoots (h : repo.Resettable ready count data wiped) (hready : ready before)
    (hfailed : FailedBoots repo asked before after) :
    ready after ∧ ResetAttempt count data wiped asked before after False := by
  induction hfailed with
  | none => exact ⟨hready, .of_same rfl rfl not_false⟩
  | boot earlier hasked hboot ih =>
    obtain ⟨hbetween, hearlier⟩ := ih
    obtain ⟨hafter, hspared, hrange, hwiped, -⟩ := h.boot hbetween hboot
    rw [hasked] at hspared hrange hwiped
    exact ⟨hafter, hearlier.trans ⟨hspared, hrange, hwiped, False.elim⟩⟩

/-- The count of resets never goes back. -/
theorem count_le_of_served (h : repo.Resettable ready count data wiped) (hready : ready before)
    (hserved : Served repo before after) : ready after ∧ count before ≤ count after := by
  induction hserved with
  | none => exact ⟨hready, Nat.le_refl _⟩
  | @boot between _ config _ earlier hboot ih =>
    obtain ⟨hbetween, hle⟩ := ih
    obtain ⟨hafter, hattempt⟩ := h.boot hbetween hboot
    rcases Nat.lt_or_ge (count between) config.resetCount with hlt | hge
    · exact ⟨hafter, Nat.le_trans hle (hattempt.range hlt).1⟩
    · exact ⟨hafter, Nat.le_trans hle (hattempt.spared hge).1.ge⟩
  | use earlier huse hcall ih =>
    obtain ⟨hbetween, hle⟩ := ih
    obtain ⟨hafter, hcount⟩ := h.uses huse _ _ _ hbetween hcall
    exact ⟨hafter, Nat.le_trans hle hcount.ge⟩

/-- A boot that succeeds brings the count of resets to what it asks for, unless more were made. With
any series of boots before it that asked for as many and failed, it wipes the data if and only if
fewer were counted before the series. From then on no boot that asks for no more touches the data,
whatever happens in between. -/
theorem resets_once (h : repo.Resettable ready count data wiped) :
    (∀ config before booted after, ready before →
      ChainIndexer.boot repo config before = (.ok booted, after) →
      count after = max config.resetCount (count before)) ∧
    (∀ config before failed booted after, ready before →
      FailedBoots repo config.resetCount before failed →
      ChainIndexer.boot repo config failed = (.ok booted, after) →
      data after = if count before < config.resetCount then wiped else data before) ∧
    ∀ config before booted done later, ready before →
      ChainIndexer.boot repo config before = (.ok booted, done) → Served repo done later →
      ∀ config' result after, config'.resetCount ≤ config.resetCount →
        ChainIndexer.boot repo config' later = (result, after) → data after = data later := by
  have hcounts : ∀ config before booted after, ready before →
      ChainIndexer.boot repo config before = (.ok booted, after) →
        count after = max config.resetCount (count before) := by
    intro config before booted after hready hboot
    obtain ⟨-, hattempt⟩ := h.boot hready hboot
    rcases Nat.lt_or_ge (count before) config.resetCount with hlt | hge
    · rw [hattempt.ended ⟨booted, rfl⟩ hlt, Nat.max_eq_left hlt.le]
    · rw [(hattempt.spared hge).1, Nat.max_eq_right hge]
  refine ⟨hcounts, fun config before failed booted after hready hfailed hboot => ?_, ?_⟩
  · obtain ⟨hbetween, hearlier⟩ := h.failedBoots hready hfailed
    have hattempt := hearlier.trans (h.boot hbetween hboot).2
    split
    next hlt => exact hattempt.wiped hlt (hattempt.ended ⟨booted, rfl⟩ hlt)
    next hge => exact (hattempt.spared (Nat.not_lt.1 hge)).2
  · intro config before booted done later hready hboot hserved config' result after hasked hagain
    have hcount := hcounts config before booted done hready hboot
    obtain ⟨hlater, hle⟩ := h.count_le_of_served (h.boot hready hboot).1 hserved
    exact ((h.boot hlater hagain).2.spared (by omega)).2

end Repo.Resettable

/-! ### Samples -/

/-- A configuration of one chain that asks for some resets. -/
def Config.asking (resets : Nat) : Config :=
  { Config.base with chains := [⟨1, 0, none⟩], resetCount := resets }

/-- A store that was reset once and holds an event. It will refuse the next reset, and then the next
time that a reset is counted. -/
def Guarded.reluctant : Guarded Store :=
  ((Guarded.around { Store.empty with rawEvents := [default], resetCount := 1 }).refuse
    RepoCall.reset.name 1).refuse RepoCall.countReset.name 1

/-- What is left of it after some boots that ask for three resets. -/
def Guarded.booted : (boots : Nat) → Guarded Store
  | 0 => .reluctant
  | boots + 1 => (boot Repo.inMemory.refusing (.asking 3) (Guarded.booted boots)).2

/-- The first two boots fail, one on each refusal, and the third one succeeds. The event is gone
then, and what is stored later stays when two resets are asked for. -/
theorem Repo.reset_despite_refusals :
    FailedBoots Repo.inMemory.refusing 3 .reluctant (.booted 2) ∧
      (Guarded.booted 2).inner.resetCount = 1 ∧
      (∃ booted, boot Repo.inMemory.refusing (.asking 3) (.booted 2) = (.ok booted, .booted 3)) ∧
      (Guarded.booted 3).inner.resetCount = 3 ∧
      (Guarded.booted 3).inner.uncounted = .empty ∧
      ∀ later, Served Repo.inMemory.refusing (.booted 3) later →
        ∀ result after, boot Repo.inMemory.refusing (.asking 2) later = (result, after) →
          after.inner.uncounted = later.inner.uncounted := by
  have hresettable := (Repo.inMemory_backed.guarded fun call => .refused call.name).resettable
  obtain ⟨hcount, hwiped, hkept⟩ := hresettable.resets_once
  have hfirst : boot Repo.inMemory.refusing (.asking 3) .reluctant =
      (.error (.repo (.query (.refused RepoCall.reset.name))), .booted 1) := Prod.ext rfl rfl
  have hsecond : boot Repo.inMemory.refusing (.asking 3) (.booted 1) =
      (.error (.repo (.query (.refused RepoCall.countReset.name))), .booted 2) := Prod.ext rfl rfl
  obtain ⟨booted, hthird⟩ : ∃ booted,
      boot Repo.inMemory.refusing (.asking 3) (.booted 2) = (.ok booted, .booted 3) :=
    ⟨_, Prod.ext rfl rfl⟩
  have hfailed : FailedBoots Repo.inMemory.refusing 3 .reluctant (.booted 2) :=
    .boot (.boot (.none _) rfl hfirst) rfl hsecond
  refine ⟨hfailed, rfl, ⟨booted, hthird⟩, ?_, ?_, ?_⟩
  · exact hcount _ _ _ _ trivial hthird
  · exact hwiped (.asking 3) _ _ _ _ trivial hfailed hthird
  · intro later hserved result after hboot
    exact hkept _ _ _ _ _ trivial hthird hserved _ _ _ (by decide) hboot

end ChainIndexer
