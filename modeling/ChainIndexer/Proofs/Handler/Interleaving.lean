import ChainIndexer.Proofs.Handler.Answers
import ChainIndexer.Testing.Samples
import Mathlib.Algebra.Ring.Nat
import Mathlib.Data.List.Forall2

/-!
# Loading at once

Several loaders may be at work at once. Each looks an entity up among the loaded ones, reads it if
it is not there, and then adds it; others may go on in between, so two may read the same entity.
Their ends are collected in the order of the events, up to the first failure, and only a certain
number of loaders may have begun and not be collected. However they take turns, the result is that of
running them one after another.
-/

namespace ChainIndexer

/-- How a loader goes on when it is answered. -/
abbrev LoaderRest := Except HandlerError (Option Json) → Loader Unit

/-- Where a loader is, at a moment at which others may go on. -/
inductive LoaderPhase where
  | running (loader : Loader Unit)
  /-- The entity that it asks for is not among the loaded ones. -/
  | missed (key : EntityKey) (next : LoaderRest)
  /-- The entity is read, but not added to the loaded ones yet. -/
  | fetched (key : EntityKey) (fields : Option Json) (next : LoaderRest)

/-- Loaders at work, each list of them in the order of the events. -/
structure LoaderRun (σ : Type) where
  waiting : List (Event × Loader Unit)
  /-- Those that have begun and whose ends are not collected. -/
  begun : List (Event × LoaderPhase)
  loaded : LoadedEntities
  store : σ

/-- What may happen next while loaders are at work. -/
inductive LoaderMove where
  | begin
  /-- One of those that have begun goes on. -/
  | advance (index : Nat)
  /-- The first of those that have begun is done. -/
  | collect
deriving DecidableEq, Repr

namespace LoaderPhase

variable {σ : Type}

def isOver : LoaderPhase → Bool
  | running (.done _) => true
  | running (.fail _) => true
  | _ => false

/-- What a loader does before others go on. -/
def advance (repo : Repo σ) :
    LoaderPhase → LoadedEntities → σ → LoaderPhase × LoadedEntities × σ
  | running (.load key next), loaded, store =>
    match loaded.get? key with
    | some fields => (running (next (.ok fields)), loaded, store)
    | none => (missed key next, loaded, store)
  | running loader, loaded, store => (running loader, loaded, store)
  | missed key next, loaded, store =>
    match repo.entity key store with
    | (.ok fields, store) => (fetched key fields next, loaded, store)
    | (.error error, store) => (running (next (.error (.repo error))), loaded, store)
  | fetched key fields next, loaded, store =>
    (running (next (.ok fields)), loaded.insert key fields, store)

end LoaderPhase

namespace LoaderRun

variable {σ : Type}

def start (handlers : HandlerTable) (events : List Event) (store : σ) : LoaderRun σ :=
  ⟨handlers.loaders events, [], .empty, store⟩

/-- Makes a move, if it is possible with up to some number of loaders at work. -/
def step? (repo : Repo σ) (concurrency : Nat) (run : LoaderRun σ) :
    LoaderMove → Option (LoaderRun σ)
  | .begin =>
    match run.waiting with
    | [] => none
    | job :: waiting =>
      if run.begun.length < concurrency then
        some { run with waiting := waiting, begun := run.begun ++ [(job.1, .running job.2)] }
      else none
  | .advance index =>
    match run.begun[index]? with
    | none => none
    | some (event, phase) =>
      if phase.isOver then none
      else
        let (next, loaded, store) := phase.advance repo run.loaded run.store
        some
          { run with begun := run.begun.set index (event, next), loaded := loaded, store := store }
  | .collect =>
    match run.begun with
    | (_, .running (.done ())) :: begun => some { run with begun := begun }
    | _ => none

/-- Makes moves in turn, if all of them are possible. -/
def play? (repo : Repo σ) (concurrency : Nat) (run : LoaderRun σ) :
    List LoaderMove → Option (LoaderRun σ)
  | [] => some run
  | move :: rest =>
    (run.step? repo concurrency move).bind fun next => next.play? repo concurrency rest

/-- What a run came to, once all ends are collected or the next one to collect is a failure. -/
def result? (run : LoaderRun σ) : Option (Except ProcessingError LoadedEntities) :=
  match run.waiting, run.begun with
  | [], [] => some (.ok run.loaded)
  | _, (event, .running (.fail error)) :: _ => some (.error (.handler event error))
  | _, _ => none

end LoaderRun

/-! ### What one loader does -/

/-- How many moves a loader takes at the most. -/
def EntityAnswers.steps (answers : EntityAnswers) : Loader Unit → Nat
  | .done _ => 0
  | .fail _ => 0
  | .load key next => steps answers (next (answers.load key)) + 3

/-- Whether all that is loaded is as the store answers. -/
def EntityAnswers.Backs (answers : EntityAnswers) (loaded : LoadedEntities) : Prop :=
  ∀ key fields, loaded.get? key = some fields → answers key = .ok fields

namespace LoaderPhase

variable {σ : Type} {repo : Repo σ} {store : σ} {answers : EntityAnswers}
  {loaded grown : LoadedEntities} {phase after : LoaderPhase} {loader : Loader Unit}
  {key : EntityKey} {next : LoaderRest}

/-- What a loader has left to do, if it asks once more for the entity that it waits for. -/
def rest : LoaderPhase → Loader Unit
  | running loader => loader
  | missed key next => .load key next
  | fetched key _ next => .load key next

/-- How many moves a loader has left at the most. -/
def steps (answers : EntityAnswers) : LoaderPhase → Nat
  | running loader => answers.steps loader
  | missed key next => answers.steps (next (answers.load key)) + 2
  | fetched key _ next => answers.steps (next (answers.load key)) + 1

/-- Whether an entity that waits to be added is as the store answers. -/
def Sound (answers : EntityAnswers) (phase : LoaderPhase) : Prop :=
  ∀ key fields next, phase = .fetched key fields next → answers key = .ok fields

/-- Whether a loader has come closer to its end, and added nothing but what it asked for. -/
structure Advances (answers : EntityAnswers) (loaded grown : LoadedEntities)
    (phase after : LoaderPhase) : Prop where
  outcome : answers.outcome after.rest = answers.outcome phase.rest
  asks : ∀ key ∈ answers.asks after.rest, key ∈ answers.asks phase.rest
  loads : ∀ key ∈ answers.asks phase.rest,
    key ∈ answers.asks after.rest ∨ grown.get? key = (answers key).toOption
  grows : ∀ key, grown.get? key = loaded.get? key ∨
    key ∈ answers.asks phase.rest ∧ grown.get? key = (answers key).toOption
  sound : after.Sound answers
  steps : after.steps answers < phase.steps answers

theorem advances_of_rest (hrest : after.rest = phase.rest) (hsound : after.Sound answers)
    (hsteps : after.steps answers < phase.steps answers) :
    Advances answers loaded loaded phase after :=
  ⟨by rw [hrest], fun _ hkey => hrest ▸ hkey, fun _ hkey => Or.inl (hrest ▸ hkey),
    fun _ => Or.inl rfl, hsound, hsteps⟩

/-- Once the answer is there, it counts as loaded. -/
theorem advances_of_load (hrest : phase.rest = .load key next)
    (hloaded : grown.get? key = (answers key).toOption)
    (hother : ∀ other, other ≠ key → grown.get? other = loaded.get? other)
    (hsteps : answers.steps (next (answers.load key)) < phase.steps answers) :
    Advances answers loaded grown phase (running (next (answers.load key))) := by
  have hasks : answers.asks phase.rest = key :: answers.asks (next (answers.load key)) := by
    rw [hrest]
    rfl
  refine ⟨by rw [hrest]; rfl, fun other hmem => ?_, fun other hmem => ?_, fun other => ?_,
    (fun _ _ _ h => nomatch h), hsteps⟩
  · rw [hasks]
    exact List.mem_cons_of_mem _ hmem
  · rw [hasks] at hmem
    rcases List.mem_cons.1 hmem with rfl | hlater
    · exact Or.inr hloaded
    · exact Or.inl hlater
  · by_cases heq : other = key
    · rw [heq, hasks]
      exact Or.inr ⟨List.mem_cons_self, hloaded⟩
    · exact Or.inl (hother other heq)

theorem advance_advances (hrepo : repo.Answers store answers) (hbacks : answers.Backs loaded)
    (hsound : phase.Sound answers) (hover : phase.isOver = false) :
    ∃ after grown, phase.advance repo loaded store = (after, grown, store) ∧
      Advances answers loaded grown phase after := by
  cases phase with
  | running loader =>
    cases loader with
    | done value => cases hover
    | fail error => cases hover
    | load key next =>
      rw [advance]
      cases hloaded : loaded.get? key with
      | none =>
        exact ⟨_, _, rfl, advances_of_rest rfl (fun _ _ _ h => nomatch h) (Nat.lt_succ_self _)⟩
      | some fields =>
        have hanswer := hbacks key fields hloaded
        dsimp only
        rw [← EntityAnswers.load_of_ok hanswer]
        refine ⟨_, _, rfl, advances_of_load rfl ?_ (fun _ _ => rfl) (Nat.lt_add_of_pos_right ?_)⟩
        · rw [hloaded, hanswer]
          rfl
        · decide
  | missed key next =>
    -- Another loader may have added the entity in the meantime, but then with the same answer.
    rw [advance, hrepo key]
    cases hanswer : answers key with
    | ok fields =>
      refine ⟨_, _, rfl, advances_of_rest rfl (fun _ _ _ h => ?_) (Nat.lt_succ_self _)⟩
      cases h
      exact hanswer
    | error error =>
      dsimp only
      rw [← EntityAnswers.load_of_error hanswer]
      refine ⟨_, _, rfl, advances_of_load rfl ?_ (fun _ _ => rfl) (Nat.lt_add_of_pos_right ?_)⟩
      · cases hloaded : loaded.get? key with
        | none => rw [hanswer]; rfl
        | some fields =>
          rw [hbacks key fields hloaded] at hanswer
          cases hanswer
      · decide
  | fetched key fields next =>
    have hanswer := hsound key fields next rfl
    rw [advance, ← EntityAnswers.load_of_ok hanswer]
    refine ⟨_, _, rfl, advances_of_load rfl ?_ (fun other hother => ?_) (Nat.lt_succ_self _)⟩
    · rw [Table.get?_insert, if_pos rfl, hanswer]
      rfl
    · rw [Table.get?_insert, if_neg hother]

/-- Whether a loader has come to a phase: it will end as it does alone, and what it asks for is
loaded or still to be asked for. -/
structure Follows (answers : EntityAnswers) (loaded : LoadedEntities) (phase : LoaderPhase)
    (loader : Loader Unit) : Prop where
  outcome : answers.outcome phase.rest = answers.outcome loader
  asks : ∀ key ∈ answers.asks phase.rest, key ∈ answers.asks loader
  loads : ∀ key ∈ answers.asks loader,
    key ∈ answers.asks phase.rest ∨ loaded.get? key = (answers key).toOption
  sound : phase.Sound answers

theorem follows_running (answers : EntityAnswers) (loaded : LoadedEntities) (loader : Loader Unit) :
    (running loader).Follows answers loaded loader :=
  ⟨rfl, fun _ hkey => hkey, fun _ hkey => Or.inl hkey, fun _ _ _ h => nomatch h⟩

/-- What others add is no obstacle. -/
theorem Follows.grow (h : phase.Follows answers loaded loader)
    (hgrown : ∀ key, grown.get? key = loaded.get? key ∨ grown.get? key = (answers key).toOption) :
    phase.Follows answers grown loader := by
  refine ⟨h.outcome, h.asks, fun key hkey => (h.loads key hkey).imp_right fun hloaded => ?_,
    h.sound⟩
  exact (hgrown key).elim (fun hsame => hsame.trans hloaded) id

theorem Follows.advance (h : phase.Follows answers loaded loader)
    (hadvances : Advances answers loaded grown phase after) :
    after.Follows answers grown loader := by
  refine ⟨hadvances.outcome.trans h.outcome, fun key hkey => h.asks key (hadvances.asks key hkey),
    fun key hkey => ?_, hadvances.sound⟩
  rcases h.loads key hkey with hlater | hloaded
  · exact hadvances.loads key hlater
  · exact Or.inr ((hadvances.grows key).elim (fun hsame => hsame.trans hloaded) And.right)

end LoaderPhase

/-! ### What all loaders do together -/

/-- One of two lists of pairs may change at a place if it still goes with the other there. -/
theorem forall₂_set {α β : Type} {R : α → β → Prop} {items : List α} {others : List β}
    (h : List.Forall₂ R items others) {index : Nat} {item : α} (hitem : items[index]? = some item) :
    ∃ other ∈ others, R item other ∧ ∀ (S : α → β → Prop) (after : α),
      (∀ item other, R item other → S item other) → S after other →
        List.Forall₂ S (items.set index after) others := by
  induction h generalizing index with
  | nil => cases hitem
  | cons hfirst hrest ih =>
    cases index with
    | zero =>
      cases hitem
      exact ⟨_, List.mem_cons_self, hfirst, fun S after himp hafter =>
        .cons hafter (hrest.imp himp)⟩
    | succ index =>
      obtain ⟨other, hmem, hother, hset⟩ := ih hitem
      exact ⟨other, List.mem_cons_of_mem _ hmem, hother, fun S after himp hafter =>
        .cons (himp _ _ hfirst) (hset S after himp hafter)⟩

theorem sum_map_set_lt {α : Type} (weight : α → Nat) {items : List α} {index : Nat}
    {item after : α} (hitem : items[index]? = some item) (hlt : weight after < weight item) :
    ((items.set index after).map weight).sum < (items.map weight).sum := by
  induction items generalizing index with
  | nil => cases hitem
  | cons first rest ih =>
    cases index with
    | zero =>
      cases hitem
      exact Nat.add_lt_add_right hlt _
    | succ index => exact Nat.add_lt_add_left (ih hitem) _

namespace LoaderRun

open LoaderPhase

variable {σ : Type} {repo : Repo σ} {store : σ} {answers : EntityAnswers}
  {jobs : List (Event × Loader Unit)} {run next : LoaderRun σ} {concurrency : Nat}

/-- Whether a run of some loaders has gone well: the ends that are collected were no failures, all
that those loaders asked for is loaded, and nothing but what loaders ask for is. -/
structure Follows (run : LoaderRun σ) (answers : EntityAnswers) (store : σ)
    (jobs : List (Event × Loader Unit)) : Prop where
  store : run.store = store
  backs : answers.Backs run.loaded
  asked : ∀ key, (run.loaded.get? key).isSome → ∃ job ∈ jobs, key ∈ answers.asks job.2
  jobs : ∃ collected begun, jobs = collected ++ (begun ++ run.waiting) ∧
    (∀ job ∈ collected, (running (.done ())).Follows answers run.loaded job.2) ∧
    List.Forall₂ (fun slot job => slot.1 = job.1 ∧ slot.2.Follows answers run.loaded job.2)
      run.begun begun

/-- How many moves a loader that has begun takes at the most, with that of its collection. -/
def slotSteps (answers : EntityAnswers) (slot : Event × LoaderPhase) : Nat :=
  slot.2.steps answers + 1

/-- How many moves are left at the most. -/
def steps (answers : EntityAnswers) (run : LoaderRun σ) : Nat :=
  (run.waiting.map fun job => answers.steps job.2 + 2).sum + (run.begun.map (slotSteps answers)).sum

theorem follows_start (handlers : HandlerTable) (events : List Event) (store : σ)
    (answers : EntityAnswers) :
    (start handlers events store).Follows answers store (handlers.loaders events) :=
  ⟨rfl, fun _ _ h => (nomatch h), fun _ h => (nomatch h),
    [], [], rfl, fun _ hmem => absurd hmem List.not_mem_nil, .nil⟩

theorem Follows.begin (h : run.Follows answers store jobs)
    (hstep : run.step? repo concurrency .begin = some next) :
    next.Follows answers store jobs ∧ next.steps answers < run.steps answers := by
  rw [step?] at hstep
  cases hwaiting : run.waiting with
  | nil =>
    rw [hwaiting] at hstep
    cases hstep
  | cons job waiting =>
    rw [hwaiting, Option.ite_none_right_eq_some] at hstep
    obtain ⟨-, rfl⟩ := hstep.imp_right Option.some.inj
    obtain ⟨collected, begun, hjobs, hcollected, hbegun⟩ := h.jobs
    refine ⟨⟨h.store, h.backs, h.asked, collected, begun ++ [job], ?_, hcollected, ?_⟩, ?_⟩
    · rw [hjobs, hwaiting, List.append_assoc begun, List.singleton_append]
    · exact List.rel_append hbegun (.cons ⟨rfl, follows_running answers _ job.2⟩ .nil)
    · simp only [steps, hwaiting, List.map_cons, List.map_append, List.map_nil, List.sum_cons,
        List.sum_append, List.sum_nil, slotSteps, LoaderPhase.steps]
      omega

theorem Follows.advance (hrepo : repo.Answers store answers) (h : run.Follows answers store jobs)
    {index : Nat} (hstep : run.step? repo concurrency (.advance index) = some next) :
    next.Follows answers store jobs ∧ next.steps answers < run.steps answers := by
  obtain ⟨collected, begun, hjobs, hcollected, hbegun⟩ := h.jobs
  rw [step?] at hstep
  cases hslot : run.begun[index]? with
  | none =>
    rw [hslot] at hstep
    cases hstep
  | some slot =>
    obtain ⟨event, phase⟩ := slot
    rw [hslot] at hstep
    dsimp only at hstep
    rw [Option.ite_none_left_eq_some, Bool.not_eq_true, h.store] at hstep
    obtain ⟨hover, hstep⟩ := hstep
    obtain ⟨job, hjob, ⟨hevent, hfollows⟩, hset⟩ := forall₂_set hbegun hslot
    obtain ⟨after, grown, hadvance, hadvances⟩ :=
      advance_advances hrepo h.backs hfollows.sound hover
    rw [hadvance] at hstep
    obtain rfl := Option.some.inj hstep
    have hmem : job ∈ jobs := by
      rw [hjobs]
      exact List.mem_append_right _ (List.mem_append_left _ hjob)
    have hgrown : ∀ key, grown.get? key = run.loaded.get? key ∨
        grown.get? key = (answers key).toOption := fun key =>
      (hadvances.grows key).imp_right And.right
    -- The loader at this place comes closer to its end; to the others, what it adds is no obstacle.
    refine ⟨⟨rfl, fun key fields hkey => ?_, fun key hkey => ?_, collected, begun, hjobs, ?_, ?_⟩,
      ?_⟩
    · rcases hgrown key with hsame | hanswer
      · exact h.backs key fields (hsame.symm.trans hkey)
      · exact EntityAnswers.ok_of_toOption (hanswer.symm.trans hkey)
    · rcases hadvances.grows key with hsame | ⟨hasked, -⟩
      · exact h.asked key (hsame ▸ hkey)
      · exact ⟨job, hmem, hfollows.asks key hasked⟩
    · exact fun other hother => (hcollected other hother).grow hgrown
    · exact hset _ (event, after) (fun slot other hslot => ⟨hslot.1, hslot.2.grow hgrown⟩)
        ⟨hevent, hfollows.advance hadvances⟩
    · have hslots : ((run.begun.set index (event, after)).map (slotSteps answers)).sum <
          (run.begun.map (slotSteps answers)).sum :=
        sum_map_set_lt (slotSteps answers) hslot (Nat.succ_lt_succ hadvances.steps)
      exact Nat.add_lt_add_left hslots _

theorem Follows.collect (h : run.Follows answers store jobs)
    (hstep : run.step? repo concurrency .collect = some next) :
    next.Follows answers store jobs ∧ next.steps answers < run.steps answers := by
  obtain ⟨collected, begun, hjobs, hcollected, hbegun⟩ := h.jobs
  rw [step?] at hstep
  split at hstep
  next event rest hslots =>
    obtain rfl := Option.some.inj hstep
    rw [hslots] at hbegun
    cases hbegun with
    | cons hfirst hrest =>
      rename_i job others
      refine ⟨⟨h.store, h.backs, h.asked, collected ++ [job], others, ?_, ?_, hrest⟩, ?_⟩
      · rw [hjobs, List.append_assoc, List.cons_append, List.singleton_append]
      · refine List.forall_mem_append.2 ⟨hcollected, List.forall_mem_singleton.2 hfirst.2⟩
      · rw [steps, steps, hslots, List.map_cons, List.sum_cons, slotSteps]
        dsimp only
        omega
  next => cases hstep

theorem Follows.step (hrepo : repo.Answers store answers) (h : run.Follows answers store jobs)
    {move : LoaderMove} (hstep : run.step? repo concurrency move = some next) :
    next.Follows answers store jobs ∧ next.steps answers < run.steps answers := by
  cases move with
  | begin => exact h.begin hstep
  | advance index => exact h.advance hrepo hstep
  | collect => exact h.collect hstep

/-- Loaders cannot be at work forever. -/
theorem Follows.play (hrepo : repo.Answers store answers) (h : run.Follows answers store jobs)
    {moves : List LoaderMove} {last : LoaderRun σ}
    (hplay : run.play? repo concurrency moves = some last) :
    last.Follows answers store jobs ∧ moves.length + last.steps answers ≤ run.steps answers := by
  induction moves generalizing run with
  | nil =>
    obtain rfl := Option.some.inj hplay
    exact ⟨h, Nat.le_of_eq (Nat.zero_add _)⟩
  | cons move rest ih =>
    obtain ⟨next, hstep, hrest⟩ := Option.bind_eq_some_iff.1 hplay
    obtain ⟨hnext, hlt⟩ := h.step hrepo hstep
    obtain ⟨hlast, hle⟩ := ih hnext hrest
    refine ⟨hlast, ?_⟩
    rw [List.length_cons]
    omega

/-- While there is no result, a loader may begin, or the first that has begun may go on or is
done. -/
theorem exists_step (repo : Repo σ) (hpos : 1 ≤ concurrency) (hresult : run.result? = none) :
    ∃ move next, run.step? repo concurrency move = some next := by
  -- Only the first that has begun can stand in the way: its end is collected before all others.
  obtain ⟨waiting, begun, loaded, store⟩ := run
  cases begun with
  | nil =>
    cases waiting with
    | nil => cases hresult
    | cons job waiting => exact ⟨.begin, _, if_pos hpos⟩
  | cons slot begun =>
    obtain ⟨event, phase⟩ := slot
    cases hover : phase.isOver with
    | false => exact ⟨.advance 0, _, if_neg (by rw [hover]; decide)⟩
    | true =>
      cases phase with
      | missed key next => cases hover
      | fetched key fields next => cases hover
      | running loader =>
        cases loader with
        | load key next => cases hover
        | done value => exact ⟨.collect, _, rfl⟩
        | fail error => cases waiting <;> cases hresult

/-- Once all ends are collected, all loaders have succeeded and their keys are loaded. -/
theorem Follows.settles_ok (h : run.Follows answers store jobs) {loaded : LoadedEntities}
    (hresult : run.result? = some (.ok loaded)) : answers.Settles jobs (.ok loaded) := by
  obtain ⟨collected, begun, hjobs, hcollected, hbegun⟩ := h.jobs
  rw [result?] at hresult
  split at hresult
  next hwaiting hslots =>
    obtain rfl := Except.ok.inj (Option.some.inj hresult)
    rw [hslots] at hbegun
    cases hbegun
    rw [hwaiting, List.append_nil, List.append_nil] at hjobs
    subst hjobs
    refine ⟨fun job hjob => (hcollected job hjob).outcome.symm, fun key => ?_⟩
    split
    next hmem =>
      obtain ⟨job, hjob, hkey⟩ := List.mem_flatMap.1 hmem
      exact ((hcollected job hjob).loads key hkey).resolve_left List.not_mem_nil
    next hnot =>
      refine Option.not_isSome_iff_eq_none.1 fun hsome => hnot ?_
      exact List.mem_flatMap.2 (h.asked key hsome)
  next => cases hresult
  next => cases hresult

/-- A failure is only looked at once those before it are collected. -/
theorem Follows.settles_error (h : run.Follows answers store jobs) {error : ProcessingError}
    (hresult : run.result? = some (.error error)) : answers.Settles jobs (.error error) := by
  obtain ⟨collected, begun, hjobs, hcollected, hbegun⟩ := h.jobs
  rw [result?] at hresult
  split at hresult
  next => cases hresult
  next event cause rest hslots =>
    obtain rfl := Except.error.inj (Option.some.inj hresult)
    rw [hslots] at hbegun
    cases hbegun with
    | cons hfirst hrest =>
      rename_i job others
      refine ⟨collected, job, others ++ run.waiting, cause, hjobs, fun other hother => ?_,
        hfirst.2.outcome.symm, congrArg (ProcessingError.handler · cause) hfirst.1⟩
      exact (hcollected other hother).outcome.symm
  next => cases hresult

end LoaderRun

/-- However loaders take turns, they come to what they come to one after another: all that they
asked for is loaded as it is stored, or the first one that fails, in the order of the events, ends
it. -/
theorem LoaderRun.result_eq_runLoaders {σ : Type} {repo : Repo σ} {store : σ}
    {answers : EntityAnswers} (hrepo : repo.Answers store answers) (handlers : HandlerTable)
    (events : List Event) {concurrency : Nat} (hpos : 1 ≤ concurrency) {moves : List LoaderMove}
    {run : LoaderRun σ}
    (hplay : (start handlers events store).play? repo concurrency moves = some run) :
    moves.length ≤ (start handlers events store).steps answers ∧
      (run.result? = none → ∃ move next, run.step? repo concurrency move = some next) ∧
      ∀ result, run.result? = some result →
        answers.Settles (handlers.loaders events) result ∧
          (result, run.store) = runLoaders repo handlers events .empty store := by
  obtain ⟨hfollows, hbound⟩ := (follows_start handlers events store answers).play hrepo hplay
  refine ⟨by omega, exists_step repo hpos, fun result hresult => ?_⟩
  have hsettles : answers.Settles (handlers.loaders events) result := by
    cases result with
    | ok loaded => exact hfollows.settles_ok hresult
    | error error => exact hfollows.settles_error hresult
  exact ⟨hsettles, by rw [hsettles.runLoaders hrepo, hfollows.store]⟩

namespace Testing

/-- Loads what all events share, and then fails for the later logs. -/
def sharedHandler : Handler where
  event := "Transfer"
  load event :=
    .load ⟨"Pool", "shared"⟩ fun _ =>
      if event.logIndex = 0 then .done () else .fail (.custom "a later log")
  handle _ := .done ()

def sharedTable : HandlerTable := ⟨[("Token", sharedHandler)]⟩

def sharedEvents : List Event :=
  [transferEvent 1 5 0 "alice" 1, transferEvent 1 5 1 "alice" 2]

/-- Both loaders miss the entity and both add it, and the second is over before the first. -/
def crossedMoves : List LoaderMove :=
  [.begin, .begin, .advance 0, .advance 1, .advance 1, .advance 1, .advance 0, .advance 0, .collect]

def crossedFailure : ProcessingError :=
  .handler (transferEvent 1 5 1 "alice" 2) (.custom "a later log")

theorem crossed_moves_fail_in_order :
    ∃ run, (LoaderRun.start sharedTable sharedEvents .empty).play? Repo.inMemory 2 crossedMoves =
        some run ∧
      run.result? = some (.error crossedFailure) ∧
      (.error crossedFailure, run.store) =
        runLoaders Repo.inMemory sharedTable sharedEvents .empty .empty := by
  obtain ⟨run, hplay, hresult⟩ :
      ∃ run, (LoaderRun.start sharedTable sharedEvents .empty).play? Repo.inMemory 2 crossedMoves =
        some run ∧ run.result? = some (.error crossedFailure) := ⟨_, rfl, rfl⟩
  obtain ⟨-, -, hsettled⟩ := LoaderRun.result_eq_runLoaders (Repo.inMemory_answers .empty)
    sharedTable sharedEvents (by decide : 1 ≤ 2) hplay
  exact ⟨run, hplay, hresult, (hsettled _ hresult).2⟩

end Testing

end ChainIndexer
