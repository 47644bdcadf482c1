import ChainIndexer.Processing
import ChainIndexer.Proofs.Table
import ChainIndexer.Repo.Store

/-!
# Loading from a store with steady answers

While a unit is loaded nothing else is done with the store, so every entity is answered in one way,
also if the answer is an error. What a loader asks for and how it ends then depend on the answers
alone, and not on what was loaded before it.
-/

namespace ChainIndexer

/-- How a store answers reads of entities. -/
abbrev EntityAnswers := EntityKey → Except RepoError (Option Json)

/-- Whether a store answers reads in one way and is not changed by them. -/
def Repo.Answers {σ : Type} (repo : Repo σ) (state : σ) (answers : EntityAnswers) : Prop :=
  ∀ key, repo.entity key state = (answers key, state)

/-- How a store in memory answers. -/
def EntityAnswers.ofEntities (entities : Table EntityKey Json) : EntityAnswers := fun key =>
  .ok (entities.get? key)

theorem Repo.inMemory_answers (store : Store) :
    Repo.inMemory.Answers store (.ofEntities store.entities) := fun _ => rfl

namespace EntityAnswers

variable {α : Type} (answers : EntityAnswers)

/-- What a loader is told about an entity. -/
def load (key : EntityKey) : Except HandlerError (Option Json) := (answers key).mapError .repo

/-- The keys that a loader asks for. -/
def asks : Loader α → List EntityKey
  | .done _ => []
  | .fail _ => []
  | .load key next => key :: asks (next (answers.load key))

/-- How a loader ends. -/
def outcome : Loader α → Except HandlerError α
  | .done value => .ok value
  | .fail error => .error error
  | .load key next => outcome (next (answers.load key))

/-- Whether exactly some keys are loaded, of those that can be read, each with what is stored. -/
def Holds (loaded : LoadedEntities) (asked : List EntityKey) : Prop :=
  ∀ key, loaded.get? key = if key ∈ asked then (answers key).toOption else none

variable {answers} {σ : Type} {repo : Repo σ} {state : σ} {loaded : LoadedEntities}
  {asked : List EntityKey}

theorem load_of_ok {key : EntityKey} {fields : Option Json} (h : answers key = .ok fields) :
    answers.load key = .ok fields := by
  rw [load, h]
  rfl

theorem load_of_error {key : EntityKey} {error : RepoError} (h : answers key = .error error) :
    answers.load key = .error (.repo error) := by
  rw [load, h]
  rfl

theorem ok_of_toOption {key : EntityKey} {fields : Option Json}
    (h : (answers key).toOption = some fields) : answers key = .ok fields := by
  cases hanswer : answers key with
  | error error =>
    rw [hanswer] at h
    cases h
  | ok found =>
    rw [hanswer] at h
    cases h
    rfl

theorem empty_holds : answers.Holds .empty [] := by
  intro key
  rw [Table.get?_empty, if_neg List.not_mem_nil]

theorem Holds.answered (h : answers.Holds loaded asked) {key : EntityKey} {fields : Option Json}
    (hloaded : loaded.get? key = some fields) : key ∈ asked ∧ answers key = .ok fields := by
  rw [h key] at hloaded
  split at hloaded
  next hmem => exact ⟨hmem, ok_of_toOption hloaded⟩
  next => cases hloaded

theorem Holds.unique {other : LoadedEntities} (h : answers.Holds loaded asked)
    (hother : answers.Holds other asked) : loaded = other :=
  Table.ext_get? fun key => (h key).trans (hother key).symm

/-- Asking for a loaded key again adds nothing. -/
theorem Holds.again (h : answers.Holds loaded asked) {key : EntityKey}
    (hknown : loaded.get? key = (answers key).toOption) :
    answers.Holds loaded (asked ++ [key]) := by
  intro other
  by_cases hother : other = key
  · rw [hother, hknown, if_pos (List.mem_append_right _ List.mem_cons_self)]
  · rw [h other]
    simp only [List.mem_append, List.mem_singleton, hother, or_false]

theorem Holds.insert (h : answers.Holds loaded asked) {key : EntityKey} {fields : Option Json}
    (hanswer : answers key = .ok fields) :
    answers.Holds (loaded.insert key fields) (asked ++ [key]) := by
  intro other
  rw [Table.get?_insert]
  by_cases hother : other = key
  · rw [if_pos hother, hother, if_pos (List.mem_append_right _ List.mem_cons_self), hanswer]
    rfl
  · rw [if_neg hother, h other]
    simp only [List.mem_append, List.mem_singleton, hother, or_false]

/-- A loader that runs alone. -/
theorem Holds.run (hrepo : repo.Answers state answers) (h : answers.Holds loaded asked)
    (loader : Loader α) :
    ∃ after, loader.run repo loaded state = (answers.outcome loader, after, state) ∧
      answers.Holds after (asked ++ answers.asks loader) := by
  induction loader generalizing loaded asked with
  | done value => exact ⟨loaded, rfl, by rwa [asks, List.append_nil]⟩
  | fail error => exact ⟨loaded, rfl, by rwa [asks, List.append_nil]⟩
  | load key next ih =>
    rw [Loader.run, outcome, asks, List.append_cons]
    cases hloaded : loaded.get? key with
    | some fields =>
      have hanswer := (h.answered hloaded).2
      rw [load_of_ok hanswer]
      exact ih _ (h.again (by rw [hloaded, hanswer]; rfl))
    | none =>
      dsimp only
      rw [hrepo key]
      cases hanswer : answers key with
      | error error =>
        rw [load_of_error hanswer]
        exact ih _ (h.again (by rw [hloaded, hanswer]; rfl))
      | ok fields =>
        rw [load_of_ok hanswer]
        exact ih _ (h.insert hanswer)

end EntityAnswers

/-- The loaders for some events, of those that have a handler. -/
def HandlerTable.loaders (handlers : HandlerTable) (events : List Event) :
    List (Event × Loader Unit) :=
  events.filterMap fun event =>
    (handlers.forEvent? event).map fun handler => (event, handler.load event)

namespace EntityAnswers

variable {answers : EntityAnswers} {σ : Type} {repo : Repo σ} {state : σ} {handlers : HandlerTable}
  {events : List Event} {loaded : LoadedEntities} {asked : List EntityKey}

/-- Loaders that all succeed, one after another. -/
theorem Holds.runLoaders_ok (hrepo : repo.Answers state answers) (h : answers.Holds loaded asked)
    (hall : ∀ job ∈ handlers.loaders events, answers.outcome job.2 = .ok ()) :
    ∃ after, runLoaders repo handlers events loaded state = (.ok after, state) ∧
      answers.Holds after
        (asked ++ (handlers.loaders events).flatMap fun job => answers.asks job.2) := by
  induction events generalizing loaded asked with
  | nil => exact ⟨loaded, rfl, by rwa [HandlerTable.loaders, List.filterMap_nil, List.flatMap_nil,
      List.append_nil]⟩
  | cons event rest ih =>
    rw [runLoaders]
    rw [HandlerTable.loaders, List.filterMap_cons] at hall ⊢
    cases hhandler : handlers.forEvent? event with
    | none =>
      rw [hhandler] at hall
      exact ih h hall
    | some handler =>
      rw [hhandler] at hall
      obtain ⟨hfirst, hrest⟩ := List.forall_mem_cons.1 hall
      obtain ⟨between, hrun, hbetween⟩ := h.run hrepo (handler.load event)
      obtain ⟨after, hafter, hholds⟩ := ih hbetween hrest
      refine ⟨after, ?_, ?_⟩
      · dsimp only at hfirst ⊢
        rw [hrun, hfirst]
        exact hafter
      · rw [Option.map_some, List.flatMap_cons, ← List.append_assoc]
        exact hholds

/-- The first loader that fails ends it, one after another. -/
theorem Holds.runLoaders_error (hrepo : repo.Answers state answers)
    (h : answers.Holds loaded asked) {before after : List (Event × Loader Unit)}
    {job : Event × Loader Unit} {cause : HandlerError}
    (hjobs : handlers.loaders events = before ++ job :: after)
    (hbefore : ∀ other ∈ before, answers.outcome other.2 = .ok ())
    (hjob : answers.outcome job.2 = .error cause) :
    runLoaders repo handlers events loaded state =
      (.error (.handler job.1 cause), state) := by
  induction events generalizing loaded asked before with
  | nil => cases before <;> cases hjobs
  | cons event rest ih =>
    rw [runLoaders]
    rw [HandlerTable.loaders, List.filterMap_cons] at hjobs
    cases hhandler : handlers.forEvent? event with
    | none =>
      rw [hhandler] at hjobs
      exact ih h hjobs hbefore
    | some handler =>
      rw [hhandler, Option.map_some] at hjobs
      obtain ⟨between, hrun, hbetween⟩ := h.run hrepo (handler.load event)
      dsimp only
      rw [hrun]
      cases before with
      | nil =>
        obtain ⟨rfl, -⟩ := List.cons.inj hjobs
        rw [hjob]
      | cons first others =>
        obtain ⟨rfl, hrest⟩ := List.cons.inj hjobs
        obtain ⟨hfirst, hothers⟩ := List.forall_mem_cons.1 hbefore
        rw [hfirst]
        exact ih hbetween hrest hothers

/-- What some loaders come to: all that they ask for is loaded, unless one fails, and then the first
of those that do fails for all. -/
def Settles (answers : EntityAnswers) (jobs : List (Event × Loader Unit)) :
    Except ProcessingError LoadedEntities → Prop
  | .ok loaded =>
    (∀ job ∈ jobs, answers.outcome job.2 = .ok ()) ∧
      answers.Holds loaded (jobs.flatMap fun job => answers.asks job.2)
  | .error error =>
    ∃ before job after cause, jobs = before ++ job :: after ∧
      (∀ other ∈ before, answers.outcome other.2 = .ok ()) ∧
      answers.outcome job.2 = .error cause ∧ error = .handler job.1 cause

/-- Loaders come to one thing only, and it is what they come to one after another. -/
theorem Settles.runLoaders {result : Except ProcessingError LoadedEntities}
    (h : answers.Settles (handlers.loaders events) result) (hrepo : repo.Answers state answers) :
    runLoaders repo handlers events .empty state = (result, state) := by
  cases result with
  | ok loaded =>
    obtain ⟨hall, hloaded⟩ := h
    obtain ⟨after, hrun, hafter⟩ := empty_holds.runLoaders_ok hrepo hall
    rw [hrun, hafter.unique hloaded]
  | error error =>
    obtain ⟨before, job, after, cause, hjobs, hbefore, hjob, rfl⟩ := h
    exact empty_holds.runLoaders_error hrepo hjobs hbefore hjob

end EntityAnswers

end ChainIndexer
