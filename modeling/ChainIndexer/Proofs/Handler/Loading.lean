import ChainIndexer.Proofs.Handler.Answers

/-!
# Loading from memory

A loader on a store in memory is answered with what is stored, so what it asks for and how it ends
depend on the stored entities alone, not on what was loaded before it.
-/

namespace ChainIndexer

/-- Whether exactly some keys are loaded, each with what is stored under it. -/
def LoadedEntities.Holds (loaded : LoadedEntities) (entities : Table EntityKey Json)
    (asked : List EntityKey) : Prop :=
  ∀ key, loaded.get? key = if key ∈ asked then some (entities.get? key) else none

namespace Loader

variable {α : Type}

/-- The keys that a loader asks for when it finds some entities. -/
def asks (entities : Table EntityKey Json) : Loader α → List EntityKey
  | done _ => []
  | fail _ => []
  | load key next => key :: (next (.ok (entities.get? key))).asks entities

/-- How a loader ends when it finds some entities. -/
def outcome (entities : Table EntityKey Json) : Loader α → Except HandlerError α
  | done value => .ok value
  | fail error => .error error
  | load key next => (next (.ok (entities.get? key))).outcome entities

theorem asks_congr (loader : Loader α) {a b : Table EntityKey Json}
    (h : ∀ key ∈ loader.asks a, a.get? key = b.get? key) :
    loader.asks a = loader.asks b ∧ loader.outcome a = loader.outcome b := by
  induction loader with
  | done value => exact ⟨rfl, rfl⟩
  | fail error => exact ⟨rfl, rfl⟩
  | load key next ih =>
    have hkey := h key List.mem_cons_self
    obtain ⟨hasks, houtcome⟩ :=
      ih (.ok (a.get? key)) fun other hother => h other (List.mem_cons_of_mem _ hother)
    refine ⟨?_, ?_⟩
    · rw [asks, asks, ← hkey, hasks]
    · rw [outcome, outcome, ← hkey, houtcome]

theorem asks_ofEntities (entities : Table EntityKey Json) (loader : Loader α) :
    (EntityAnswers.ofEntities entities).asks loader = loader.asks entities := by
  induction loader with
  | done value => rfl
  | fail error => rfl
  | load key next ih => exact congrArg (key :: ·) (ih _)

theorem outcome_ofEntities (entities : Table EntityKey Json) (loader : Loader α) :
    (EntityAnswers.ofEntities entities).outcome loader = loader.outcome entities := by
  induction loader with
  | done value => rfl
  | fail error => rfl
  | load key next ih => exact ih _

theorem run_inMemory (loader : Loader α) {loaded : LoadedEntities} {store : Store}
    {asked : List EntityKey} (hloaded : loaded.Holds store.entities asked) :
    ∃ after : LoadedEntities,
      loader.run Repo.inMemory loaded store = (loader.outcome store.entities, after, store) ∧
        after.Holds store.entities (asked ++ loader.asks store.entities) := by
  have hanswers : (EntityAnswers.ofEntities store.entities).Holds loaded asked := hloaded
  obtain ⟨after, hrun, hafter⟩ := hanswers.run (Repo.inMemory_answers store) loader
  rw [outcome_ofEntities] at hrun
  rw [asks_ofEntities] at hafter
  exact ⟨after, hrun, hafter⟩

end Loader

namespace HandlerTable

/-- The keys that the loader for an event asks for. -/
def asks (handlers : HandlerTable) (entities : Table EntityKey Json) (event : Event) :
    List EntityKey :=
  (handlers.forEvent? event).elim [] fun handler => (handler.load event).asks entities

/-- How the loader for an event ends. -/
def loadOutcome (handlers : HandlerTable) (entities : Table EntityKey Json) (event : Event) :
    Except HandlerError Unit :=
  (handlers.forEvent? event).elim (.ok ()) fun handler => (handler.load event).outcome entities

theorem asks_congr (handlers : HandlerTable) (event : Event) {a b : Table EntityKey Json}
    (h : ∀ key ∈ handlers.asks a event, a.get? key = b.get? key) :
    handlers.asks a event = handlers.asks b event ∧
      handlers.loadOutcome a event = handlers.loadOutcome b event := by
  unfold asks loadOutcome at *
  cases hhandler : handlers.forEvent? event with
  | none => exact ⟨rfl, rfl⟩
  | some handler =>
    rw [hhandler] at h
    exact Loader.asks_congr _ h

end HandlerTable

variable {handlers : HandlerTable} {events : List Event} {loaded : LoadedEntities} {store : Store}
  {asked : List EntityKey}

theorem runLoaders_inMemory (hloaded : loaded.Holds store.entities asked)
    (h : ∀ event ∈ events, handlers.loadOutcome store.entities event = .ok ()) :
    ∃ after : LoadedEntities,
      runLoaders Repo.inMemory handlers events loaded store = (.ok after, store) ∧
        after.Holds store.entities (asked ++ events.flatMap (handlers.asks store.entities)) := by
  induction events generalizing loaded asked with
  | nil => exact ⟨loaded, rfl, by rwa [List.flatMap_nil, List.append_nil]⟩
  | cons event rest ih =>
    have hfirst := h event List.mem_cons_self
    have hrest := fun other hother => h other (List.mem_cons_of_mem _ hother)
    rw [List.flatMap_cons, ← List.append_assoc]
    rw [HandlerTable.loadOutcome] at hfirst
    rw [HandlerTable.asks, runLoaders]
    cases hhandler : handlers.forEvent? event with
    | none =>
      rw [Option.elim_none, List.append_nil]
      exact ih hloaded hrest
    | some handler =>
      rw [hhandler, Option.elim_some] at hfirst
      obtain ⟨between, hrun, hbetween⟩ := (handler.load event).run_inMemory hloaded
      rw [hfirst] at hrun
      dsimp only [Option.elim_some]
      rw [hrun]
      exact ih hbetween hrest

theorem loadOutcome_of_runLoaders {after : LoadedEntities} {left : Store}
    (hloaded : loaded.Holds store.entities asked)
    (h : runLoaders Repo.inMemory handlers events loaded store = (.ok after, left)) :
    ∀ event ∈ events, handlers.loadOutcome store.entities event = .ok () := by
  induction events generalizing loaded asked with
  | nil => exact fun event hevent => absurd hevent List.not_mem_nil
  | cons event rest ih =>
    intro other hother
    rw [runLoaders] at h
    cases hhandler : handlers.forEvent? event with
    | none =>
      rw [hhandler] at h
      rcases List.mem_cons.1 hother with rfl | hrest
      · rw [HandlerTable.loadOutcome, hhandler, Option.elim_none]
      · exact ih hloaded h other hrest
    | some handler =>
      obtain ⟨between, hrun, hbetween⟩ := (handler.load event).run_inMemory hloaded
      rw [hhandler] at h
      dsimp only at h
      rw [hrun] at h
      cases houtcome : (handler.load event).outcome store.entities with
      | error error =>
        rw [houtcome] at h
        cases h
      | ok value =>
        rw [houtcome] at h
        rcases List.mem_cons.1 hother with rfl | hrest
        · rw [HandlerTable.loadOutcome, hhandler, Option.elim_some, houtcome]
        · exact ih hbetween h other hrest

/-- Loading leaves the store alone and fails at one of the events. -/
theorem runLoaders_store (hloaded : loaded.Holds store.entities asked) :
    ∃ result, runLoaders Repo.inMemory handlers events loaded store = (result, store) ∧
      ∀ error, result = .error error → ∃ event ∈ events, ∃ cause, error = .handler event cause := by
  induction events generalizing loaded asked with
  | nil => exact ⟨.ok loaded, rfl, fun error h => nomatch h⟩
  | cons event rest ih =>
    have hlater : ∀ {loaded : LoadedEntities} {asked : List EntityKey},
        loaded.Holds store.entities asked →
        ∃ result, runLoaders Repo.inMemory handlers rest loaded store = (result, store) ∧
          ∀ error, result = .error error →
            ∃ failed ∈ event :: rest, ∃ cause, error = .handler failed cause := by
      intro loaded asked hloaded
      obtain ⟨result, hrun, herror⟩ := ih hloaded
      refine ⟨result, hrun, fun error h => ?_⟩
      obtain ⟨failed, hmem, hcause⟩ := herror error h
      exact ⟨failed, List.mem_cons_of_mem _ hmem, hcause⟩
    rw [runLoaders]
    cases handlers.forEvent? event with
    | none => exact hlater hloaded
    | some handler =>
      obtain ⟨between, hrun, hbetween⟩ := (handler.load event).run_inMemory hloaded
      dsimp only
      rw [hrun]
      cases (handler.load event).outcome store.entities with
      | error cause =>
        refine ⟨.error (.handler event cause), rfl, fun error h => ?_⟩
        cases h
        exact ⟨event, List.mem_cons_self, cause, rfl⟩
      | ok value => exact hlater hbetween

theorem LoadedEntities.empty_holds (entities : Table EntityKey Json) :
    LoadedEntities.Holds .empty entities [] :=
  (EntityAnswers.empty_holds : (EntityAnswers.ofEntities entities).Holds .empty [])

theorem holds_of_runLoaders {after : LoadedEntities}
    (h : runLoaders Repo.inMemory handlers events .empty store = (.ok after, store)) :
    after.Holds store.entities (events.flatMap (handlers.asks store.entities)) := by
  have hempty := LoadedEntities.empty_holds store.entities
  obtain ⟨loaded, hrun, hloaded⟩ :=
    runLoaders_inMemory hempty (loadOutcome_of_runLoaders hempty h)
  rw [h] at hrun
  cases hrun
  exact hloaded

end ChainIndexer
