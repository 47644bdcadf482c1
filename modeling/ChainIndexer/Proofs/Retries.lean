import ChainIndexer.Fetch.Fetcher
import ChainIndexer.Pipeline.Writer
import Mathlib.Algebra.Ring.Nat
import Mathlib.Logic.Function.Iterate

/-!
# What retries come to

Requests to a source, requests for events and writes to a store are all made in turn until one of
them ends the series: it succeeds, it fails in a way that no retry helps, or it is the last that the
limit allows. Each series leaves the state of exactly the calls up to that one, in order, whatever
the state counts or records of them.
-/

namespace ChainIndexer

/-- Pauses double without end, but for the longest one: no product is cut off below it. -/
theorem backoff_eq (base retries : Nat) :
    backoff base retries = min (base * 2 ^ retries) maxBackoff := by
  have hcap : maxBackoff ≤ Word.max := by decide
  have hsaturated : backoff base retries = min (base * doubling retries) maxBackoff := by
    change min (min (base * doubling retries) Word.max) maxBackoff = _
    rw [Nat.min_assoc, Nat.min_eq_right hcap]
  rw [hsaturated, doubling]
  split
  next => rfl
  next hlarge =>
    rcases Nat.eq_zero_or_pos base with rfl | hpos
    · rw [Nat.zero_mul, Nat.zero_mul]
    · have hpower : maxBackoff ≤ 2 ^ retries :=
        Nat.le_trans (by decide : maxBackoff ≤ 2 ^ 64)
          (Nat.pow_le_pow_right (by decide) (Nat.le_of_not_lt hlarge))
      rw [Nat.min_eq_right (Nat.le_trans hcap (Nat.le_mul_of_pos_left _ hpos)),
        Nat.min_eq_right (Nat.le_trans hpower (Nat.le_mul_of_pos_left _ hpos))]

/-- How long some retries pause together, in milliseconds. -/
def pauses (base retries : Nat) : Nat :=
  ((List.range retries).map fun retry => min (base * 2 ^ retry) maxBackoff).sum

theorem pauses_succ (base retries : Nat) :
    pauses base (retries + 1) = pauses base retries + backoff base retries := by
  rw [pauses, List.range_succ, List.map_append, List.sum_append, ← pauses, backoff_eq]
  rfl

/-- How a series of attempts ends with a last one. -/
def Attempt.outcome {ε α : Type} (attempts : Nat) : Attempt ε α → Outcome ε α
  | .done value => .done value
  | .fatal error => .fatal error
  | .failed error => .exhausted attempts error

namespace RetryPolicy

/-- Whether a series ends with a call: all before it failed, and it did not, or no retry is left. -/
structure EndsAt (limit : Nat) (fails : Nat → Prop) (last : Nat) : Prop where
  before : ∀ earlier < last, fails earlier
  bound : last ≤ limit
  ends : fails last → last = limit

theorem EndsAt.unique {limit : Nat} {fails : Nat → Prop} {last other : Nat}
    (h : EndsAt limit fails last) (hother : EndsAt limit fails other) : other = last := by
  rcases Nat.lt_trichotomy other last with hlt | heq | hlt
  · have := hother.ends (h.before other hlt)
    have := h.bound
    omega
  · exact heq
  · have := h.ends (hother.before last hlt)
    have := hother.bound
    omega

/-- With one more retry, a series that ended with a failure goes on by one call. -/
theorem exists_endsAt (limit : Nat) (fails : Nat → Prop) : ∃ last, EndsAt limit fails last := by
  induction limit with
  | zero => exact ⟨0, fun _ h => absurd h (Nat.not_lt_zero _), Nat.le_refl _, fun _ => rfl⟩
  | succ limit ih =>
    obtain ⟨last, hlast⟩ := ih
    by_cases hfails : fails last
    · obtain rfl := hlast.ends hfails
      refine ⟨last + 1, fun earlier hlt => ?_, Nat.le_refl _, fun _ => rfl⟩
      rcases Nat.lt_succ_iff_lt_or_eq.1 hlt with hbefore | rfl
      · exact hlast.before earlier hbefore
      · exact hfails
    · exact ⟨last, hlast.before, Nat.le_succ_of_le hlast.bound, fun h => absurd h hfails⟩

variable {σ ε α : Type} (policy : RetryPolicy) (attempt : σ → Attempt ε α × σ)
  (recover : Nat → σ → σ) (state : σ)

/-- The state before an attempt, if there is one. -/
def before : Nat → σ
  | 0 => state
  | retries + 1 => recover (backoff policy.base retries) (attempt (before retries)).2

/-- Whether an attempt fails, so that another one may be made. -/
def Fails (retries : Nat) : Prop :=
  ∃ error, (attempt (policy.before attempt recover state retries)).1 = .failed error

variable {policy attempt recover state}

/-- From any attempt on, by induction on how many retries are left. -/
theorem runFrom_eq {left retries last : Nat}
    (h : EndsAt (retries + left) (policy.Fails attempt recover state) last) (hle : retries ≤ last) :
    policy.runFrom attempt recover left retries (policy.before attempt recover state retries) =
      ((attempt (policy.before attempt recover state last)).1.outcome (last + 1),
        (attempt (policy.before attempt recover state last)).2) := by
  induction left generalizing retries with
  | zero =>
    obtain rfl := Nat.le_antisymm hle h.bound
    rw [runFrom]
    cases attempt (policy.before attempt recover state retries) with
    | mk result after => cases result <;> rfl
  | succ left ih =>
    -- Either the series ends with this attempt, or it fails and there is one retry less.
    rcases Nat.eq_or_lt_of_le hle with rfl | hlt
    · have hsucceeds : ¬ policy.Fails attempt recover state retries := fun hfails => by
        have := h.ends hfails
        omega
      rw [Fails] at hsucceeds
      rw [runFrom]
      cases hattempt : attempt (policy.before attempt recover state retries) with
      | mk result after =>
        rw [hattempt] at hsucceeds
        cases result with
        | done value => rfl
        | fatal error => rfl
        | failed error => exact absurd ⟨error, rfl⟩ hsucceeds
    · obtain ⟨error, herror⟩ := h.before retries hlt
      have hlater : EndsAt (retries + 1 + left) (policy.Fails attempt recover state) last := by
        rwa [Nat.add_right_comm]
      have hnext := ih hlater hlt
      rw [runFrom, ← hnext, before]
      cases hattempt : attempt (policy.before attempt recover state retries) with
      | mk result after =>
        rw [hattempt] at herror
        subst herror
        rfl

theorem run_eq {last : Nat} (h : EndsAt policy.limit (policy.Fails attempt recover state) last) :
    policy.run attempt recover state =
      ((attempt (policy.before attempt recover state last)).1.outcome (last + 1),
        (attempt (policy.before attempt recover state last)).2) :=
  runFrom_eq (by rwa [Nat.zero_add]) (Nat.zero_le _)

end RetryPolicy

/-! ### Calls in turn -/

/-- Calls to be made in turn. -/
abbrev CallSeries (σ ε α : Type) := Nat → Call σ ε α

namespace CallSeries

variable {σ ε α : Type} (calls : CallSeries σ ε α) (state : σ)

/-- The state after exactly some calls. -/
def stateAfter : Nat → σ
  | 0 => state
  | made + 1 => (calls made (stateAfter made)).2

/-- The answer to a call, after those before it. -/
def answer (made : Nat) : Except ε α := (calls made (calls.stateAfter state made)).1

/-- The same call again and again. -/
def repeated (call : Call σ ε α) : CallSeries σ ε α := fun _ => call

end CallSeries

/-- Whether a loop makes calls in turn, one an attempt, and adds its pauses up. -/
structure Repeats {ρ σ ε ε' α β : Type} (attempt : ρ → Attempt ε' β × ρ) (recover : Nat → ρ → ρ)
    (calls : CallSeries σ ε α) (fails : Except ε α → Prop) (classify : Except ε α → Attempt ε' β)
    (loop : (retries : Nat) → σ → (paused : Nat) → ρ) : Prop where
  attempt : ∀ retries state paused, attempt (loop retries state paused) =
    (classify (calls retries state).1, loop retries (calls retries state).2 paused)
  recover : ∀ millis retries state paused, recover millis (loop retries state paused) =
    loop (retries + 1) state (paused + millis)
  fails : ∀ answer, (∃ error, classify answer = .failed error) ↔ fails answer

namespace Repeats

open RetryPolicy

variable {ρ σ ε ε' α β : Type} {attempt : ρ → Attempt ε' β × ρ} {recover : Nat → ρ → ρ}
  {calls : CallSeries σ ε α} {fails : Except ε α → Prop} {classify : Except ε α → Attempt ε' β}
  {loop : Nat → σ → Nat → ρ}

theorem before (h : Repeats attempt recover calls fails classify loop) (policy : RetryPolicy)
    (state : σ) (paused retries : Nat) :
    policy.before attempt recover (loop 0 state paused) retries =
      loop retries (calls.stateAfter state retries) (paused + pauses policy.base retries) := by
  induction retries with
  | zero => rfl
  | succ retries ih =>
    rw [RetryPolicy.before, ih, h.attempt, h.recover, pauses_succ, Nat.add_assoc]
    rfl

theorem run_eq (h : Repeats attempt recover calls fails classify loop) {policy : RetryPolicy}
    {state : σ} (paused : Nat) {last : Nat}
    (hends : EndsAt policy.limit (fun made => fails (calls.answer state made)) last) :
    policy.run attempt recover (loop 0 state paused) =
      ((classify (calls.answer state last)).outcome (last + 1),
        loop last (calls.stateAfter state (last + 1)) (paused + pauses policy.base last)) := by
  have hfails : policy.Fails attempt recover (loop 0 state paused) =
      fun made => fails (calls.answer state made) := by
    funext made
    rw [Fails, h.before, h.attempt, ← h.fails]
    rfl
  rw [RetryPolicy.run_eq (hfails ▸ hends), h.before, h.attempt]
  rfl

end Repeats

/-! ### Requests to a source -/

/-- Whether an answer is an error that may pass. -/
def SourceError.Passing {α : Type} (answer : Except SourceError α) : Prop :=
  ∃ reason, answer = .error (.transient reason)

namespace Fetcher

open RetryPolicy

variable {τ α : Type}

/-- What an answer means for more attempts. -/
def classify : Except SourceError α → Attempt SourceError α
  | .ok value => .done value
  | .error (.transient reason) => .failed (.transient reason)
  | .error (.malformed reason) => .fatal (.malformed reason)

theorem attempt_eq (call : Call τ SourceError α) (source : τ) :
    attempt call source = (classify (call source).1, (call source).2) := by
  rw [attempt]
  obtain ⟨answer, after⟩ := call source
  rcases answer with (_ | _) | _ <;> rfl

theorem classify_failed (answer : Except SourceError α) :
    (∃ error, classify answer = .failed error) ↔ SourceError.Passing answer := by
  rcases answer with (reason | reason) | value
  · exact ⟨fun _ => ⟨reason, rfl⟩, fun _ => ⟨_, rfl⟩⟩
  · exact ⟨fun ⟨_, h⟩ => (nomatch h), fun ⟨_, h⟩ => (nomatch h)⟩
  · exact ⟨fun ⟨_, h⟩ => (nomatch h), fun ⟨_, h⟩ => (nomatch h)⟩

/-- What the answer to the last of some attempts makes of a request. -/
def lastResult (operation : FetchOperation) (attempts : Nat) :
    Except SourceError α → Except FetchError α
  | .ok value => .ok value
  | .error (.malformed reason) => .error (.malformed reason)
  | .error (.transient reason) => .error (.retriesExhausted operation attempts (.transient reason))

theorem ofOutcome_classify (operation : FetchOperation) (attempts : Nat)
    (answer : Except SourceError α) :
    ofOutcome operation ((classify answer).outcome attempts) =
      lastResult operation attempts answer := by
  rcases answer with (reason | reason) | value <;> rfl

/-- The loop that makes one request. -/
theorem repeats_request (call : Call τ SourceError α) (fetcher : Fetcher) :
    Repeats
      (fun state : FetchState τ =>
        ((attempt call state.source).1, { state with source := (attempt call state.source).2 }))
      pause (.repeated call) SourceError.Passing classify
      fun _ source paused => ⟨fetcher, source, paused⟩ where
  attempt _ source paused := by
    rw [attempt_eq]
    rfl
  recover _ _ _ _ := rfl
  fails := classify_failed

theorem lastResult_eq_ok {operation : FetchOperation} {attempts : Nat}
    {answer : Except SourceError α} {value : α}
    (h : lastResult operation attempts answer = .ok value) : answer = .ok value := by
  rcases answer with (reason | reason) | found
  · cases h
  · cases h
  · exact congrArg Except.ok (Except.ok.inj h)

theorem request_eq (operation : FetchOperation) (call : Call τ SourceError α)
    (state : FetchState τ) {last : Nat} (h : EndsAt state.fetcher.settings.retries.limit
      (fun made => SourceError.Passing ((CallSeries.repeated call).answer state.source made))
      last) :
    request operation call state =
      (lastResult operation (last + 1) ((CallSeries.repeated call).answer state.source last),
        { state with
          source := (CallSeries.repeated call).stateAfter state.source (last + 1)
          paused := state.paused + pauses state.fetcher.settings.retries.base last }) := by
  have hrun := (repeats_request call state.fetcher).run_eq state.paused h
  rw [← ofOutcome_classify]
  exact congrArg (fun ended => (ofOutcome operation ended.1, ended.2)) hrun

/-- The last block to ask for after some halvings of the batch size. -/
def lastAfter (fetcher : Fetcher) (head halvings : Nat) : Nat :=
  min (min (fetcher.nextBlock + (BatchSize.shrink^[halvings] fetcher.batchSize).value - 1) head)
    (fetcher.endBlock.getD head)

/-- The requests for events that a fetcher makes in turn. -/
def eventRequests (context : FetchContext τ) (head : Nat) (fetcher : Fetcher) :
    CallSeries τ SourceError EventPage := fun halvings =>
  context.source.events fetcher.chain fetcher.nextBlock (fetcher.lastAfter head halvings)
    context.watched

/-- A fetcher whose batch size is halved. -/
def halved (fetcher : Fetcher) (halvings : Nat) : Fetcher :=
  { fetcher with batchSize := BatchSize.shrink^[halvings] fetcher.batchSize }

theorem lastRequested_halved (fetcher : Fetcher) (head halvings : Nat) :
    (fetcher.halved halvings).lastRequested head = fetcher.lastAfter head halvings := by
  rw [lastRequested, lastAfter, halved]
  cases fetcher.endBlock with
  | none => exact (Nat.min_eq_left (Nat.min_le_right _ _)).symm
  | some last => rfl

theorem request_fetcher (operation : FetchOperation) (call : Call τ SourceError α)
    (state : FetchState τ) : (request operation call state).2.fetcher = state.fetcher := by
  obtain ⟨last, hends⟩ := exists_endsAt state.fetcher.settings.retries.limit
    fun made => SourceError.Passing ((CallSeries.repeated call).answer state.source made)
  rw [request_eq operation call state hends]

theorem attemptEvents_halved (context : FetchContext τ) (head : Nat) (fetcher : Fetcher)
    (retries : Nat) (source : τ) (paused : Nat) :
    attemptEvents context (fetcher.lastAfter head retries)
        ⟨fetcher.halved retries, source, paused⟩ =
      (classify (fetcher.eventRequests context head retries source).1,
        ⟨fetcher.halved retries, (fetcher.eventRequests context head retries source).2, paused⟩) := by
  rw [attemptEvents]
  dsimp only
  rw [attempt_eq]
  rfl

theorem halve_halved (fetcher : Fetcher) (millis retries : Nat) (source : τ) (paused : Nat) :
    halve millis ⟨fetcher.halved retries, source, paused⟩ =
      ⟨fetcher.halved (retries + 1), source, paused + millis⟩ := by
  rw [halve, pause, halved, halved, Function.iterate_succ_apply']

/-- The loop that asks for events. -/
theorem repeats_requestEvents (context : FetchContext τ) (head : Nat) (fetcher : Fetcher) :
    Repeats (fun state => attemptEvents context (state.fetcher.lastRequested head) state) halve
      (fetcher.eventRequests context head) SourceError.Passing classify
      fun retries source paused => ⟨fetcher.halved retries, source, paused⟩ where
  attempt retries source paused := by
    dsimp only
    rw [lastRequested_halved]
    exact attemptEvents_halved ..
  recover millis retries source paused := halve_halved ..
  fails := classify_failed

theorem requestEvents_eq (context : FetchContext τ) (head : Nat) (state : FetchState τ)
    {last : Nat} (h : EndsAt state.fetcher.settings.retries.limit
      (fun made => SourceError.Passing
        ((state.fetcher.eventRequests context head).answer state.source made)) last) :
    requestEvents context head state =
      (lastResult .events (last + 1)
          ((state.fetcher.eventRequests context head).answer state.source last),
        { fetcher := state.fetcher.halved last
          source := (state.fetcher.eventRequests context head).stateAfter state.source (last + 1)
          paused := state.paused + pauses state.fetcher.settings.retries.base last }) := by
  have hrun := (repeats_requestEvents context head state.fetcher).run_eq state.paused h
  rw [← ofOutcome_classify]
  exact congrArg (fun ended => (ofOutcome .events ended.1, ended.2)) hrun

theorem requestEvents_fetcher (context : FetchContext τ) (head : Nat) (state : FetchState τ) :
    ∃ halvings, (requestEvents context head state).2.fetcher = state.fetcher.halved halvings := by
  obtain ⟨last, hends⟩ := exists_endsAt state.fetcher.settings.retries.limit
    fun made => SourceError.Passing
      ((state.fetcher.eventRequests context head).answer state.source made)
  exact ⟨last, by rw [requestEvents_eq context head state hends]⟩

end Fetcher

/-! ### Writes to a store -/

/-- Whether an answer is an error. -/
def RepoError.Occurs {α : Type} (answer : Except RepoError α) : Prop :=
  ∃ error, answer = .error error

namespace RetryPolicy

variable {σ : Type}

/-- What an answer means for more attempts: any error may pass. -/
def classify : Except RepoError Unit → Attempt RepoError Unit
  | .ok () => .done ()
  | .error error => .failed error

/-- What the answer to the last of some attempts makes of a write. -/
def lastResult (attempts : Nat) : Except RepoError Unit → Except IndexingError Unit
  | .ok () => .ok ()
  | .error error => .error (.storage attempts error)

/-- What the end of the attempts makes of a write. -/
def writeEnd (ended : Outcome RepoError Unit × (σ × Nat)) : WriteOutcome σ :=
  match ended with
  | (.done (), state) => ⟨.ok (), state.1, state.2⟩
  | (.fatal error, state) => ⟨.error (.repo error), state.1, state.2⟩
  | (.exhausted attempts error, state) => ⟨.error (.storage attempts error), state.1, state.2⟩

theorem writeEnd_classify (attempts : Nat) (answer : Except RepoError Unit) (repo : σ)
    (paused : Nat) :
    writeEnd ((classify answer).outcome attempts, repo, paused) =
      ⟨lastResult attempts answer, repo, paused⟩ := by
  rcases answer with error | value <;> rfl

/-- The loop that writes. -/
theorem repeats_write (call : Call σ RepoError Unit) :
    Repeats
      (fun state : σ × Nat =>
        match call state.1 with
        | (.ok (), repo) => (.done (), (repo, state.2))
        | (.error error, repo) => (.failed error, (repo, state.2)))
      (fun millis state => (state.1, state.2 + millis)) (.repeated call) RepoError.Occurs classify
      fun _ repo paused => (repo, paused) where
  attempt _ repo paused := by
    rw [CallSeries.repeated]
    obtain ⟨answer, after⟩ := call repo
    rcases answer with _ | _ <;> rfl
  recover _ _ _ _ := rfl
  fails answer := by
    rcases answer with error | value
    · exact ⟨fun _ => ⟨error, rfl⟩, fun _ => ⟨error, rfl⟩⟩
    · exact ⟨fun ⟨_, h⟩ => (nomatch h), fun ⟨_, h⟩ => (nomatch h)⟩

theorem write_eq (policy : RetryPolicy) (call : Call σ RepoError Unit) (repo : σ) {last : Nat}
    (h : EndsAt policy.limit
      (fun made => RepoError.Occurs ((CallSeries.repeated call).answer repo made)) last) :
    policy.write call repo =
      ⟨lastResult (last + 1) ((CallSeries.repeated call).answer repo last),
        (CallSeries.repeated call).stateAfter repo (last + 1), pauses policy.base last⟩ := by
  have hrun := (repeats_write call).run_eq 0 h
  rw [Nat.zero_add] at hrun
  rw [← writeEnd_classify, ← hrun]
  rfl

/-- As a failed call leaves alone what is seen, so does a write, unless its last call succeeds. -/
theorem write_cases {ν : Type} {view : σ → ν} (policy : RetryPolicy) {call : Call σ RepoError Unit}
    (hfails : ∀ before error after, call before = (.error error, after) → view after = view before)
    (state : σ) :
    ((policy.write call state).result = .ok () ∧
      ∃ before, view before = view state ∧
        call before = (.ok (), (policy.write call state).repo)) ∨
    ((∃ error, (policy.write call state).result = .error error) ∧
      view (policy.write call state).repo = view state) := by
  let calls := CallSeries.repeated call
  obtain ⟨last, hends⟩ := exists_endsAt policy.limit
    fun made => RepoError.Occurs (calls.answer state made)
  have hstep : ∀ made error, calls.answer state made = .error error →
      view (calls.stateAfter state (made + 1)) = view (calls.stateAfter state made) :=
    fun made error hanswer => hfails _ error _ (Prod.ext hanswer rfl)
  have hview : ∀ made ≤ last, view (calls.stateAfter state made) = view state := by
    intro made
    induction made with
    | zero => exact fun _ => rfl
    | succ made ih =>
      intro hle
      obtain ⟨error, herror⟩ := hends.before made hle
      exact (hstep made error herror).trans (ih (Nat.le_of_succ_le hle))
  rw [write_eq policy call state hends]
  cases hanswer : calls.answer state last with
  | ok value => exact Or.inl ⟨rfl, _, hview last (Nat.le_refl _), Prod.ext hanswer rfl⟩
  | error error =>
    exact Or.inr ⟨⟨_, rfl⟩, (hstep last error hanswer).trans (hview last (Nat.le_refl _))⟩

end RetryPolicy

end ChainIndexer
