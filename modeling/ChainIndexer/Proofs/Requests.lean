import ChainIndexer.Proofs.BatchSizes

/-!
# Retries that agree

Requests to a source, requests for events and writes to a store all try again in the same way. Of
these only requests for events do sums: the number behind a batch is made before the range is held
to the head and the end, so a request is made exactly if that number is a word.
-/

namespace ChainIndexer

/-! ### Series that break off -/

theorem Attempt.unbroken_failed {ε α : Type} (attempt : Attempt ε α) :
    (∃ error, attempt.unbroken = .failed error) ↔ ∃ error, attempt = .failed error := by
  cases attempt with
  | done value => exact ⟨fun ⟨_, h⟩ => (nomatch h), fun ⟨_, h⟩ => (nomatch h)⟩
  | fatal error => exact ⟨fun ⟨_, h⟩ => (nomatch h), fun ⟨_, h⟩ => (nomatch h)⟩
  | failed error => exact ⟨fun _ => ⟨error, rfl⟩, fun _ => ⟨some error, rfl⟩⟩

/-- A series whose last attempt did not break off has an end to tell. -/
theorem Outcome.ended?_unbroken {ε α : Type} (attempts : Nat) (last : Attempt ε α) :
    (last.unbroken.outcome attempts).ended? = some (last.outcome attempts) := by
  cases last <;> rfl

namespace Fetcher

open RetryPolicy

variable {τ : Type}

/-- With room behind the next block the loop that asks for events never breaks off. -/
theorem repeats_requestEvents? (context : FetchContext τ) {head : Nat} {fetcher : Fetcher}
    (hsize : fetcher.batchSize.Bounded) (hhead : head ≤ Word.max)
    (hroom : fetcher.nextBlock + fetcher.batchSize.value ≤ Word.max) :
    Repeats
      (fun state =>
        match state.fetcher.lastRequested? head with
        | none => (.fatal none, state)
        | some last =>
          ((attemptEvents context last state).1.unbroken, (attemptEvents context last state).2))
      halve (fetcher.eventRequests context head) SourceError.Passing
      (fun answer => (classify answer).unbroken)
      fun retries source paused => ⟨fetcher.halved retries, source, paused⟩ where
  attempt retries source paused := by
    dsimp only
    rw [lastRequested?_halved hsize hhead hroom retries]
    dsimp only
    rw [attemptEvents_halved]
  recover millis retries source paused := halve_halved ..
  fails answer := (Attempt.unbroken_failed _).trans (classify_failed answer)

/-- With room, a request for events is what it is without regard to words. -/
theorem requestEvents?_eq (context : FetchContext τ) {head : Nat} {state : FetchState τ}
    (hsize : state.fetcher.batchSize.Bounded) (hhead : head ≤ Word.max)
    (hroom : state.fetcher.nextBlock + state.fetcher.batchSize.value ≤ Word.max) :
    requestEvents? context head state = some (requestEvents context head state) := by
  obtain ⟨last, hends⟩ := exists_endsAt state.fetcher.settings.retries.limit fun made =>
    SourceError.Passing ((state.fetcher.eventRequests context head).answer state.source made)
  have hrun := (repeats_requestEvents? context hsize hhead hroom).run_eq state.paused hends
  have hended := congrArg
    (fun ended => ended.1.ended?.map fun outcome => (ofOutcome .events outcome, ended.2)) hrun
  rw [Outcome.ended?_unbroken, Option.map_some, ofOutcome_classify,
    ← requestEvents_eq context head state hends] at hended
  exact hended

/-- Without room the first attempt breaks off, before anything is asked for. -/
theorem requestEvents?_isSome_iff (context : FetchContext τ) {head : Nat} {state : FetchState τ}
    (hsize : state.fetcher.batchSize.Bounded) (hhead : head ≤ Word.max) :
    (requestEvents? context head state).isSome ↔
      state.fetcher.nextBlock + state.fetcher.batchSize.value ≤ Word.max := by
  by_cases hroom : state.fetcher.nextBlock + state.fetcher.batchSize.value ≤ Word.max
  · rw [requestEvents?_eq context hsize hhead hroom]
    exact iff_of_true rfl hroom
  · have hnone : state.fetcher.lastRequested? head = none := by
      rw [lastRequested?_eq (Nat.le_trans hsize.positive hsize.lower), if_neg hroom]
    rw [requestEvents?, RetryPolicy.run, RetryPolicy.runFrom, hnone]
    exact iff_of_false Bool.false_ne_true hroom

end Fetcher

/-- Every series ends with one call, and requests, requests for events and writes agree on it: they
make exactly the calls up to that one, come to what its answer says, and pause before each retry. A
request for events halves its range each time. It is made exactly if a batch fits in behind the next
block, and each of its ranges ends where it should then. -/
theorem retries_agree {τ α σ : Type} (operation : FetchOperation) (call : Call τ SourceError α)
    (context : FetchContext τ) (head : Nat) (state : FetchState τ) (policy : RetryPolicy)
    (write : Call σ RepoError Unit) (repo : σ) :
    (∀ (limit : Nat) (fails : Nat → Prop), ∃ retries, RetryPolicy.EndsAt limit fails retries ∧
      ∀ other, RetryPolicy.EndsAt limit fails other → other = retries) ∧
    (∀ retries,
      RetryPolicy.EndsAt state.fetcher.settings.retries.limit
        (fun made => SourceError.Passing ((CallSeries.repeated call).answer state.source made))
        retries →
      Fetcher.request operation call state =
        (Fetcher.lastResult operation (retries + 1)
            ((CallSeries.repeated call).answer state.source retries),
          { state with
            source := (CallSeries.repeated call).stateAfter state.source (retries + 1)
            paused := state.paused + pauses state.fetcher.settings.retries.base retries })) ∧
    (state.fetcher.batchSize.Bounded → head ≤ Word.max →
      ((Fetcher.requestEvents? context head state).isSome ↔
        state.fetcher.nextBlock + state.fetcher.batchSize.value ≤ Word.max) ∧
      (state.fetcher.nextBlock + state.fetcher.batchSize.value ≤ Word.max →
        (∀ halvings, (state.fetcher.halved halvings).lastRequested? head =
          some (min
            (min (state.fetcher.nextBlock +
              (BatchSize.shrink^[halvings] state.fetcher.batchSize).value - 1) head)
            (state.fetcher.endBlock.getD head))) ∧
        ∀ retries, RetryPolicy.EndsAt state.fetcher.settings.retries.limit
            (fun made => SourceError.Passing
              ((state.fetcher.eventRequests context head).answer state.source made)) retries →
          Fetcher.requestEvents? context head state =
            some (Fetcher.lastResult .events (retries + 1)
                ((state.fetcher.eventRequests context head).answer state.source retries),
              { fetcher := state.fetcher.halved retries
                source :=
                  (state.fetcher.eventRequests context head).stateAfter state.source (retries + 1)
                paused := state.paused + pauses state.fetcher.settings.retries.base retries }))) ∧
    ∀ retries,
      RetryPolicy.EndsAt policy.limit
        (fun made => RepoError.Occurs ((CallSeries.repeated write).answer repo made)) retries →
      policy.write write repo =
        ⟨RetryPolicy.lastResult (retries + 1) ((CallSeries.repeated write).answer repo retries),
          (CallSeries.repeated write).stateAfter repo (retries + 1),
          pauses policy.base retries⟩ := by
  refine ⟨fun limit fails => ?_, fun retries h => ?_,
    fun hsize hhead => ⟨?_, fun hroom => ⟨fun halvings => ?_, ?_⟩⟩,
    fun retries h => policy.write_eq write repo h⟩
  · exact (RetryPolicy.exists_endsAt limit fails).imp fun _ h => ⟨h, fun _ => h.unique⟩
  · exact Fetcher.request_eq operation call state h
  · exact Fetcher.requestEvents?_isSome_iff context hsize hhead
  · exact Fetcher.lastRequested?_halved hsize hhead hroom halvings
  · intro retries h
    rw [Fetcher.requestEvents?_eq context hsize hhead hroom,
      Fetcher.requestEvents_eq context head state h]

namespace Testing

/-- Turns the third request for events down, and keeps the ranges asked for. -/
def rangeLog : ChainSource (List (Nat × Nat)) where
  head _ ranges := (.error (.transient "busy"), ranges)
  block _ _ ranges := (.error (.transient "busy"), ranges)
  events _ fromBlock toBlock _ ranges :=
    (.error (if ranges.length < 2 then .transient "busy" else .malformed "cut off"),
      ranges ++ [(fromBlock, toBlock)])

/-- Answers the third call, and keeps a mark of each. -/
def thirdCall : Call (List (Nat × Nat)) SourceError Nat := fun marks =>
  (if marks.length < 2 then .error (.transient "busy") else .ok marks.length, marks ++ [(0, 0)])

/-- Is never there, and counts the calls. -/
def noConnection : Call Nat RepoError Unit := fun made => (.error .notConnected, made + 1)

/-- Has room for no batch behind its next block. -/
def widestFetcher : Fetcher :=
  { retryingFetcher with batchSize := ⟨Word.max, 1, Word.max, 1000, 50⟩ }

theorem retries_of_third_calls :
    Fetcher.request .head thirdCall ⟨retryingFetcher, [], 0⟩ =
        (.ok 2, ⟨retryingFetcher, [(0, 0), (0, 0), (0, 0)], 50000⟩) ∧
      Fetcher.requestEvents? ⟨rangeLog, ⟨[]⟩, [], 1⟩ 40 ⟨retryingFetcher, [], 0⟩ =
        some (.error (.malformed "cut off"),
          ⟨retryingFetcher.halved 2, [(5, 12), (5, 9), (5, 7)], 50000⟩) ∧
      Fetcher.requestEvents? ⟨rangeLog, ⟨[]⟩, [], 1⟩ 40 ⟨widestFetcher, [], 0⟩ = none ∧
      twoRetries.write noConnection 0 = ⟨.error (.storage 3 .notConnected), 3, 50000⟩ := by
  have hbounded : retryingFetcher.batchSize.Bounded := ⟨by decide, by decide, by decide⟩
  have hwidest : widestFetcher.batchSize.Bounded := ⟨by decide, by decide, by decide⟩
  obtain ⟨-, hrequest, hevents, hwrite⟩ := retries_agree .head thirdCall ⟨rangeLog, ⟨[]⟩, [], 1⟩ 40
    ⟨retryingFetcher, [], 0⟩ twoRetries noConnection 0
  obtain ⟨-, -, hwidestEvents, -⟩ := retries_agree .head thirdCall ⟨rangeLog, ⟨[]⟩, [], 1⟩ 40
    ⟨widestFetcher, [], 0⟩ twoRetries noConnection 0
  obtain ⟨-, hcalls⟩ := hevents hbounded (by decide)
  obtain ⟨hroom, -⟩ := hwidestEvents hwidest (by decide)
  refine ⟨(hrequest 2 ⟨?_, Nat.le_refl 2, fun _ => rfl⟩).trans rfl,
    ((hcalls (by decide)).2 2 ⟨?_, Nat.le_refl 2, fun _ => rfl⟩).trans rfl,
    Option.not_isSome_iff_eq_none.1 fun hmade => absurd (hroom.1 hmade) (by decide),
    (hwrite 2 ⟨?_, Nat.le_refl 2, fun _ => rfl⟩).trans rfl⟩
  · rintro (_ | _ | earlier) hlt
    · exact ⟨"busy", rfl⟩
    · exact ⟨"busy", rfl⟩
    · omega
  · rintro (_ | _ | earlier) hlt
    · exact ⟨"busy", rfl⟩
    · exact ⟨"busy", rfl⟩
    · omega
  · exact fun earlier hlt => ⟨.notConnected, rfl⟩

end Testing

end ChainIndexer
