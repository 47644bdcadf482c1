import ChainIndexer.Pipeline.Error
import ChainIndexer.Repo.Basic
import ChainIndexer.Retry

/-!
# Writing with retries

A write that fails is tried again whatever the reason, as a write leaves nothing behind when it
fails.
-/

namespace ChainIndexer

/-- How a write ended. -/
structure WriteOutcome (σ : Type) where
  result : Except IndexingError Unit
  repo : σ
  /-- How long it paused, in milliseconds. -/
  paused : Nat

/-- Makes a call on a store that changes it, with retries. -/
def RetryPolicy.write {σ : Type} (policy : RetryPolicy) (call : Call σ RepoError Unit) (repo : σ) :
    WriteOutcome σ :=
  let attempt (state : σ × Nat) : Attempt RepoError Unit × (σ × Nat) :=
    match call state.1 with
    | (.ok (), repo) => (.done (), (repo, state.2))
    | (.error error, repo) => (.failed error, (repo, state.2))
  match policy.run attempt (fun millis state => (state.1, state.2 + millis)) (repo, 0) with
  | (.done (), state) => ⟨.ok (), state.1, state.2⟩
  | (.fatal error, state) => ⟨.error (.repo error), state.1, state.2⟩
  | (.exhausted attempts error, state) => ⟨.error (.storage attempts error), state.1, state.2⟩

end ChainIndexer
