import ChainIndexer.Contract.Registry
import ChainIndexer.Pipeline.Error
import ChainIndexer.Repo.Basic

/-!
# Booting

What happens before indexing starts: the configuration is checked, storage is prepared and, if asked
for, reset, and the stored state that indexing goes on from is read.
-/

namespace ChainIndexer

/-- What indexing goes on from. -/
structure Booted where
  tracker : Tracker
  registry : Registry
deriving Inhabited

variable {σ : Type}

/-- Counts some resets. -/
def countResets (repo : Repo σ) : (times : Nat) → Call σ RepoError Unit
  | 0 => return ()
  | times + 1 => do
    repo.countReset
    countResets repo times

/-- Drops all data if more resets are asked for than were made. -/
def resetIfAsked (repo : Repo σ) (asked : Nat) : Call σ RepoError Unit := do
  let made ← repo.resetCount
  if made < asked then
    repo.reset
    countResets repo (asked - made)

def bootRepo (repo : Repo σ) (config : Config) : Call σ RepoError Booted := do
  repo.migrate
  resetIfAsked repo config.resetCount
  let tracker := Tracker.start config.chains (← repo.checkpoints)
  let registrations ← repo.registrations
  return ⟨tracker, (Registry.ofContracts config.contracts).reload registrations⟩

def boot (repo : Repo σ) (config : Config) (state : σ) : Except IndexingError Booted × σ :=
  match config.validate with
  | .error error => (.error (.config error), state)
  | .ok () =>
    match bootRepo repo config state with
    | (.ok booted, state) => (.ok booted, state)
    | (.error error, state) => (.error (.repo error), state)

end ChainIndexer
