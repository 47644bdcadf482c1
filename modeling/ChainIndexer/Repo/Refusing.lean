import ChainIndexer.Repo.Basic

/-!
# Stores that turn calls down

Around any store, a guard that refuses the next few calls of some kinds and counts the calls made.
-/

namespace ChainIndexer

/-- The calls on a store, without their arguments. -/
inductive RepoCall where
  | migrate
  | reset
  | resetCount
  | countReset
  | commit
  | entity
  | checkpoints
  | registrations
  | recentBlocks
  | latestOrigins
  | historyIn
  | recordAt
  | firstInvalidatedBlocks
  | applyRollback
  | prune
deriving DecidableEq, Repr, Inhabited

def RepoCall.name : RepoCall → String
  | migrate => "migrate"
  | reset => "reset"
  | resetCount => "get_last_reset_count"
  | countReset => "create_reset_count"
  | commit => "commit"
  | entity => "read_entity"
  | checkpoints => "read_chain_checkpoints"
  | registrations => "load_contract_registrations"
  | recentBlocks => "load_recent_blocks"
  | latestOrigins => "load_latest_history_identities"
  | historyIn => "load_history_records_in_scope"
  | recordAt => "load_history_record_at"
  | firstInvalidatedBlocks => "load_first_invalidated_event_blocks"
  | applyRollback => "apply_rollback"
  | prune => "prune"

structure Guarded (σ : Type) where
  inner : σ
  /-- How many more calls of a name are refused. -/
  refusals : Table String Nat
  /-- How many calls of a name were made. -/
  made : Table String Nat
deriving Inhabited

namespace Guarded

variable {σ ε α : Type}

def around (inner : σ) : Guarded σ := ⟨inner, .empty, .empty⟩

def refuse (guarded : Guarded σ) (name : String) (count : Nat) : Guarded σ :=
  { guarded with refusals := guarded.refusals.insert name count }

def callsOf (guarded : Guarded σ) (call : RepoCall) : Nat := (guarded.made.get? call.name).getD 0

/-- Passes a call on, unless it is to fail. -/
def guard (failure : RepoCall → QueryFailure) (name : RepoCall) (call : Call σ RepoError α) :
    Call (Guarded σ) RepoError α :=
  fun guarded =>
    let guarded :=
      { guarded with made := guarded.made.insert name.name (guarded.callsOf name + 1) }
    match (guarded.refusals.get? name.name).getD 0 with
    | 0 =>
      let (answer, inner) := call guarded.inner
      (answer, { guarded with inner := inner })
    | left + 1 => (.error (.query (failure name)), guarded.refuse name.name left)

end Guarded

/-- A store behind a guard whose refusals show as some failures. -/
def Repo.guarded {σ : Type} (failure : RepoCall → QueryFailure) (repo : Repo σ) :
    Repo (Guarded σ) where
  migrate := Guarded.guard failure .migrate repo.migrate
  reset := Guarded.guard failure .reset repo.reset
  resetCount := Guarded.guard failure .resetCount repo.resetCount
  countReset := Guarded.guard failure .countReset repo.countReset
  commit unit := Guarded.guard failure .commit (repo.commit unit)
  entity key := Guarded.guard failure .entity (repo.entity key)
  checkpoints := Guarded.guard failure .checkpoints repo.checkpoints
  registrations := Guarded.guard failure .registrations repo.registrations
  recentBlocks chain limit := Guarded.guard failure .recentBlocks (repo.recentBlocks chain limit)
  latestOrigins keys := Guarded.guard failure .latestOrigins (repo.latestOrigins keys)
  historyIn scope := Guarded.guard failure .historyIn (repo.historyIn scope)
  recordAt key origin := Guarded.guard failure .recordAt (repo.recordAt key origin)
  firstInvalidatedBlocks scope :=
    Guarded.guard failure .firstInvalidatedBlocks (repo.firstInvalidatedBlocks scope)
  applyRollback plan := Guarded.guard failure .applyRollback (repo.applyRollback plan)
  prune chain minBlock := Guarded.guard failure .prune (repo.prune chain minBlock)

/-- A store behind a guard that names what it refuses. -/
def Repo.refusing {σ : Type} (repo : Repo σ) : Repo (Guarded σ) :=
  repo.guarded fun call => .refused call.name

/-- A store behind a guard whose refusals look like lost races between writers. -/
def Repo.unreliable {σ : Type} (repo : Repo σ) : Repo (Guarded σ) :=
  repo.guarded fun _ => .notSerializable

end ChainIndexer
