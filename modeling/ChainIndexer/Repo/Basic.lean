import ChainIndexer.Checkpoint
import ChainIndexer.Contract.Registration
import ChainIndexer.Repo.Error
import ChainIndexer.Rollback.Scope
import ChainIndexer.Source.Basic

/-!
# Storage

What is written in one transaction, and the calls that every kind of storage answers.
-/

namespace ChainIndexer

/-- Everything that one commit stores. -/
structure WriteUnit where
  rawEvents : List Event
  changes : List EntityChange
  /-- In the order in which the records get their serials. -/
  history : List HistoryEntry
  registrations : List Registration
  checkpoints : List Checkpoint
  blocks : List RecordedBlock
deriving DecidableEq, Inhabited

def WriteUnit.isEmpty (unit : WriteUnit) : Bool :=
  unit.rawEvents.isEmpty && unit.changes.isEmpty && unit.history.isEmpty
    && unit.registrations.isEmpty && unit.checkpoints.isEmpty && unit.blocks.isEmpty

/-- Everything that a rollback changes, stored in one transaction. -/
structure RollbackPlan where
  scope : RollbackScope
  restores : List EntityChange
  rewinds : List Rewind
  checkpoints : List Checkpoint
deriving DecidableEq, Inhabited

/-- A store, as the calls on its state `σ`. A call that writes does so fully or not at all. -/
structure Repo (σ : Type) where
  migrate : Call σ RepoError Unit
  /-- Drops everything but the count of resets. -/
  reset : Call σ RepoError Unit
  resetCount : Call σ RepoError Nat
  countReset : Call σ RepoError Unit
  commit : WriteUnit → Call σ RepoError Unit
  entity : EntityKey → Call σ RepoError (Option Json)
  checkpoints : Call σ RepoError (List Checkpoint)
  registrations : Call σ RepoError (List Registration)
  /-- The highest recorded blocks of a chain, highest first, up to a number of them. -/
  recentBlocks : ChainId → Nat → Call σ RepoError (List Block)
  /-- Where the last history record of each entity came from, for those that have one. -/
  latestOrigins : List EntityKey → Call σ RepoError (Table EntityKey Origin)
  /-- The history records that a scope invalidates, in serial order. -/
  historyIn : RollbackScope → Call σ RepoError (List HistoryRecord)
  recordAt : EntityKey → Origin → Call σ RepoError (Option HistoryRecord)
  /-- The lowest block of each chain with a raw event that a scope invalidates. -/
  firstInvalidatedBlocks : RollbackScope → Call σ RepoError (Table ChainId Nat)
  applyRollback : RollbackPlan → Call σ RepoError Unit
  /-- Drops raw events, recorded blocks and superseded history of a chain below a block. -/
  prune : ChainId → Nat → Call σ RepoError Unit

end ChainIndexer
