import ChainIndexer.Number.Word
import ChainIndexer.Repo.Basic

/-!
# Planning a rollback

Each entity that a reorg touched goes back to the value that its earliest stale record replaced.
-/

namespace ChainIndexer.RollbackPlan

variable {σ : Type}

/-- The first record of each entity. -/
def earliest (records : List HistoryRecord) : Table EntityKey HistoryRecord :=
  records.foldl (fun table record => table.insertNew record.key record) .empty

/-- The change that takes an entity back to before its earliest stale record. -/
def restore (repo : Repo σ) (key : EntityKey) (record : HistoryRecord) :
    Call σ RepoError EntityChange := do
  if record.previous.isGenesis then
    return .delete key
  match ← repo.recordAt key record.previous with
  | some previous => return previous.toChange
  | none => throw (.missingHistory key record.previous)

/-- How far the chains other than the reorged one go back: below their first stale event. -/
def otherRewinds (tracker : Tracker) (reorged : ChainId) (first : Table ChainId Nat) :
    List Rewind :=
  (first.entries.filter (·.1 ≠ reorged)).map fun entry =>
    ⟨entry.1, min (tracker.processed entry.1) (Word.checkedSub entry.2 1)⟩

def rewindsFor (repo : Repo σ) (scope : RollbackScope) (reorg : Reorg) (tracker : Tracker) :
    Call σ RepoError (List Rewind) := do
  let own : Rewind :=
    ⟨reorg.chain, min (tracker.processed reorg.chain) (some reorg.safeBlock.number)⟩
  match scope with
  | .chain _ _ => return [own]
  | .global _ _ _ =>
    let first ← repo.firstInvalidatedBlocks scope
    return own :: otherRewinds tracker reorg.chain first

def make (repo : Repo σ) (mode : Mode) (reorg : Reorg) (tracker : Tracker) :
    Call σ RepoError RollbackPlan := do
  let scope := RollbackScope.ofReorg mode reorg
  let stale := earliest (← repo.historyIn scope)
  let restores ← stale.entries.mapM fun entry => restore repo entry.1 entry.2
  let rewinds ← rewindsFor repo scope reorg tracker
  return ⟨scope, restores, rewinds, tracker.rewound rewinds⟩

end ChainIndexer.RollbackPlan
