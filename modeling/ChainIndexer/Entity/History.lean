import ChainIndexer.Entity.Basic
import ChainIndexer.Event.Basic

/-!
# Entity history

Every change of an entity leaves a record that holds the value it left behind and refers back to
the record before it, so that a rollback can restore the value from before a change.
-/

namespace ChainIndexer

inductive HistoryAction where
  | set
  | delete
deriving DecidableEq, Repr, Inhabited

namespace HistoryAction

def text : HistoryAction → String
  | .set => "set"
  | .delete => "delete"

def ofText? (text : String) : Option HistoryAction :=
  if text = "set" then some .set else if text = "delete" then some .delete else none

end HistoryAction

/-- One change of an entity, before storage gave it a place in the order of all changes. -/
structure HistoryEntry where
  key : EntityKey
  action : HistoryAction
  /-- The fields after the change; none after a delete. -/
  snapshot : Option Json
  origin : Origin
  /-- Where the record before this one came from. -/
  previous : Origin
deriving DecidableEq, Inhabited

namespace HistoryEntry

def ofChange (change : EntityChange) (origin previous : Origin) : HistoryEntry where
  key := change.key
  action :=
    match change with
    | .set _ _ => .set
    | .delete _ => .delete
  snapshot := change.fields?
  origin := origin
  previous := previous

/-- The change that leads to the value this entry left behind. -/
def toChange (entry : HistoryEntry) : EntityChange :=
  match entry.action, entry.snapshot with
  | .set, some fields => .set entry.key fields
  | _, _ => .delete entry.key

end HistoryEntry

/-- A history entry with its place in the order of all changes. -/
structure HistoryRecord extends HistoryEntry where
  serial : Nat
deriving DecidableEq, Inhabited

end ChainIndexer
