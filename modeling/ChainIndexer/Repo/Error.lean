import ChainIndexer.Entity.History

/-!
# Storage errors
-/

namespace ChainIndexer

/-- Why storage refused a query. -/
inductive QueryFailure where
  /-- A stored history record has an action of no known meaning. -/
  | unknownAction (action : String)
  /-- The store turned a call down. -/
  | refused (call : String)
  /-- Concurrent writes could not be put into an order. -/
  | notSerializable
  /-- The server rejected a statement for a reason of its own. -/
  | rejected (code : String)
  /-- The server's answer is not of the form that was asked for. -/
  | unreadableAnswer
deriving DecidableEq, Repr, Inhabited

/-- Which writes exclude each other. -/
inductive ConflictCause where
  | duplicateRecord (key : EntityKey) (origin : Origin)
  /-- The server found a unique key taken. -/
  | uniqueViolation
deriving DecidableEq, Repr, Inhabited

inductive RepoError where
  | notConnected
  | query (failure : QueryFailure)
  /-- A stored value does not read as what it should be. -/
  | serialization
  | conflict (cause : ConflictCause)
  /-- A back-reference leads nowhere. -/
  | missingHistory (key : EntityKey) (origin : Origin)
deriving DecidableEq, Repr, Inhabited

/-- The text of a failure, if it is one of this library's own. -/
def QueryFailure.text? : QueryFailure → Option String
  | .unknownAction action => some ("unknown history action " ++ action)
  | .refused call => some (call ++ " was refused")
  | .notSerializable => some "could not serialize access"
  | .rejected _ | .unreadableAnswer => none

def ConflictCause.text? : ConflictCause → Option String
  | .duplicateRecord key origin =>
    some (key.kind ++ " " ++ key.id ++ " already has a history record at " ++ origin.text)
  | .uniqueViolation => none

namespace RepoError

/-- The text of an error; none where the server or a decoder words it. -/
def message? : RepoError → Option String
  | .notConnected => some "repo is not connected"
  | .query failure => failure.text?.map ("query failed: " ++ ·)
  | .serialization => none
  | .conflict cause => cause.text?.map ("conflicting write: " ++ ·)
  | .missingHistory key origin =>
    some (key.kind ++ " " ++ key.id ++ " has no history record at " ++ origin.text)

end RepoError

end ChainIndexer
