import ChainIndexer.Repo.Error

/-!
# Handler errors
-/

namespace ChainIndexer

inductive HandlerError where
  /-- A handler read an entity that its loader did not ask for. -/
  | notLoaded (key : EntityKey)
  /-- An entity does not read as the type it was asked for as. -/
  | serialization
  | missingParam (event name : String)
  | invalidParam (event name expected : String)
  | unknownContract (contract : String)
  | repo (error : RepoError)
  | custom (text : String)
deriving DecidableEq, Repr, Inhabited

namespace HandlerError

def message? : HandlerError → Option String
  | .notLoaded key =>
    some (key.kind ++ " " ++ key.id ++ " was read without being loaded first")
  | .serialization => none
  | .missingParam event name => some (event ++ " has no param named " ++ name)
  | .invalidParam event name expected =>
    some (event ++ "." ++ name ++ " is not a valid " ++ expected)
  | .unknownContract contract =>
    some ("cannot register an address for unknown contract " ++ contract)
  | .repo error => error.message?
  | .custom text => some text

end HandlerError

end ChainIndexer
