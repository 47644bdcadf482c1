import ChainIndexer.Config
import ChainIndexer.Fetch.Error
import ChainIndexer.Handler.Error

/-!
# Indexing errors

What ends a run of the indexer.
-/

namespace ChainIndexer

inductive IndexingError where
  | config (error : ConfigError)
  | repo (error : RepoError)
  /-- A write failed, with all its retries. -/
  | storage (attempts : Nat) (error : RepoError)
  | chainFailed (chain : ChainId) (error : FetchError)
  | handler (chain : ChainId) (position : Position) (error : HandlerError)
  | rollbackFailed (chain : ChainId) (error : RepoError)
deriving DecidableEq, Repr, Inhabited

def IndexingError.message? : IndexingError → Option String
  | .config error => some ("invalid config: " ++ error.message)
  | .repo error => error.message?
  | .storage attempts error =>
    error.message?.map fun text =>
      "storage write failed after " ++ toString attempts ++ " attempts: " ++ text
  | .chainFailed chain error =>
    error.message?.map fun text => "chain " ++ toString chain ++ " failed: " ++ text
  | .handler chain position error =>
    error.message?.map fun text =>
      "handler failed on chain " ++ toString chain ++ " at block " ++ toString position.block
        ++ ", log " ++ toString position.logIndex ++ ": " ++ text
  | .rollbackFailed chain error =>
    error.message?.map fun text => "could not roll back chain " ++ toString chain ++ ": " ++ text

end ChainIndexer
