import ChainIndexer.Repo.Error
import ChainIndexer.Source.Basic

/-!
# Fetch errors

What ends the fetching of a chain.
-/

namespace ChainIndexer

/-- A kind of request to a source. -/
inductive FetchOperation where
  | head
  | block
  | events
deriving DecidableEq, Repr, Inhabited

def FetchOperation.name : FetchOperation → String
  | .head => "get_head_block"
  | .block => "get_block"
  | .events => "get_events"

inductive FetchError where
  | retriesExhausted (operation : FetchOperation) (attempts : Nat) (last : SourceError)
  | malformed (reason : String)
  /-- No recorded block is left on the chain. -/
  | reorgBeyondWindow (lowest : Nat)
  | repo (error : RepoError)
deriving DecidableEq, Repr, Inhabited

def FetchError.message? : FetchError → Option String
  | .retriesExhausted operation attempts last =>
    some (operation.name ++ " failed after " ++ toString attempts ++ " attempts: " ++ last.message)
  | .malformed reason => some ("malformed source data: " ++ reason)
  | .reorgBeyondWindow lowest =>
    some ("reorg reaches below block " ++ toString lowest ++ ", outside the recorded window")
  | .repo error => error.message?

end ChainIndexer
