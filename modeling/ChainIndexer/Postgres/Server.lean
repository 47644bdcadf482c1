import ChainIndexer.Postgres.Statement
import ChainIndexer.Repo.Error
import ChainIndexer.Source.Basic

/-!
# Servers

A database server as its client sees it, and the transactions that a client runs on it.
-/

namespace ChainIndexer.Postgres

inductive ServerError where
  /-- The server turned a statement down, with a code of five characters. -/
  | rejected (code : String)
  /-- The connection is gone. -/
  | closed
deriving DecidableEq, Repr, Inhabited

/-- The code of a unique key that is taken. -/
def uniqueViolation : String := "23505"

def ServerError.toRepoError : ServerError → RepoError
  | .rejected code =>
    if code = uniqueViolation then .conflict .uniqueViolation else .query (.rejected code)
  | .closed => .notConnected

/-- A text to read with, and its parameters. -/
structure Query where
  text : String
  params : List Value
deriving DecidableEq, Inhabited

/-- The query for all rows of another as one JSON list. -/
def Query.aggregated (query : Query) : Query :=
  { query with
    text := "WITH result AS (" ++ query.text
      ++ ") SELECT COALESCE(json_agg(result), '[]'::json) FROM result" }

structure Server (σ : Type) where
  execute : Statement → Call σ ServerError Unit
  /-- The only column of the first row, if there is a row. -/
  fetch : Query → Call σ ServerError (Option Json)

variable {σ α : Type}

/-- A call whose errors are those of storage. -/
def onServer (call : Call σ ServerError α) : Call σ RepoError α := fun state =>
  match call state with
  | (.ok value, state) => (.ok value, state)
  | (.error error, state) => (.error error.toRepoError, state)

/-- Runs statements in turn, up to the first that fails. -/
def executeAll (server : Server σ) : List Statement → Call σ ServerError Unit
  | [] => return ()
  | statement :: rest => do
    server.execute statement
    executeAll server rest

/-- Runs statements in one transaction. A failure before the commit rolls the transaction back; what
the server says to that is of no interest. -/
def transaction (server : Server σ) (statements : List Statement) : Call σ ServerError Unit :=
  fun state =>
    match executeAll server (.startTransaction :: statements) state with
    | (.ok (), state) => server.execute .commit state
    | (.error error, state) => (.error error, (server.execute .rollback state).2)

end ChainIndexer.Postgres
