import ChainIndexer.Postgres.Repo

/-!
# Databases

Databases by their urls: creating one that is not there yet, and opening it with its tables in
place.
-/

namespace ChainIndexer.Postgres

/-- The url of a server, and the name of a database on it. -/
structure DatabaseUrl where
  server : String
  database : String
deriving DecidableEq, Repr, Inhabited

/-- The last slash of a url stands before the name of the database. -/
def DatabaseUrl.ofText (url : String) : DatabaseUrl :=
  let reversed := url.toList.reverse
  { server := String.ofList ((reversed.dropWhile (· ≠ '/')).drop 1).reverse
    database := String.ofList (reversed.takeWhile (· ≠ '/')).reverse }

/-- Servers that can be connected to by the urls of their databases. -/
structure Servers (σ : Type) where
  connect : String → Call σ ServerError (Server σ)

/-- Servers none of which can be reached. -/
def Servers.unreachable (σ : Type) : Servers σ where
  connect _ := throw .closed

/-- Why a database could not be opened. -/
inductive OpenError where
  | unreachable (server : String)
  | storage (error : RepoError)
deriving DecidableEq, Repr, Inhabited

/-- The text of an error; none where the server words it. -/
def OpenError.message? : OpenError → Option String
  | .unreachable server => some ("Error connecting to " ++ server)
  | .storage error => error.message?

variable {σ α : Type}

/-- A call on storage whose error keeps a database from being opened. -/
def whileOpening (call : Call σ RepoError α) : Call σ OpenError α := fun state =>
  match call state with
  | (.ok value, state) => (.ok value, state)
  | (.error error, state) => (.error (.storage error), state)

/-- Creates a database on a server, over the database that every server has. -/
def createDatabase (servers : Servers σ) (url : DatabaseUrl) : Call σ OpenError Unit := fun state =>
  match servers.connect (url.server ++ "/postgres") state with
  | (.error _, state) => (.error (.unreachable url.server), state)
  | (.ok server, state) =>
    let create := "CREATE DATABASE \"" ++ url.database ++ "\""
    whileOpening (runScripts server [create]) state

/-- Creates a database unless it can be connected to. -/
def ensureDatabase (servers : Servers σ) (url : String) : Call σ OpenError Unit := fun state =>
  match servers.connect url state with
  | (.ok _, state) => (.ok (), state)
  | (.error _, state) => createDatabase servers (.ofText url) state

/-- The store in a database, which is created if need be, with its tables in place. -/
def openDatabase (servers : Servers σ) (url : String) : Call σ OpenError (Repo σ) := do
  ensureDatabase servers url
  let server ← whileOpening (onServer (servers.connect url))
  let repo := Repo.onServer server
  whileOpening repo.migrate
  return repo

/-- The store in a database after all its data was dropped. -/
def openEmptyDatabase (servers : Servers σ) (url : String) : Call σ OpenError (Repo σ) := do
  let repo ← openDatabase servers url
  whileOpening repo.reset
  return repo

end ChainIndexer.Postgres
