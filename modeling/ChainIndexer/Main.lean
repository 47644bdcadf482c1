import ChainIndexer.Postgres.Database

/-!
# Command line

Prepares the database that the environment names for tests: creates it if need be, and its tables.
The program brings no connection to servers along, so a database that is named is out of reach.
-/

open ChainIndexer Postgres

/-- The name of the variable that holds the url of the database. -/
def databaseVariable : String := "TEST_DATABASE_URL"

def main : IO UInt32 := do
  match ← IO.getEnv databaseVariable with
  | none =>
    IO.eprintln (databaseVariable ++ " is not set. See: sample.env")
    return 0
  | some url =>
    match (openDatabase (Servers.unreachable Unit) url ()).1 with
    | .ok _ => return 0
    | .error error =>
      IO.eprintln (error.message?.getD "the database could not be prepared")
      return 101
