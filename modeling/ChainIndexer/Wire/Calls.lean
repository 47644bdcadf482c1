import ChainIndexer.Repo.Basic
import ChainIndexer.Wire.Decode
import ChainIndexer.Wire.Encode

/-!
# Storage calls by name

The calls on a store as steps in JSON, with their answers in JSON.
-/

namespace ChainIndexer.Wire

variable {σ : Type}

/-- A call that answers nothing. -/
def silently (call : Call σ RepoError Unit) : Call σ RepoError Json := do
  call
  return .null

/-- A call on a store that writes, if this is one. -/
def writeCall? (repo : Repo σ) (step : List Json) : Option (Call σ RepoError Json) :=
  match step with
  | .str "migrate" :: _ => some (silently repo.migrate)
  | .str "reset" :: _ => some (silently repo.reset)
  | .str "create_reset_count" :: _ => some (silently repo.countReset)
  | .str "commit" :: unit :: _ => some (silently (repo.commit (writeUnit unit)))
  | .str "apply_plan" :: value :: _ => some (silently (repo.applyRollback (plan value)))
  | .str "prune" :: chain :: minBlock :: _ =>
    some (silently (repo.prune (asNat chain) (asNat minBlock)))
  | _ => none

def originsJson (origins : Table EntityKey Origin) : Json :=
  .arr (origins.entries.map fun (key, origin) =>
    .arr [.str key.kind, .str key.id, originJson origin])

def entityJson (key : EntityKey) (fields : Json) : Json :=
  .arr [.str key.kind, .str key.id, fields]

/-- A call on a store that reads, if this is one. -/
def readCall? (repo : Repo σ) (step : List Json) : Option (Call σ RepoError Json) :=
  match step with
  | .str "reset_count" :: _ => some (return .nat (← repo.resetCount))
  | .str "read_entity" :: kind :: id :: _ =>
    let key : EntityKey := ⟨asStr kind, asStr id⟩
    some (return .ofOption (entityJson key) (← repo.entity key))
  | .str "checkpoints" :: _ => some (return .arr ((← repo.checkpoints).map checkpointJson))
  | .str "registrations" :: _ =>
    some (return .arr ((← repo.registrations).map registrationJson))
  | .str "latest_identities" :: keys :: _ =>
    some (return originsJson (← repo.latestOrigins ((asList keys).map entityKey)))
  | .str "in_scope" :: value :: _ =>
    some (return .arr ((← repo.historyIn (scope value)).map recordJson))
  | .str "record_at" :: key :: value :: _ =>
    some (return .ofOption recordJson (← repo.recordAt (entityKey key) (origin value)))
  | .str "first_blocks" :: value :: _ =>
    some do
      let blocks ← repo.firstInvalidatedBlocks (scope value)
      return .arr (blocks.entries.map fun (chain, block) => .arr [.nat chain, .nat block])
  | .str "recent_blocks" :: chain :: limit :: _ =>
    some (return .arr ((← repo.recentBlocks (asNat chain) (asNat limit)).map blockJson))
  | _ => none

end ChainIndexer.Wire
