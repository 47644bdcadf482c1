import ChainIndexer.Repo.Store
import ChainIndexer.Testing.Records
import ChainIndexer.Wire.Encode

/-!
# Showing a store

The tables of a store in their JSON forms, each by its name.
-/

namespace ChainIndexer.Wire

def shownKinds : List String := ["Account", "Balance", "Journal", "Pool", "note"]

/-- Records by chain, block and log of their events, and then by entity. -/
def leRecord (a b : HistoryRecord) : Bool :=
  ((compare a.origin.chain b.origin.chain).then <|
    (compare a.origin.block b.origin.block).then <|
      (compare a.origin.logIndex b.origin.logIndex).then (compare a.key b.key)).isLE

/-- Events by chain and position. -/
def leEvent (a b : Event) : Bool :=
  if a.chain = b.chain then decide (a.position ≤ b.position) else a.chain < b.chain

/-- A checkpoint, with or without the number of its batches. -/
def shownCheckpointJson (hideBatches : Bool) (checkpoint : Checkpoint) : Json :=
  obj (checkpointMembers checkpoint ++ if hideBatches then [("batches", .null)] else [])

def tableJson (store : Store) (chainIds : List Nat) (hideBatches : Bool) : String → Json
  | "entities" =>
    .arr (shownKinds.flatMap fun kind =>
      (store.entitiesOf kind).map fun (id, fields) => .arr [.str kind, .str id, fields])
  | "history" => .arr (store.history.map recordJson)
  | "history_sorted" =>
    .arr ((store.history.mergeSort leRecord).map fun record =>
      .arr (.null :: historyFields record.toHistoryEntry))
  | "raw_events" => .arr (store.rawEvents.map eventIdJson)
  | "raw_events_full" => .arr (store.rawEvents.map eventJson)
  | "raw_events_sorted" => .arr ((store.rawEvents.mergeSort leEvent).map eventIdJson)
  | "registrations" => .arr (store.registrations.values.map registrationJson)
  | "checkpoints" => .arr (store.checkpoints.values.map (shownCheckpointJson hideBatches))
  | "blocks" =>
    .arr (chainIds.flatMap fun chain =>
      (store.blocksOf chain).map fun block => recordedJson ⟨chain, block⟩)
  | _ => .null

def stateJson (store : Store) (shown : List String) (chainIds : List Nat) (hideBatches : Bool) :
    Json :=
  obj (shown.map fun table => (table, tableJson store chainIds hideBatches table))

end ChainIndexer.Wire
