import ChainIndexer.Repo.Basic

/-!
# The store

All tables of an indexer held in memory, and what each operation does to them.
-/

namespace ChainIndexer

/-- A block number on one chain. -/
structure BlockKey where
  chain : ChainId
  number : Nat
deriving DecidableEq, Repr, Inhabited

namespace BlockKey

instance : Ord BlockKey := ⟨compareLex (compareOn chain) (compareOn number)⟩

instance : Std.TransOrd BlockKey :=
  inferInstanceAs (Std.TransCmp (compareLex (compareOn chain) (compareOn number)))

instance : Std.LawfulEqOrd BlockKey where
  eq_of_compare {a b} h := by
    obtain ⟨hchain, hnumber⟩ := compareLex_eq_eq.1 h
    cases a
    cases b
    exact congr (congrArg _ (Std.LawfulEqOrd.eq_of_compare hchain))
      (Std.LawfulEqOrd.eq_of_compare hnumber)

end BlockKey

structure Store where
  entities : Table EntityKey Json
  /-- In the order of serials. -/
  history : List HistoryRecord
  lastSerial : Nat
  rawEvents : List Event
  registrations : Table ChainAddress Registration
  checkpoints : Table ChainId Checkpoint
  blocks : Table BlockKey Block
  resetCount : Nat
deriving DecidableEq, Inhabited

namespace Store

def empty : Store := ⟨.empty, [], 0, [], .empty, .empty, .empty, 0⟩

def applyChange (entities : Table EntityKey Json) : EntityChange → Table EntityKey Json
  | .set key fields => entities.insert key fields
  | .delete key => entities.erase key

def applyChanges (entities : Table EntityKey Json) (changes : List EntityChange) :
    Table EntityKey Json :=
  changes.foldl applyChange entities

def putCheckpoints (table : Table ChainId Checkpoint) (checkpoints : List Checkpoint) :
    Table ChainId Checkpoint :=
  table.insertAll (checkpoints.map fun checkpoint => (checkpoint.chain, checkpoint))

/-- The first entry that comes from the same event as an earlier record of its entity. -/
def firstConflict (taken : List (EntityKey × Origin)) : List HistoryEntry → Option HistoryEntry
  | [] => none
  | entry :: rest =>
    if (entry.key, entry.origin) ∈ taken then some entry
    else firstConflict ((entry.key, entry.origin) :: taken) rest

/-- Gives entries the serials after a last one. -/
def number (lastSerial : Nat) : List HistoryEntry → List HistoryRecord
  | [] => []
  | entry :: rest =>
    { toHistoryEntry := entry, serial := lastSerial + 1 } :: number (lastSerial + 1) rest

/-- The store with all parts of a unit written. -/
def write (store : Store) (unit : WriteUnit) : Store :=
  { store with
    entities := applyChanges store.entities unit.changes
    history := store.history ++ number store.lastSerial unit.history
    lastSerial := store.lastSerial + unit.history.length
    rawEvents := store.rawEvents ++ unit.rawEvents
    registrations := unit.registrations.foldl
      (fun table registration => table.insertNew registration.key registration)
      store.registrations
    checkpoints := putCheckpoints store.checkpoints unit.checkpoints
    blocks := store.blocks.insertAll
      (unit.blocks.map fun recorded => (⟨recorded.chain, recorded.block.number⟩, recorded.block)) }

/-- Writes a unit, unless two history records of one entity would come from one event. -/
def commit (store : Store) (unit : WriteUnit) : Except RepoError Store :=
  let taken := store.history.map fun record => (record.key, record.origin)
  match firstConflict taken unit.history with
  | some entry => .error (.conflict (.duplicateRecord entry.key entry.origin))
  | none => .ok (store.write unit)

/-- Drops everything but the count of resets. -/
def reset (store : Store) : Store := { empty with resetCount := store.resetCount }

def blocksOf (store : Store) (chain : ChainId) : List Block :=
  (store.blocks.entries.filter (·.1.chain = chain)).map (·.2)

def recentBlocks (store : Store) (chain : ChainId) (limit : Nat) : List Block :=
  (store.blocksOf chain).reverse.take limit

/-- The last history record of an entity. -/
def latestRecord? (store : Store) (key : EntityKey) : Option HistoryRecord :=
  store.history.reverse.find? (·.key = key)

def latestOrigins (store : Store) (keys : List EntityKey) : Table EntityKey Origin :=
  .ofList (keys.filterMap fun key =>
    (store.latestRecord? key).map fun record => (key, record.origin))

def historyIn (store : Store) (scope : RollbackScope) : List HistoryRecord :=
  store.history.filter fun record => scope.invalidatesOrigin record.origin

def recordAt (store : Store) (key : EntityKey) (origin : Origin) : Option HistoryRecord :=
  store.history.reverse.find? fun record => record.origin = origin ∧ record.key = key

/-- Notes the block of an event if its chain has no lower one yet. -/
def noteLowest (table : Table ChainId Nat) (event : Event) : Table ChainId Nat :=
  match table.get? event.chain with
  | some block => table.insert event.chain (min block event.block)
  | none => table.insert event.chain event.block

def firstInvalidatedBlocks (store : Store) (scope : RollbackScope) : Table ChainId Nat :=
  (store.rawEvents.filter scope.invalidatesEvent).foldl noteLowest .empty

/-- Drops the recorded blocks above the target of a rewind. -/
def dropRewound (blocks : Table BlockKey Block) (rewind : Rewind) : Table BlockKey Block :=
  blocks.filter fun key _ => key.chain ≠ rewind.chain ∨ rewind.block.any (key.number ≤ ·)

def applyRollback (store : Store) (plan : RollbackPlan) : Store :=
  { store with
    history := store.history.filter fun record => !plan.scope.invalidatesOrigin record.origin
    rawEvents := store.rawEvents.filter fun event => !plan.scope.invalidatesEvent event
    registrations := store.registrations.filter fun _ registration =>
      !plan.scope.invalidates registration.chain registration.block registration.timestamp
    entities := applyChanges store.entities plan.restores
    checkpoints := putCheckpoints store.checkpoints plan.checkpoints
    blocks := plan.rewinds.foldl dropRewound store.blocks }

/-- Whether a record comes from a chain below a block. -/
def isPrunable (chain : ChainId) (minBlock : Nat) (record : HistoryRecord) : Bool :=
  record.origin.chain = chain ∧ record.origin.block < minBlock

/-- Of the prunable records of an entity the last one stays, as later ones refer back to it. -/
def prune (store : Store) (chain : ChainId) (minBlock : Nat) : Store :=
  let prunable := (store.history.filter (isPrunable chain minBlock)).reverse
  { store with
    history := store.history.filter fun record =>
      !isPrunable chain minBlock record
        || (prunable.find? (·.key = record.key)).any (·.serial = record.serial)
    rawEvents := store.rawEvents.filter fun event => event.chain ≠ chain ∨ minBlock ≤ event.block
    blocks := store.blocks.filter fun key _ => key.chain ≠ chain ∨ minBlock ≤ key.number }

/-- The entities of one kind, by id. -/
def entitiesOf (store : Store) (kind : String) : List (String × Json) :=
  (store.entities.entries.filter (·.1.kind = kind)).map fun entry => (entry.1.id, entry.2)

end Store

/-- A call that answers and leaves the state alone. -/
def Call.answer {σ ε α : Type} (f : σ → α) : Call σ ε α := fun state => (.ok (f state), state)

/-- A call that changes the state. -/
def Call.update {σ ε : Type} (f : σ → σ) : Call σ ε Unit := fun state => (.ok (), f state)

/-- The calls on a store in memory. -/
def Repo.inMemory : Repo Store where
  migrate := .update id
  reset := .update Store.reset
  resetCount := .answer (·.resetCount)
  countReset := .update fun store => { store with resetCount := store.resetCount + 1 }
  commit unit := fun store =>
    match store.commit unit with
    | .ok written => (.ok (), written)
    | .error error => (.error error, store)
  entity key := .answer (·.entities.get? key)
  checkpoints := .answer (·.checkpoints.values)
  registrations := .answer (·.registrations.values)
  recentBlocks chain limit := .answer (·.recentBlocks chain limit)
  latestOrigins keys := .answer (·.latestOrigins keys)
  historyIn scope := .answer (·.historyIn scope)
  recordAt key origin := .answer (·.recordAt key origin)
  firstInvalidatedBlocks scope := .answer (·.firstInvalidatedBlocks scope)
  applyRollback plan := .update (·.applyRollback plan)
  prune chain minBlock := .update (·.prune chain minBlock)

end ChainIndexer
