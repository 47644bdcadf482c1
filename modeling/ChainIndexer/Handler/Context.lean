import ChainIndexer.Handler.Script
import ChainIndexer.Event.Basic
import ChainIndexer.Table

/-!
# Handler contexts

What a handler sees and what it has done so far. A read finds the handler's own change, else the
change of an earlier event of the unit, else the loaded value; what none of these holds was not
loaded.
-/

namespace ChainIndexer

/-- The stored fields of entities, or that there are none. -/
abbrev LoadedEntities := Table EntityKey (Option Json)

/-- The last change of each entity within a unit. -/
abbrev Overlay := Table EntityKey EntityChange

/-- An address that a handler asked for. -/
structure RegistrationRequest where
  contract : String
  address : String
deriving DecidableEq, Repr, Inhabited

structure HandlerContext where
  event : Event
  loaded : LoadedEntities
  overlay : Overlay
  /-- At most one change for an entity, in the order of the first ones. -/
  changes : List EntityChange
  requests : List RegistrationRequest
  notes : List Json
deriving Inhabited

/-- Puts a change in the place of an earlier one of its entity, or else at the end. -/
def putChange (change : EntityChange) : List EntityChange → List EntityChange
  | [] => [change]
  | first :: rest =>
    if first.key = change.key then change :: rest else first :: putChange change rest

namespace HandlerContext

def start (event : Event) (loaded : LoadedEntities) (overlay : Overlay) : HandlerContext :=
  ⟨event, loaded, overlay, [], [], []⟩

def get (context : HandlerContext) (key : EntityKey) : Except HandlerError (Option Json) :=
  match context.changes.find? (·.key = key) with
  | some change => .ok change.fields?
  | none =>
    match context.overlay.get? key with
    | some change => .ok change.fields?
    | none =>
      match context.loaded.get? key with
      | some fields => .ok fields
      | none => .error (.notLoaded key)

def put (context : HandlerContext) (change : EntityChange) : HandlerContext :=
  { context with changes := putChange change context.changes }

/-- Asks for an address, once. -/
def request (context : HandlerContext) (contract address : String) : HandlerContext :=
  let request : RegistrationRequest := ⟨contract, Text.lowercase address⟩
  if request ∈ context.requests then context
  else { context with requests := context.requests ++ [request] }

def leave (context : HandlerContext) (text : Json) : HandlerContext :=
  { context with notes := context.notes ++ [text] }

end HandlerContext

/-- Runs a script on a context. What it did before a failure stays in the context. -/
def Script.run {α : Type} : Script α → HandlerContext → Except HandlerError α × HandlerContext
  | .done value, context => (.ok value, context)
  | .fail error, context => (.error error, context)
  | .get key next, context => (next (context.get key)).run context
  | .change c next, context => next.run (context.put c)
  | .register contract address next, context => next.run (context.request contract address)
  | .note text next, context => next.run (context.leave text)

end ChainIndexer
