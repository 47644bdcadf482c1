import ChainIndexer.Entity.Basic
import ChainIndexer.Handler.Error

/-!
# Handler scripts

What a handler does is data: a tree of reads and writes in which each read goes on by its answer.
The same script can be run against a context or asked which entities it reads.
-/

namespace ChainIndexer

/-- The reads and writes of a handler, ending in a value or a failure. -/
inductive Script (α : Type) where
  | done (value : α)
  | fail (error : HandlerError)
  /-- Reads the present fields of an entity, if it exists. -/
  | get (key : EntityKey) (next : Except HandlerError (Option Json) → Script α)
  | change (change : EntityChange) (next : Script α)
  /-- Asks for an address to be indexed as a contract. -/
  | register (contract address : String) (next : Script α)
  /-- Leaves a note, which stays even if the script fails later. -/
  | note (text : Json) (next : Script α)

namespace Script

variable {α β : Type}

def bind : Script α → (α → Script β) → Script β
  | done value, f => f value
  | fail error, _ => .fail error
  | get key next, f => .get key fun answer => (next answer).bind f
  | change c next, f => .change c (next.bind f)
  | register contract address next, f => .register contract address (next.bind f)
  | note text next, f => .note text (next.bind f)

instance : Monad Script where
  pure := done
  bind := bind

def ofExcept : Except HandlerError α → Script α
  | .ok value => .done value
  | .error error => .fail error

/-- Reads a record of a type; fields that are no such record are an error. -/
def tryRead (type : EntityType α) (id : String) : Script (Except HandlerError (Option α)) :=
  .get (type.key id) fun
    | .error error => .done (.error error)
    | .ok none => .done (.ok none)
    | .ok (some fields) =>
      match type.read fields with
      | some record => .done (.ok (some record))
      | none => .done (.error .serialization)

def read (type : EntityType α) (id : String) : Script (Option α) :=
  (tryRead type id).bind ofExcept

def set (type : EntityType α) (record : α) : Script Unit :=
  .change (type.set record) (.done ())

def delete (type : EntityType α) (id : String) : Script Unit :=
  .change (.delete (type.key id)) (.done ())

def registerContract (contract address : String) : Script Unit :=
  .register contract address (.done ())

def leave (text : Json) : Script Unit := .note text (.done ())

end Script

/-- What a handler loads before it runs; each load goes on by its answer. -/
inductive Loader (α : Type) where
  | done (value : α)
  | fail (error : HandlerError)
  | load (key : EntityKey) (next : Except HandlerError (Option Json) → Loader α)

namespace Loader

variable {α β : Type}

def bind : Loader α → (α → Loader β) → Loader β
  | done value, f => f value
  | fail error, _ => .fail error
  | load key next, f => .load key fun answer => (next answer).bind f

instance : Monad Loader where
  pure := done
  bind := bind

def ofExcept : Except HandlerError α → Loader α
  | .ok value => .done value
  | .error error => .fail error

/-- Loads a record of a type; fields that are no such record are an error. -/
def read (type : EntityType α) (id : String) : Loader (Option α) :=
  .load (type.key id) fun
    | .error error => .fail error
    | .ok none => .done none
    | .ok (some fields) =>
      match type.read fields with
      | some record => .done (some record)
      | none => .fail .serialization

end Loader

end ChainIndexer
