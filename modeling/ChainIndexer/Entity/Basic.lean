import ChainIndexer.Json.Basic

/-!
# Entities

Records that handlers derive from events, kept as JSON under a kind and an id.
-/

namespace ChainIndexer

structure EntityKey where
  kind : String
  id : String
deriving DecidableEq, Repr, Inhabited

namespace EntityKey

instance : Ord EntityKey := ⟨compareLex (compareOn kind) (compareOn id)⟩

instance : Std.TransOrd EntityKey :=
  inferInstanceAs (Std.TransCmp (compareLex (compareOn kind) (compareOn id)))

instance : Std.LawfulEqOrd EntityKey where
  eq_of_compare {a b} h := by
    obtain ⟨hkind, hid⟩ := compareLex_eq_eq.1 h
    cases a
    cases b
    exact congr (congrArg _ (Std.LawfulEqOrd.eq_of_compare hkind))
      (Std.LawfulEqOrd.eq_of_compare hid)

end EntityKey

/-- What happens to one entity: it gets new fields, or it goes. -/
inductive EntityChange where
  | set (key : EntityKey) (fields : Json)
  | delete (key : EntityKey)
deriving DecidableEq, Inhabited

namespace EntityChange

def key : EntityChange → EntityKey
  | .set key _ => key
  | .delete key => key

/-- The fields of the entity after the change. -/
def fields? : EntityChange → Option Json
  | .set _ fields => some fields
  | .delete _ => none

end EntityChange

/-- How values of a type are kept as entities of one kind. -/
structure EntityType (α : Type) where
  kind : String
  id : α → String
  write : α → Json
  read : Json → Option α

namespace EntityType

variable {α : Type}

def key (type : EntityType α) (id : String) : EntityKey := ⟨type.kind, id⟩

def set (type : EntityType α) (record : α) : EntityChange :=
  .set (type.key (type.id record)) (type.write record)

end EntityType

end ChainIndexer
