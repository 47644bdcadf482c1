import ChainIndexer.Json.Basic

/-!
# Records in JSON

A record is an object of its fields, or an array of them in order. An object may hold other members
as well; an array has just as many items as the record has fields.
-/

namespace ChainIndexer.Json

/-- The fields of a record by name, each if it is there. -/
def recordFields? (names : List String) : Json → Option (List (Option Json))
  | .obj members => some (names.map fun name => members.lookup name)
  | .arr items => if items.length = names.length then some (items.map some) else none
  | _ => none

/-- A field that has to be there. -/
def required? {α : Type} (read : Json → Option α) : Option Json → Option α
  | some value => read value
  | none => none

/-- A field that may be missing or null. -/
def optional? {α : Type} (read : Json → Option α) : Option Json → Option (Option α)
  | none => some none
  | some .null => some none
  | some value => (read value).map some

end ChainIndexer.Json
