import ChainIndexer.Event.Basic
import ChainIndexer.Handler.Error
import ChainIndexer.Json.Printer

/-!
# Event parameters

Typed reading of the parameters of an event. Whole numbers may be JSON numbers or decimal text, as
a source writes numbers of more than 64 bits as text.
-/

namespace ChainIndexer

/-- A type that a parameter can be asked for as, with the name that errors give it. -/
structure ParamType (α : Type) where
  name : String
  read : Json → Option α

namespace ParamType

def word : ParamType Nat := ⟨"u64", Json.asWord?⟩

def byte : ParamType Nat := ⟨"u8", fun value => value.asNat? 0x100⟩

def int32 : ParamType Int := ⟨"i32", fun value => value.asInt? (-0x80000000) 0x80000000⟩

def bool : ParamType Bool := ⟨"bool", Json.asBool?⟩

def text : ParamType String := ⟨"alloc::string::String", Json.asString?⟩

def optionalText : ParamType (Option String) where
  name := "core::option::Option<alloc::string::String>"
  read
    | .null => some none
    | value => value.asString?.map some

def words : ParamType (List Nat) where
  name := "alloc::vec::Vec<u64>"
  read value := value.asArray?.bind fun items => items.mapM Json.asWord?

end ParamType

namespace Event

def invalidParam (event : Event) (name expected : String) : HandlerError :=
  .invalidParam event.name name expected

def param (event : Event) (name : String) : Except HandlerError Json :=
  match event.params.get? name with
  | some value => .ok value
  | none => .error (.missingParam event.name name)

/-- Reads a parameter by a rule of its own. -/
def paramBy {α : Type} (event : Event) (name expected : String) (read : Json → Option α) :
    Except HandlerError α :=
  match event.param name with
  | .ok value =>
    match read value with
    | some result => .ok result
    | none => .error (event.invalidParam name expected)
  | .error error => .error error

def paramAs {α : Type} (event : Event) (name : String) (type : ParamType α) :
    Except HandlerError α :=
  event.paramBy name type.name type.read

/-- The text of a parameter; one that is no string gives its JSON text. -/
def textParam (event : Event) (name : String) : Except HandlerError String :=
  (event.param name).map fun
    | .str text => text
    | value => value.render

def addressParam (event : Event) (name : String) : Except HandlerError String :=
  event.paramBy name "address" fun value => value.asString?.map Text.lowercase

def boolParam (event : Event) (name : String) : Except HandlerError Bool :=
  event.paramBy name "bool" Json.asBool?

def wordParam (event : Event) (name : String) : Except HandlerError Nat :=
  event.paramBy name "u64" fun
    | .str text => Decimal.nat? text Word.count
    | value => value.asWord?

def signedParam (event : Event) (name : String) : Except HandlerError Int :=
  event.paramBy name "i64" fun
    | .str text => Decimal.int? text (-Word.half) Word.half
    | value => value.asSigned?

/-- A whole number of 128 bits; as a JSON number it has at most 64. -/
def wideParam (event : Event) (name : String) : Except HandlerError Nat :=
  event.paramBy name "u128" fun
    | .str text => Decimal.nat? text (Word.count * Word.count)
    | value => value.asWord?

end Event

end ChainIndexer
