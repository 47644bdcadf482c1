import ChainIndexer.Testing.Handlers

/-!
# Handlers told what to do

A handler that runs the steps written in the parameters of its event, and notes the result of each.
-/

namespace ChainIndexer.Testing

/-- One thing for a handler to do. -/
inductive Step where
  /-- Reads a record; an error ends the handler, unless it is to be noted only. -/
  | get (kind id : String) (notesErrors : Bool)
  | set (kind : String) (record : Json)
  | delete (kind id : String)
  /-- Adds to the balance of an account. -/
  | add (id : String) (amount : Nat)
  | register (contract address : String)
  | param (getter name : String)
  | event
  | fail (text : String)

/-- How errors and events are noted. -/
structure NoteForm where
  error : HandlerError → Json
  event : Event → Json

/-- Reads a parameter by the name of a way to read it. -/
def readParam (event : Event) (getter name : String) : Except HandlerError Json :=
  match getter with
  | "value" => event.param name
  | "string" => (event.textParam name).map .str
  | "address" => (event.addressParam name).map .str
  | "bool" => (event.boolParam name).map .bool
  | "u64" => (event.wordParam name).map .nat
  | "i64" => (event.signedParam name).map .int
  | "u128" => (event.wideParam name).map fun n => .str (Decimal.ofNat n)
  | "as_u64" => (event.paramAs name .word).map .nat
  | "as_u8" => (event.paramAs name .byte).map .nat
  | "as_i32" => (event.paramAs name .int32).map .int
  | "as_bool" => (event.paramAs name .bool).map .bool
  | "as_string" => (event.paramAs name .text).map .str
  | "as_option_string" => (event.paramAs name .optionalText).map (.ofOption .str)
  | "as_list_u64" => (event.paramAs name .words).map fun items => .arr (items.map .nat)
  | _ => .ok .null

/-- Finds the sample type of a kind. -/
def typeOf (kind : String) : Script (EntityType Json) :=
  match recordType? kind with
  | some type => .done type
  | none => .fail (.custom ("no record type " ++ kind))

/-- Does a step, with its result. -/
def Step.script (form : NoteForm) (event : Event) : Step → Script Json
  | .get kind id notesErrors => do
    match ← Script.tryRead (← typeOf kind) id with
    | .ok record => return record.getD .null
    | .error error => if notesErrors then return form.error error else Script.fail error
  | .set kind record => do
    let type ← typeOf kind
    match type.read record with
    | some record =>
      Script.set type record
      return .str "set"
    | none => Script.fail .serialization
  | .delete kind id => do
    Script.delete (← typeOf kind) id
    return .str "deleted"
  | .add id amount => do
    let found := (← Script.read account id).getD ⟨id, 0⟩
    let sum := Word.saturatingAdd found.balance amount
    Script.set account ⟨id, sum⟩
    return .nat sum
  | .register contract address => do
    Script.registerContract contract address
    return .str "requested"
  | .param getter name => Script.ofExcept (readParam event getter name)
  | .event => return form.event event
  | .fail text => Script.fail (.custom text)

/-- Reads a step from its JSON form. -/
def Step.ofJson? : Json → Option Step
  | .arr (.str "get" :: .str kind :: .str id :: rest) => some (.get kind id !rest.isEmpty)
  | .arr [.str "set", .str kind, record] => some (.set kind record)
  | .arr [.str "delete", .str kind, .str id] => some (.delete kind id)
  | .arr [.str "add", .str id, amount] => amount.asWord?.map (.add id)
  | .arr [.str "register", .str contract, .str address] => some (.register contract address)
  | .arr [.str "param", .str getter, .str name] => some (.param getter name)
  | .arr [.str "event"] => some .event
  | .arr [.str "fail", .str text] => some (.fail text)
  | _ => none

/-- Does steps in turn and notes the result of each with the event. -/
def runSteps (form : NoteForm) (event : Event) : List Step → Script Unit
  | [] => .done ()
  | step :: rest => do
    let result ← step.script form event
    Script.leave (.arr [.str (eventId event), result])
    runSteps form event rest

/-- The steps of a list of JSON forms. -/
def stepsOf (value : Option Json) : List Step :=
  ((value.bind Json.asArray?).getD []).filterMap Step.ofJson?

/-- Loads each record that a list names by kind and id. -/
def loadListed : List Json → Loader Unit
  | [] => .done ()
  | .arr [.str kind, .str id] :: rest =>
    match recordType? kind with
    | some type => do
      let _ ← Loader.read type id
      loadListed rest
    | none => loadListed rest
  | _ :: rest => loadListed rest

/-- The handler for events of any name that runs the steps in their parameters. -/
def scripted (form : NoteForm) (name : String) : Handler where
  event := name
  load event := do
    loadListed (((event.params.get? "load").bind Json.asArray?).getD [])
    match event.params.get? "load_fail" with
    | some (.str text) => Loader.fail (.custom text)
    | _ => return ()
  handle event := runSteps form event (stepsOf (event.params.get? "steps"))

/-- The handler for an event name: one of the samples, or else one that is told what to do. -/
def handlerFor (form : NoteForm) (name : String) : Handler :=
  let samples := [deposit, poolCreated, swap Word.saturatingAdd, ping]
  (samples.find? (·.event = name)).getD (scripted form name)

end ChainIndexer.Testing
