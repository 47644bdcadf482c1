import ChainIndexer.Number.Double

/-!
# JSON values

Event parameters, entity fields and database rows are JSON. Numbers written without a fraction or
exponent that fit 64 bits are whole; all others are doubles. The members of an object are kept in
ascending key order, so that equal objects are equal values.
-/

namespace ChainIndexer

inductive Json where
  | null
  | bool (value : Bool)
  | int (value : Int)
  | double (value : Double)
  | str (text : String)
  | arr (items : List Json)
  | obj (members : List (String × Json))
deriving Inhabited

namespace Json

mutual

def decEq : (a b : Json) → Decidable (a = b)
  | .null, .null => isTrue rfl
  | .bool a, .bool b => decidable_of_iff (a = b) (by simp)
  | .int a, .int b => decidable_of_iff (a = b) (by simp)
  | .double a, .double b => decidable_of_iff (a = b) (by simp)
  | .str a, .str b => decidable_of_iff (a = b) (by simp)
  | .arr a, .arr b =>
    match decEqItems a b with
    | isTrue h => isTrue (by rw [h])
    | isFalse h => isFalse (by simpa using h)
  | .obj a, .obj b =>
    match decEqMembers a b with
    | isTrue h => isTrue (by rw [h])
    | isFalse h => isFalse (by simpa using h)
  | .null, .bool _ | .null, .int _ | .null, .double _ | .null, .str _ | .null, .arr _
  | .null, .obj _ | .bool _, .null | .bool _, .int _ | .bool _, .double _ | .bool _, .str _
  | .bool _, .arr _ | .bool _, .obj _ | .int _, .null | .int _, .bool _ | .int _, .double _
  | .int _, .str _ | .int _, .arr _ | .int _, .obj _ | .double _, .null | .double _, .bool _
  | .double _, .int _ | .double _, .str _ | .double _, .arr _ | .double _, .obj _
  | .str _, .null | .str _, .bool _ | .str _, .int _ | .str _, .double _ | .str _, .arr _
  | .str _, .obj _ | .arr _, .null | .arr _, .bool _ | .arr _, .int _ | .arr _, .double _
  | .arr _, .str _ | .arr _, .obj _ | .obj _, .null | .obj _, .bool _ | .obj _, .int _
  | .obj _, .double _ | .obj _, .str _ | .obj _, .arr _ => isFalse (by simp)

def decEqItems : (a b : List Json) → Decidable (a = b)
  | [], [] => isTrue rfl
  | [], _ :: _ | _ :: _, [] => isFalse (by simp)
  | a :: as, b :: bs =>
    match decEq a b, decEqItems as bs with
    | isTrue h, isTrue hs => isTrue (by rw [h, hs])
    | isFalse h, _ => isFalse fun hab => h (List.cons.inj hab).1
    | _, isFalse hs => isFalse fun hab => hs (List.cons.inj hab).2

def decEqMembers : (a b : List (String × Json)) → Decidable (a = b)
  | [], [] => isTrue rfl
  | [], _ :: _ | _ :: _, [] => isFalse (by simp)
  | (ka, a) :: as, (kb, b) :: bs =>
    if hk : ka = kb then
      match decEq a b, decEqMembers as bs with
      | isTrue h, isTrue hs => isTrue (by rw [hk, h, hs])
      | isFalse h, _ => isFalse fun hab => h (Prod.mk.inj (List.cons.inj hab).1).2
      | _, isFalse hs => isFalse fun hab => hs (List.cons.inj hab).2
    else
      isFalse fun hab => hk (Prod.mk.inj (List.cons.inj hab).1).1

end

instance : DecidableEq Json := decEq

/-- Puts a member at its place, replacing one under the same key. -/
def insertMember (key : String) (value : Json) : List (String × Json) → List (String × Json)
  | [] => [(key, value)]
  | member :: rest =>
    match compare key member.1 with
    | .lt => (key, value) :: member :: rest
    | .eq => (key, value) :: rest
    | .gt => member :: insertMember key value rest

/-- The object with these members; of several under one key the last counts. -/
def object (members : List (String × Json)) : Json :=
  .obj (members.foldl (fun sorted member => insertMember member.1 member.2 sorted) [])

/-- The member under a key, if this is an object that has it. -/
def get? (value : Json) (key : String) : Option Json :=
  match value with
  | .obj members => members.lookup key
  | _ => none

def nat (n : Nat) : Json := .int n

/-- The text of an optional value, `null` without one. -/
def ofOption {α : Type} (write : α → Json) : Option α → Json
  | some a => write a
  | none => .null

def isNull : Json → Bool
  | .null => true
  | _ => false

def asBool? : Json → Option Bool
  | .bool value => some value
  | _ => none

def asString? : Json → Option String
  | .str text => some text
  | _ => none

def asArray? : Json → Option (List Json)
  | .arr items => some items
  | _ => none

def asObject? : Json → Option (List (String × Json))
  | .obj members => some members
  | _ => none

/-- A whole number from a half-open range. -/
def asInt? (value : Json) (low high : Int) : Option Int :=
  match value with
  | .int n => if low ≤ n ∧ n < high then some n else none
  | _ => none

/-- A whole number from zero up to a bound. -/
def asNat? (value : Json) (bound : Nat) : Option Nat :=
  (value.asInt? 0 bound).map Int.toNat

/-- A whole number of 64 bits without a sign. -/
def asWord? (value : Json) : Option Nat := value.asNat? Word.count

/-- A whole number of 64 bits with a sign. -/
def asSigned? (value : Json) : Option Int := value.asInt? (-Word.half) Word.half

end Json

end ChainIndexer
