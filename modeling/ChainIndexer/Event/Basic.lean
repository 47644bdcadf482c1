import ChainIndexer.Json.Basic
import ChainIndexer.Text.Lowercase

/-!
# Events

A decoded contract event, its position on its own chain, and its place in the order over all chains.
-/

namespace ChainIndexer

/-- The number of a network; zero names no chain. -/
abbrev ChainId := Nat

/-- A place on one chain, ordered by block and then by log. -/
structure Position where
  block : Nat
  logIndex : Nat
deriving DecidableEq, Repr, Inhabited

namespace Position

instance : LT Position :=
  ⟨fun a b => a.block < b.block ∨ a.block = b.block ∧ a.logIndex < b.logIndex⟩

instance : LE Position := ⟨fun a b => ¬ b < a⟩

theorem lt_iff {a b : Position} :
    a < b ↔ a.block < b.block ∨ a.block = b.block ∧ a.logIndex < b.logIndex := Iff.rfl

theorem le_iff {a b : Position} : a ≤ b ↔ ¬ b < a := Iff.rfl

instance : DecidableLT Position := fun a b =>
  inferInstanceAs (Decidable (a.block < b.block ∨ a.block = b.block ∧ a.logIndex < b.logIndex))

instance : DecidableLE Position := fun a b => inferInstanceAs (Decidable (¬ b < a))

instance : Max Position := ⟨fun a b => if a < b then b else a⟩

end Position

/-- A place in the order over all chains: by time, then chain, block and log. -/
structure EventKey where
  timestamp : Nat
  chain : ChainId
  block : Nat
  logIndex : Nat
deriving DecidableEq, Repr, Inhabited

namespace EventKey

instance : LT EventKey :=
  ⟨fun a b => a.timestamp < b.timestamp ∨ a.timestamp = b.timestamp ∧
    (a.chain < b.chain ∨ a.chain = b.chain ∧
      (a.block < b.block ∨ a.block = b.block ∧ a.logIndex < b.logIndex))⟩

instance : LE EventKey := ⟨fun a b => ¬ b < a⟩

theorem lt_iff {a b : EventKey} :
    a < b ↔ a.timestamp < b.timestamp ∨ a.timestamp = b.timestamp ∧
      (a.chain < b.chain ∨ a.chain = b.chain ∧
        (a.block < b.block ∨ a.block = b.block ∧ a.logIndex < b.logIndex)) := Iff.rfl

theorem le_iff {a b : EventKey} : a ≤ b ↔ ¬ b < a := Iff.rfl

instance : DecidableLT EventKey := fun a b =>
  inferInstanceAs (Decidable (a.timestamp < b.timestamp ∨ a.timestamp = b.timestamp ∧
    (a.chain < b.chain ∨ a.chain = b.chain ∧
      (a.block < b.block ∨ a.block = b.block ∧ a.logIndex < b.logIndex))))

instance : DecidableLE EventKey := fun a b => inferInstanceAs (Decidable (¬ b < a))

end EventKey

/-- The event that a history record came from. -/
structure Origin where
  chain : ChainId
  block : Nat
  timestamp : Nat
  logIndex : Nat
deriving DecidableEq, Repr, Inhabited

namespace Origin

/-- What the first history record of an entity refers back to. -/
def genesis : Origin := ⟨0, 0, 0, 0⟩

def isGenesis (origin : Origin) : Bool := origin.chain = 0

def text (origin : Origin) : String :=
  "(" ++ toString origin.chain ++ ", " ++ toString origin.block ++ ", "
    ++ toString origin.timestamp ++ ", " ++ toString origin.logIndex ++ ")"

end Origin

/-- A contract event as its source decoded it. -/
structure Event where
  chain : ChainId
  address : String
  contract : String
  name : String
  params : Json
  blockHash : String
  block : Nat
  timestamp : Nat
  transactionHash : String
  transactionIndex : Nat
  logIndex : Nat
deriving DecidableEq, Inhabited

namespace Event

def position (event : Event) : Position := ⟨event.block, event.logIndex⟩

def key (event : Event) : EventKey :=
  ⟨event.timestamp, event.chain, event.block, event.logIndex⟩

def origin (event : Event) : Origin :=
  ⟨event.chain, event.block, event.timestamp, event.logIndex⟩

/-- Whether the event was emitted by an address, whatever the case of its letters. -/
def isFrom (event : Event) (address : String) : Bool :=
  Text.sameIgnoringAsciiCase event.address address

/-- Sorts events by position; those at one position keep their order. -/
def sortByPosition (events : List Event) : List Event :=
  events.mergeSort fun a b => decide (a.position ≤ b.position)

/-- Sorts events by key; those with one key keep their order. -/
def sortByKey (events : List Event) : List Event :=
  events.mergeSort fun a b => decide (a.key ≤ b.key)

end Event

end ChainIndexer
