import ChainIndexer.Block

/-!
# Chain sources

Where blocks and events come from. A source is any state with three calls; each call may change
the state, whether it answers or fails.
-/

namespace ChainIndexer

/-- A call on a state that answers or fails, and leaves a state either way. -/
abbrev Call (σ ε α : Type) := ExceptT ε (StateM σ) α

inductive SourceError where
  /-- The call may succeed when tried again. -/
  | transient (reason : String)
  /-- The data can never be read. -/
  | malformed (reason : String)
deriving DecidableEq, Repr, Inhabited

def SourceError.message : SourceError → String
  | .transient reason => "transient source failure: " ++ reason
  | .malformed reason => "malformed source data: " ++ reason

/-- An address whose events are indexed from a block on. -/
structure WatchedAddress where
  address : String
  contract : String
  startBlock : Nat
deriving DecidableEq, Repr, Inhabited

/-- The answer to a request for a range of blocks. -/
structure EventPage where
  events : List Event
  /-- The first block of the range; its parent hash tells of forks. -/
  firstBlock : Block
  /-- The last block that the answer covers. -/
  lastBlock : Block
  /-- Blocks of the range to remember: those around each event, at least. -/
  blocks : List Block
deriving DecidableEq, Inhabited

/-- A way to ask for the blocks and events of chains. -/
structure ChainSource (τ : Type) where
  head : ChainId → Call τ SourceError Block
  block : ChainId → Nat → Call τ SourceError Block
  /-- The events of some addresses from one block through another. -/
  events : ChainId → Nat → Nat → List WatchedAddress → Call τ SourceError EventPage

end ChainIndexer
