import ChainIndexer.Event.Basic

/-!
# Blocks
-/

namespace ChainIndexer

/-- A block as a source reports it. -/
structure Block where
  number : Nat
  hash : String
  parentHash : String
  timestamp : Nat
deriving DecidableEq, Repr, Inhabited

/-- A block of one chain, remembered so that a fork can be noticed. -/
structure RecordedBlock where
  chain : ChainId
  block : Block
deriving DecidableEq, Repr, Inhabited

/-- A fork was noticed: every block above the safe one is stale. -/
structure Reorg where
  chain : ChainId
  safeBlock : Block
deriving DecidableEq, Repr, Inhabited

/-- A stretch of one chain to index. -/
structure Chain where
  id : ChainId
  startBlock : Nat
  /-- The chain is finished once this block is processed. -/
  endBlock : Option Nat
deriving DecidableEq, Repr, Inhabited

end ChainIndexer
