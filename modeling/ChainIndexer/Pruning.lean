import ChainIndexer.Block
import ChainIndexer.Number.Word
import ChainIndexer.Table

/-!
# Pruning

Old rows are dropped from time to time, chain by chain.
-/

namespace ChainIndexer

structure PruningConfig where
  /-- How many blocks below the processed one keep their rows. -/
  keptBlocks : Nat
  /-- Seconds between two prunes of a chain. -/
  interval : Nat
deriving DecidableEq, Repr

namespace PruningConfig

instance : Inhabited PruningConfig := ⟨30 * 1000, 30 * 24 * 60 * 60⟩

/-- The lowest block that keeps its rows. -/
def minBlock (config : PruningConfig) (processed : Nat) : Nat := processed - config.keptBlocks

end PruningConfig

/-- When each chain was last pruned, in seconds. -/
structure PruningSchedule where
  lastPruned : Table ChainId Int
deriving DecidableEq, Inhabited

namespace PruningSchedule

def isDue (schedule : PruningSchedule) (config : PruningConfig) (chain : ChainId) (now : Int) :
    Bool :=
  match schedule.lastPruned.get? chain with
  | some last => Word.toSigned config.interval ≤ now - last
  | none => true

def markPruned (schedule : PruningSchedule) (chain : ChainId) (now : Int) : PruningSchedule :=
  ⟨schedule.lastPruned.insert chain now⟩

end PruningSchedule

end ChainIndexer
