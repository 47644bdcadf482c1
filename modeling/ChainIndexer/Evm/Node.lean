import ChainIndexer.Evm.Word
import ChainIndexer.Source.Basic

/-!
# Chain nodes

What a node of a chain answers: its head, blocks, and the logs that pass a filter.
-/

namespace ChainIndexer.Evm

/-- A block; pending ones have no number or hash yet. -/
structure NodeBlock where
  number : Option Nat
  hash : Option Hash
  parentHash : Hash
  timestamp : Nat
deriving DecidableEq, Repr, Inhabited

/-- A log; pending ones do not know their place yet. -/
structure Log where
  address : Address
  topics : List Hash
  data : List UInt8
  blockHash : Option Hash
  blockNumber : Option Nat
  transactionHash : Option Hash
  transactionIndex : Option Nat
  logIndex : Option Nat
  /-- Whether a fork took the log back. -/
  isRemoved : Bool
deriving DecidableEq, Repr, Inhabited

/-- Asks for the logs of an address with one of some first topics, in a range of blocks. -/
structure LogFilter where
  address : Address
  topics : List Hash
  fromBlock : Nat
  toBlock : Nat
deriving DecidableEq, Repr, Inhabited

/-- The calls on a node; a call that fails says why. -/
structure Node (σ : Type) where
  head : Call σ String Nat
  block : Nat → Call σ String (Option NodeBlock)
  logs : LogFilter → Call σ String (List Log)

end ChainIndexer.Evm
