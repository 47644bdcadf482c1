import ChainIndexer.Evm.Node
import ChainIndexer.Table

/-!
# Scripted nodes

A node that gives prepared answers, and remembers the filters it was sent.
-/

namespace ChainIndexer.Testing

open Evm

/-- A log with the blocks it is found in. -/
structure ScriptedLog where
  log : Log
  /-- Whether the log is found whatever is asked for. -/
  isAlways : Bool
deriving Inhabited

structure ScriptedNode where
  head : Nat
  /-- The answers for blocks: an error, or the block if there is one. -/
  blocks : Table Nat (Except String NodeBlock)
  logs : List ScriptedLog
  /-- The errors that all calls of a method give. -/
  errors : List (String × String)
  /-- The filters that were sent, the last one first. -/
  filters : List LogFilter

namespace ScriptedNode

variable {α : Type}

/-- Answers a call of a method, unless all of them fail. -/
def answer (method : String) (value : ScriptedNode → Except String α) :
    Call ScriptedNode String α :=
  fun node =>
    match node.errors.lookup method with
    | some error => (.error error, node)
    | none => (value node, node)

/-- Whether a log passes a filter; one without a block is in every range. -/
def passes (filter : LogFilter) (scripted : ScriptedLog) : Bool :=
  let log := scripted.log
  scripted.isAlways ||
    (log.address = filter.address && log.topics.head?.any (filter.topics.contains ·)
      && log.blockNumber.all fun number => filter.fromBlock ≤ number ∧ number ≤ filter.toBlock)

/-- The logs that pass a filter; the filter is remembered, also when the call fails. -/
def findLogs (filter : LogFilter) : Call ScriptedNode String (List Log) := fun node =>
  answer "eth_getLogs"
    (fun node => .ok ((node.logs.filter (passes filter)).map (·.log)))
    { node with filters := filter :: node.filters }

/-- The calls on a scripted node. -/
def node : Node ScriptedNode where
  head := answer "eth_blockNumber" fun node => .ok node.head
  block number := answer "eth_getBlockByNumber" fun node =>
    match node.blocks.get? number with
    | none => .ok none
    | some (.ok block) => .ok (some block)
    | some (.error error) => .error error
  logs := findLogs

end ScriptedNode

end ChainIndexer.Testing
