import ChainIndexer.Block

/-!
# Rollback scopes

What a reorg makes stale. It follows the order in which events were committed: chain by chain, or
in the order over all chains.
-/

namespace ChainIndexer

/-- How events of different chains are committed. -/
inductive Mode where
  /-- Each chain on its own. -/
  | unordered
  /-- In the order of event keys over all chains. -/
  | ordered
deriving DecidableEq, Repr, Inhabited

inductive RollbackScope where
  /-- Everything of one chain above a block. -/
  | chain (chain : ChainId) (safeBlock : Nat)
  /-- Everything after a block in the order by time, chain and block. -/
  | global (chain : ChainId) (safeBlock safeTimestamp : Nat)
deriving DecidableEq, Repr, Inhabited

namespace RollbackScope

def ofReorg (mode : Mode) (reorg : Reorg) : RollbackScope :=
  match mode with
  | .unordered => .chain reorg.chain reorg.safeBlock.number
  | .ordered => .global reorg.chain reorg.safeBlock.number reorg.safeBlock.timestamp

/-- Whether a row of a chain, block and time is stale. -/
def invalidates (scope : RollbackScope) (chain : ChainId) (block timestamp : Nat) : Bool :=
  match scope with
  | .chain reorged safeBlock => chain = reorged ∧ safeBlock < block
  | .global reorged safeBlock safeTimestamp =>
    safeTimestamp < timestamp ∨ safeTimestamp = timestamp ∧
      (reorged < chain ∨ reorged = chain ∧ safeBlock < block)

def invalidatesOrigin (scope : RollbackScope) (origin : Origin) : Bool :=
  scope.invalidates origin.chain origin.block origin.timestamp

def invalidatesEvent (scope : RollbackScope) (event : Event) : Bool :=
  scope.invalidates event.chain event.block event.timestamp

end RollbackScope

end ChainIndexer
