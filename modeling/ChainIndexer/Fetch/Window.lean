import ChainIndexer.Block
import ChainIndexer.Table

/-!
# Block windows

The highest blocks that a fetcher has seen, kept to notice a fork and to find where it starts.
-/

namespace ChainIndexer

structure BlockWindow where
  capacity : Nat
  blocks : Table Nat Block
deriving DecidableEq, Inhabited

namespace BlockWindow

def get? (window : BlockWindow) (number : Nat) : Option Block := window.blocks.get? number

/-- Adds a block; the lowest ones go once there are too many. -/
def record (window : BlockWindow) (block : Block) : BlockWindow :=
  let blocks := window.blocks.insert block.number block
  { window with blocks := blocks.drop (blocks.entries.length - window.capacity) }

def recordAll (window : BlockWindow) (blocks : List Block) : BlockWindow :=
  blocks.foldl record window

/-- A window that holds at least one block. -/
def start (capacity : Nat) (blocks : List Block) : BlockWindow :=
  recordAll ⟨max capacity 1, .empty⟩ blocks

def truncateAbove (window : BlockWindow) (number : Nat) : BlockWindow :=
  { window with blocks := window.blocks.filter fun other _ => other ≤ number }

/-- The blocks, highest first. -/
def descending (window : BlockWindow) : List Block := window.blocks.values.reverse

def lowest? (window : BlockWindow) : Option Nat := window.blocks.keys.head?

end BlockWindow

end ChainIndexer
