import ChainIndexer.Pieces

/-!
# Keccak

The digest of 256 bits by which events are known on a chain. The state holds 25 words of 64 bits,
five rows of five; each round mixes columns, turns words, moves them around, mixes rows, and breaks
the symmetry with a constant.
-/

namespace ChainIndexer.Evm.Keccak

/-- The words of a state, the word of column `x` and row `y` at place `x + 5 * y`. -/
abbrev State := Array UInt64

def word (state : State) (x y : Nat) : UInt64 := state.getD (x % 5 + 5 * (y % 5)) 0

/-- The state with the word at each column and row. -/
def ofWords (f : Nat → Nat → UInt64) : State :=
  ((List.range 25).map fun place => f (place % 5) (place / 5)).toArray

def rotate (value : UInt64) (bits : Nat) : UInt64 :=
  if bits = 0 then value
  else value <<< UInt64.ofNat bits ||| value >>> UInt64.ofNat (64 - bits)

def columnParity (state : State) (x : Nat) : UInt64 :=
  word state x 0 ^^^ word state x 1 ^^^ word state x 2 ^^^ word state x 3 ^^^ word state x 4

/-- Adds the parities of two neighbouring columns to each word. -/
def mixColumns (state : State) : State :=
  let parities := ((List.range 5).map (columnParity state)).toArray
  ofWords fun x y =>
    word state x y ^^^ parities.getD ((x + 4) % 5) 0 ^^^ rotate (parities.getD ((x + 1) % 5) 0) 1

/-- By how many bits the word at each place is turned. -/
def turns : Array Nat :=
  #[0, 1, 62, 28, 27, 36, 44, 6, 55, 20, 3, 10, 43, 25, 39, 41, 45, 15, 21, 8, 18, 2, 61, 56, 14]

def turn (state : State) : State :=
  ofWords fun x y => rotate (word state x y) (turns.getD (x + 5 * y) 0)

/-- Moves the word of column `x` and row `y` to column `y` and row `2 * x + 3 * y`. -/
def move (state : State) : State :=
  ofWords fun x y => word state (x + 3 * y) x

/-- Mixes each word with the next two of its row. -/
def mixRows (state : State) : State :=
  ofWords fun x y => word state x y ^^^ (~~~ (word state (x + 1) y) &&& word state (x + 2) y)

def roundConstants : List UInt64 :=
  [0x0000000000000001, 0x0000000000008082, 0x800000000000808a, 0x8000000080008000,
    0x000000000000808b, 0x0000000080000001, 0x8000000080008081, 0x8000000000008009,
    0x000000000000008a, 0x0000000000000088, 0x0000000080008009, 0x000000008000000a,
    0x000000008000808b, 0x800000000000008b, 0x8000000000008089, 0x8000000000008003,
    0x8000000000008002, 0x8000000000000080, 0x000000000000800a, 0x800000008000000a,
    0x8000000080008081, 0x8000000000008080, 0x0000000080000001, 0x8000000080008008]

def round (state : State) (constant : UInt64) : State :=
  let mixed := mixRows (move (turn (mixColumns state)))
  mixed.set! 0 (word mixed 0 0 ^^^ constant)

def permute (state : State) : State := roundConstants.foldl round state

/-- The bytes that are taken in between two permutations. -/
def rate : Nat := 136

/-- A message with its end marked, filled up to whole blocks. -/
def pad (message : List UInt8) : List UInt8 :=
  let missing := rate - message.length % rate
  if missing = 1 then message ++ [0x81]
  else message ++ [0x01] ++ List.replicate (missing - 2) 0 ++ [0x80]

/-- A word of bytes, the lowest byte first. -/
def wordOfBytes (bytes : List UInt8) : UInt64 :=
  bytes.foldr (fun byte value => value <<< 8 ||| byte.toUInt64) 0

def bytesOfWord (value : UInt64) : List UInt8 :=
  (List.range 8).map fun place => (value >>> UInt64.ofNat (8 * place)).toUInt8

/-- Takes a block into the state. -/
def absorb (state : State) (block : List UInt8) : State :=
  let words := ((pieces 7 block).map wordOfBytes).toArray
  permute (ofWords fun x y => word state x y ^^^ words.getD (x + 5 * y) 0)

/-- The digest of a message, in 32 bytes. -/
def digest (message : List UInt8) : List UInt8 :=
  let state := (pieces (rate - 1) (pad message)).foldl absorb (Array.replicate 25 0)
  (state.toList.take 4).flatMap bytesOfWord

end ChainIndexer.Evm.Keccak
