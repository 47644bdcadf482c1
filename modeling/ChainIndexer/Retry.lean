import ChainIndexer.Number.Word

/-!
# Retries

A failed operation is tried again a limited number of times, with pauses that double up to a limit.
-/

namespace ChainIndexer

/-- The longest pause, in milliseconds. -/
def maxBackoff : Nat := 30000

/-- `2 ^ exponent`, or the largest word if that is too large. -/
def doubling (exponent : Nat) : Nat := if exponent < 64 then Nat.pow 2 exponent else Word.max

/-- The pause before the retry after some retries, in milliseconds. -/
def backoff (base retries : Nat) : Nat :=
  min (Word.saturatingMul base (doubling retries)) maxBackoff

/-- How one attempt ended. -/
inductive Attempt (ε α : Type) where
  | done (value : α)
  /-- Trying again is of no use. -/
  | fatal (error : ε)
  | failed (error : ε)

/-- How a series of attempts ended. -/
inductive Outcome (ε α : Type) where
  | done (value : α)
  | fatal (error : ε)
  /-- The last of some attempts failed, too. -/
  | exhausted (attempts : Nat) (error : ε)

/-- An attempt in a series that may also break off, without an error to tell. -/
def Attempt.unbroken {ε α : Type} : Attempt ε α → Attempt (Option ε) α
  | .done value => .done value
  | .fatal error => .fatal (some error)
  | .failed error => .failed (some error)

/-- How a series of attempts ended, unless it broke off. -/
def Outcome.ended? {ε α : Type} : Outcome (Option ε) α → Option (Outcome ε α)
  | .done value => some (.done value)
  | .fatal error => error.map .fatal
  | .exhausted attempts error => error.map (.exhausted attempts)

structure RetryPolicy where
  limit : Nat
  base : Nat
deriving DecidableEq, Repr, Inhabited

namespace RetryPolicy

variable {σ ε α : Type}

/-- Makes attempts on a state; `recover` changes it before each retry, given the pause. -/
def runFrom (policy : RetryPolicy) (attempt : σ → Attempt ε α × σ) (recover : Nat → σ → σ) :
    (left retries : Nat) → σ → Outcome ε α × σ
  | left, retries, state =>
    match attempt state with
    | (.done value, state) => (.done value, state)
    | (.fatal error, state) => (.fatal error, state)
    | (.failed error, state) =>
      match left with
      | 0 => (.exhausted (retries + 1) error, state)
      | left + 1 =>
        policy.runFrom attempt recover left (retries + 1)
          (recover (backoff policy.base retries) state)

def run (policy : RetryPolicy) (attempt : σ → Attempt ε α × σ) (recover : Nat → σ → σ) (state : σ) :
    Outcome ε α × σ :=
  policy.runFrom attempt recover policy.limit 0 state

end RetryPolicy

end ChainIndexer
