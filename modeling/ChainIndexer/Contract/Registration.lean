import ChainIndexer.Block

/-!
# Contract registrations
-/

namespace ChainIndexer

/-- An address that is indexed because a handler asked for it. -/
structure Registration where
  chain : ChainId
  address : String
  contract : String
  /-- Where the registering event stands. -/
  block : Nat
  logIndex : Nat
  timestamp : Nat
  byAddress : String
  byContract : String
  byEvent : String
deriving DecidableEq, Repr, Inhabited

def Registration.position (registration : Registration) : Position :=
  ⟨registration.block, registration.logIndex⟩

/-- An address on one chain. -/
structure ChainAddress where
  chain : ChainId
  address : String
deriving DecidableEq, Repr, Inhabited

namespace ChainAddress

instance : Ord ChainAddress := ⟨compareLex (compareOn chain) (compareOn address)⟩

instance : Std.TransOrd ChainAddress :=
  inferInstanceAs (Std.TransCmp (compareLex (compareOn chain) (compareOn address)))

instance : Std.LawfulEqOrd ChainAddress where
  eq_of_compare {a b} h := by
    obtain ⟨hchain, haddress⟩ := compareLex_eq_eq.1 h
    cases a
    cases b
    exact congr (congrArg _ (Std.LawfulEqOrd.eq_of_compare hchain))
      (Std.LawfulEqOrd.eq_of_compare haddress)

end ChainAddress

def Registration.key (registration : Registration) : ChainAddress :=
  ⟨registration.chain, registration.address⟩

end ChainIndexer
