import ChainIndexer.Testing.ScriptedChain
import ChainIndexer.Testing.Steps
import ChainIndexer.Wire.Decode
import ChainIndexer.Wire.Encode

/-!
# Reading scripts

The JSON forms of contracts with sample handlers, and of scripted chains.
-/

namespace ChainIndexer.Wire

open Testing

def noteForm : NoteForm := ⟨handlerErrorJson, eventJson⟩

def contract (value : Json) : Contract :=
  let addressed := (list value "addresses").foldl
    (fun contract address =>
      match asList address with
      | address :: chain :: rest =>
        contract.addAddress (asStr address) (asNat chain) (rest.head?.elim 0 asNat)
      | _ => contract)
    (Contract.named (strOr value "name" ""))
  (list value "handlers").foldl
    (fun contract name => contract.addHandler (handlerFor noteForm (asStr name))) addressed

def contracts (value : Json) : List Contract := (list value "contracts").map contract

/-- The edit that a member of a change stands for, if the change has it. -/
def editFor (value : Json) (name : String) (edit : Json → ChainEdit) : List ChainEdit :=
  ((field? value name).map edit).toList

/-- The edits of a change, in the order in which they are made; fuel bounds how deep changes are
nested in triggers. -/
def chainEdits (chain : ChainId) : (fuel : Nat) → Json → List ChainEdit
  | 0, _ => []
  | fuel + 1, value =>
    let events (value : Json) : List Event := (asList value).map event
    let blocks (value : Json) : List Block := (asList value).map (block chain)
    editFor value "reorg_from" (.fork ∘ asNat)
      ++ editFor value "head" (.head ∘ asNat)
      ++ editFor value "events" (.addEvents ∘ events)
      ++ editFor value "stray_events" (.strayEvents ∘ events)
      ++ editFor value "stray_blocks" (.strayBlocks ∘ blocks)
      ++ editFor value "lists_blocks" (fun value => .listsBlocks (value.asBool?.getD true))
      ++ editFor value "max_span" (.maxSpan ∘ asNat)
      ++ (object? value "fail").map (fun (call, count) => .fail call (asNat count))
      ++ editFor value "malformed" (fun calls => .malformed ((asList calls).map asStr))
      ++ (list value "triggers").map fun trigger =>
        .onCall (strOr trigger "call" "") (nat? trigger "nth") (nat? trigger "from")
          (chainEdits chain fuel ((field? trigger "change").getD .null))

def scriptedChain (chain : ChainId) (value : Json) : ScriptedChain :=
  let script :=
    ScriptedChain.start chain (natOr value "genesis_timestamp" 0) (natOr value "block_time" 10)
  script.editAll (chainEdits chain 8 value)

end ChainIndexer.Wire
